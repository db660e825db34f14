import DistSql.AtMostOnce
import DistSql.Delivery
import DistSql.Reference
import DistSql.Wire

/-!
# A Write From the Request to the Answer

Everything that a write goes through on its way: `execHandler` reads the statements in the body,
`Consensus.Exec` encodes them into an entry of the log, raft commits the entry, `applyAction`
decodes it and hands it to the engine, the engine runs it on a connection, and the results go
back through the response of the future to `writeResponse`.

What a client may expect is said without any of this (`referenceWrite`): the statements in the
body take effect on the database, each on its own, and the client is told their results. A
write that raft reports as failed may have taken effect nevertheless. The writes are taken in
the order of the log. Of the encoding it is only assumed that its decoder undoes it.

## Main results

* `serveWrite_eq`: the handler of this module is `execHandler` over what `Consensus.Exec` returns.
* `writes_refine`: **every sequence of writes** does to the database what the reference says, and
  every client receives the answer that the reference gives it.
-/

open Golang Sqlite Url

namespace DistSql

variable {D E : Type}

/-! ### The node -/

/-- What becomes of a proposal: its future resolves, or it fails with an error of raft, and the
entry may be applied nevertheless. -/
inductive Fate
  | resolved
  | failed (e : RaftError) (applied : Bool)
  deriving DecidableEq, Repr

/-- A write in its circumstances: what `IsLeader` and `LeaderAddr` say, what becomes of the
proposal, and how the engine fares with it. -/
structure Write (E : Type) where
  request : Http.Request
  leads : Bool
  leaderAddr : Bytes
  fate : Fate
  loc : Local E

/-- `Consensus.Exec`, with the engine of the node. -/
def consensusExec (pr : Proto) (drv : Driver D E) (w : Write E) (req : Request) (eng : Engine D) :
    Engine D × Outcome (Except RaftError (List ExecRes)) :=
  if w.leads then
    match encodeExec pr req with
    | .error m => (eng, .ret (.error (.other m)))
    | .ok b =>
        let p := applyAction pr drv w.loc b eng
        match w.fate with
        | .resolved => (p.1, p.2 >>= fun r => execReturn (.ok r))
        | .failed e applied => (if applied then p.1 else eng, .ret (.error e))
  else (eng, .ret (.error .notLeader))

/-- `execHandler`, with the engine of the node. -/
def serveWrite (pr : Proto) (drv : Driver D E) (lib : Library) (float : UInt64 → Number)
    (eng : Engine D) (w : Write E) : Engine D × Outcome HttpAnswer :=
  match Service.readStatements lib w.request with
  | .error reply => (eng, deliver float reply)
  | .ok statements =>
      let p := consensusExec pr drv w { statements := statements } eng
      (p.1, p.2 >>= fun res => deliver float (Service.execReply w.leaderAddr w.request res))

/-- **The handler is `execHandler`** over a store that returns what `Consensus.Exec` does. -/
theorem serveWrite_eq {pr : Proto} {drv : Driver D E} {lib : Library} {float : UInt64 → Number}
    {eng : Engine D} {w : Write E} {store : Store} (haddr : store.leaderAddr = w.leaderAddr)
    (hexec : ∀ req, (consensusExec pr drv w req eng).2 = .ret (store.exec req)) :
    (serveWrite pr drv lib float eng w).2 =
      deliver float (Service.execHandler ⟨lib, store⟩ w.request) := by
  rw [serveWrite, Service.execHandler]
  rcases Service.readStatements lib w.request with reply | statements
  · rfl
  · simp only [hexec, haddr, Outcome.ret_bind]

/-! ### The reference -/

/-- What the statements of a write make of a database, and what comes of them. -/
def referenceExec (drv : Driver D E) (loc : Local E) (statements : List Statement)
    (g : Ground D) : Ground D × Except RaftError (List ExecRes) :=
  match loc.conn with
  | some m => (g, .error (.other m))
  | none =>
      let p := eachAlone drv (nonEmpty loc 0 statements) g
      (p.1, .ok (p.2.map reported))

/-- **What a write is for**: the database after it, and what the client is told. -/
def referenceWrite (drv : Driver D E) (lib : Library) (g : Ground D) (w : Write E) :
    Ground D × Reply :=
  match Service.readStatements lib w.request with
  | .error reply => (g, reply)
  | .ok statements =>
      let told := Service.execReply w.leaderAddr w.request
      if w.leads then
        let p := referenceExec drv w.loc statements g
        match w.fate with
        | .resolved => (p.1, told p.2)
        | .failed e applied => (if applied then p.1 else g, told (.error e))
      else (g, told (.error .notLeader))

/-! ### The refinement -/

/-- A **regular** write: its texts are functions on databases, `Marshal` makes an entry of
them, and the failures that the engine runs into have texts. -/
structure Write.Regular (pr : Proto) (drv : Driver D E) (lib : Library) (w : Write E) : Prop where
  functional : ∀ statements, Service.readStatements lib w.request = .ok statements →
    ∀ stmt ∈ statements, Functional drv stmt.sql
  marshals : ∀ statements, Service.readStatements lib w.request = .ok statements →
    ∃ b, encodeExec pr { statements := statements } = .ok b
  speaks : ∀ i, Env.Speaks (w.loc.stmt i)

/-- The engine whose write connection is at rest, on a database and with settings. -/
def Ground.engine (g : Ground D) : Engine D := ⟨g.db, g.session.conn, .fresh true⟩

section Refinement

variable {pr : Proto} (hpr : pr.Lawful) {drv : Driver D E} (hcounts : drv.LawfulCounts)

include hcounts in
/-- Statements that run each on its own leave counts that can be read. -/
theorem eachAlone_readable (ps : List (Statement × Env E)) {g : Ground D}
    (hg : g.own.Readable) : (eachAlone drv ps g).1.own.Readable := by
  induction ps generalizing g with
  | nil => exact hg
  | cons p rest ih =>
      have hnext := @effect_readable D E drv hcounts p.2 p.1 g hg
      rcases he : effect drv p.2 p.1 g with ⟨g', m | res⟩ <;> rw [he] at hnext <;>
        simp only [eachAlone, he]
      · exact @ih ⟨g'.own, g.db⟩ hnext
      · exact ih hnext

include hcounts in
/-- The reference of the statements leaves counts that can be read. -/
theorem referenceExec_readable (loc : Local E) (statements : List Statement) {g : Ground D}
    (hg : g.own.Readable) : (referenceExec drv loc statements g).1.own.Readable := by
  rcases hconn : loc.conn with _ | m
  · simp only [referenceExec, hconn]
    exact eachAlone_readable hcounts _ hg
  · simpa only [referenceExec, hconn] using hg

include hcounts in
/-- An engine at rest executes statements as the reference says. -/
theorem engine_exec_atRest {loc : Local E} {statements : List Statement} {g : Ground D}
    (hall : AllFunctional drv (nonEmpty loc 0 statements)) (hg : g.own.Readable) :
    ∃ res err, g.engine.exec drv loc { statements := statements } =
        ((referenceExec drv loc statements g).1.engine, .ret (res, err)) ∧
      execReturn (.ok (.exec res err)) = .ret (referenceExec drv loc statements g).2 := by
  rcases hconn : loc.conn with _ | m
  · have halone := @exec_alone D E drv hcounts loc { statements := statements } g hall hg rfl hconn
    have hexec : g.engine.exec drv loc { statements := statements } =
        ({ g.engine with
            db := (exec drv loc { statements := statements } g.session).1.db
            write := (exec drv loc { statements := statements } g.session).1.conn },
          (exec drv loc { statements := statements } g.session).2) := rfl
    refine ⟨(eachAlone drv (nonEmpty loc 0 statements) g).2.map reported, none, ?_, ?_⟩
    · rw [hexec, halone]
      simp only [referenceExec, hconn]
      rfl
    · simp only [execReturn, referenceExec, hconn]
  · refine ⟨[], some m, ?_, ?_⟩
    · simp only [Engine.exec, exec, referenceExec, hconn]
    · simp only [execReturn, referenceExec, hconn]

include hpr hcounts

/-- **`Consensus.Exec` on an engine at rest**, for every encoding that can be undone. -/
theorem consensusExec_atRest {w : Write E} {statements : List Statement} {g : Ground D}
    (hall : AllFunctional drv (nonEmpty w.loc 0 statements)) (hg : g.own.Readable)
    {b : List UInt8} (hentry : encodeExec pr { statements := statements } = .ok b)
    (hlead : w.leads = true) :
    consensusExec pr drv w { statements := statements } g.engine =
      match w.fate with
      | .resolved =>
          ((referenceExec drv w.loc statements g).1.engine,
            .ret (referenceExec drv w.loc statements g).2)
      | .failed e applied =>
          (if applied then (referenceExec drv w.loc statements g).1.engine else g.engine,
            .ret (.error e)) := by
  have hdecodes := @decodesTo_encode pr hpr (.exec { statements := statements }) b hentry
  have happly := applyAction_of_decodesTo hdecodes drv w.loc g.engine
  obtain ⟨res, err, hexec, hret⟩ := engine_exec_atRest hcounts hall hg
  simp only [Engine.take, hexec, Outcome.ret_bind] at happly
  simp only [consensusExec, hlead, if_true, hentry, happly, Outcome.ret_bind, hret]

/-- **One write** on an engine at rest. -/
theorem serveWrite_atRest {lib : Library} (float : UInt64 → Number) {w : Write E}
    (h : w.Regular pr drv lib) {g : Ground D} (hg : g.own.Readable) :
    serveWrite pr drv lib float g.engine w =
        ((referenceWrite drv lib g w).1.engine, deliver float (referenceWrite drv lib g w).2) ∧
      (referenceWrite drv lib g w).1.own.Readable := by
  rcases hread : Service.readStatements lib w.request with reply | statements
  · simp only [serveWrite, referenceWrite, hread]
    exact ⟨trivial, hg⟩
  have hall := allFunctional_nonEmpty (h.functional statements hread) h.speaks 0
  have hnext := referenceExec_readable hcounts w.loc statements hg
  obtain ⟨b, hentry⟩ := h.marshals statements hread
  cases hlead : w.leads with
  | false =>
      simp only [serveWrite, referenceWrite, consensusExec, hread, hlead, Bool.false_eq_true,
        if_false, Outcome.ret_bind]
      exact ⟨trivial, hg⟩
  | true =>
      simp only [serveWrite, referenceWrite, hread, hlead, if_true,
        consensusExec_atRest hpr hcounts hall hg hentry hlead]
      rcases w.fate with _ | ⟨e, _ | _⟩
      · exact ⟨rfl, hnext⟩
      · exact ⟨rfl, hg⟩
      · exact ⟨rfl, hnext⟩

end Refinement

/-- **Every sequence of writes refines the reference**: along any number of regular writes,
whatever their bodies, whoever leads and whatever raft and the engine run into, the database is
what the reference makes of it, and every client receives the answer that the reference gives
it. The encoding of entries may be any that its decoder undoes. -/
theorem writes_refine {pr : Proto} (hpr : pr.Lawful) {drv : Driver D E}
    (hcounts : drv.LawfulCounts) (lib : Library) (float : UInt64 → Number) (d : D)
    (ws : List (Write E)) (h : ∀ w ∈ ws, w.Regular pr drv lib) :
    Machine.transcript (serveWrite pr drv lib float) (.fresh d) ws =
      let p := Machine.transcript (referenceWrite drv lib) ⟨.initial, d⟩ ws
      (p.1.engine, p.2.map (deliver float)) := by
  have hstep : ∀ w ∈ ws, ∀ (eng : Engine D) (g : Ground D), eng = g.engine ∧ g.own.Readable →
      ((serveWrite pr drv lib float eng w).1 = (referenceWrite drv lib g w).1.engine ∧
        (referenceWrite drv lib g w).1.own.Readable) ∧
        (serveWrite pr drv lib float eng w).2 = deliver float (referenceWrite drv lib g w).2 := by
    rintro w hw eng g ⟨rfl, hg⟩
    obtain ⟨hserve, hnext⟩ := serveWrite_atRest hpr hcounts float (h w hw) hg
    rw [hserve]
    exact ⟨⟨rfl, hnext⟩, rfl⟩
  obtain ⟨⟨hdb, -⟩, hans⟩ := @Machine.transcript_related (Engine D) (Ground D) (Write E)
    (Outcome HttpAnswer) Reply (serveWrite pr drv lib float) (referenceWrite drv lib)
    (fun eng g => eng = g.engine ∧ g.own.Readable) (fun a reply => a = deliver float reply) ws
    hstep (.fresh d) ⟨.initial, d⟩ ⟨rfl, 0, 0, rfl⟩
  refine Prod.ext hdb ?_
  exact List.forall₂_eq_eq_eq ▸ List.forall₂_map_right_iff.mpr hans

/-! ### Two insertions -/

/-- A body with one insertion. -/
def insertBody : Bytes := ascii "[\"INSERT INTO foo VALUES(1)\"]"

/-- The library for that body. -/
def insertLibrary : Library :=
  oneDocument insertBody (by decide) (.arr [.str "INSERT INTO foo VALUES(1)"])

/-- The insertion as a request. -/
def insertRequest : Http.Request :=
  ⟨"POST", ⟨ascii "/execute", [], by decide +kernel⟩, ⟨false, true⟩, .ok insertBody⟩

/-- The insertion on the leader. -/
def insertWrite (fate : Fate) : Write UInt8 where
  request := insertRequest
  leads := true
  leaderAddr := []
  fate := fate
  loc := .ofEntropy fun _ _ => 0

/-- The insertion is regular. -/
theorem insertWrite_regular (fate : Fate) :
    (insertWrite fate).Regular tableProto byteTable insertLibrary := by
  have hstatements : Service.readStatements insertLibrary insertRequest =
      .ok [⟨"INSERT INTO foo VALUES(1)", []⟩] := by decide +kernel
  refine ⟨fun statements hread => ?_, fun statements hread => ?_, fun i j m hm => ?_⟩
  · obtain rfl := Except.ok.inj (hstatements.symm.trans hread)
    intro stmt hstmt
    rw [List.mem_singleton.mp hstmt]
    exact byteTable_insert_functional
  · obtain rfl := Except.ok.inj (hstatements.symm.trans hread)
    exact ⟨execEntry "INSERT INTO foo VALUES(1)", by decide⟩
  · exact absurd hm (by simp [insertWrite, Local.ofEntropy])

/-- Two insertions, of which the second is reported as failed and takes effect. -/
theorem writes_refine_inserts :
    (Machine.transcript (serveWrite tableProto byteTable insertLibrary fun _ => ⟨false, 0, 0⟩)
        (.fresh []) [insertWrite .resolved, insertWrite (.failed (.other "timeout") true)]).1.db =
        [1, 1] ∧
      (Machine.transcript (serveWrite tableProto byteTable insertLibrary fun _ => ⟨false, 0, 0⟩)
        (.fresh []) [insertWrite .resolved, insertWrite (.failed (.other "timeout") true)]).2 =
        [deliver (fun _ => ⟨false, 0, 0⟩)
            (.data { results := { execRes := some [{ lastInsertId := 1, rowsAffected := 1 }] } }),
          deliver (fun _ => ⟨false, 0, 0⟩) (.data { error := "timeout" })] := by
  have hregular : ∀ w ∈ [insertWrite .resolved, insertWrite (.failed (.other "timeout") true)],
      w.Regular tableProto byteTable insertLibrary := by
    intro w hw
    rcases List.mem_pair.mp hw with rfl | rfl
    · exact insertWrite_regular _
    · exact insertWrite_regular _
  have hrefine := writes_refine tableProto_lawful byteTable_lawfulCounts insertLibrary
    (fun _ => ⟨false, 0, 0⟩) [] _ hregular
  have href : (Machine.transcript (referenceWrite byteTable insertLibrary) ⟨.initial, []⟩
      [insertWrite .resolved, insertWrite (.failed (.other "timeout") true)]).1.db = [1, 1] ∧
      (Machine.transcript (referenceWrite byteTable insertLibrary) ⟨.initial, []⟩
        [insertWrite .resolved, insertWrite (.failed (.other "timeout") true)]).2 =
        [.data { results := { execRes := some [{ lastInsertId := 1, rowsAffected := 1 }] } },
          .data { error := "timeout" }] := by decide +kernel
  rw [hrefine]
  exact ⟨href.1, congrArg (List.map _) href.2⟩

end DistSql
