import DistSql.Fsm
import DistSql.Machine
import DistSql.ReadPath
import DistSql.Wire

/-!
# Replicas and the Log

A replica takes the entries of the log one by one through `Apply`, which hands each of
them to the engine and then advances `lastIdx`, whatever became of it. Two promises are
made of such a replica.

**Agreement.** Two replicas that take the same log hold the same database. Statements
are replicated as texts and evaluated on each replica, so this is only as true as the
texts are independent of what differs between replicas: their clocks and random sources.
Nothing between the proposal and the engine takes such inputs out of a text.

**No index without its effect.** The database is what the entries up to `lastIdx` make
of it when nothing fails. `Apply` does not look at the error that a local failure leaves
in the response, so a replica whose connection, transaction, lock or commit fails skips
the entry and still advances `lastIdx` past it.

## Main results

* `replicas_agree`: replicas that execute texts free of local inputs agree after every
  prefix of the log.
* `random_text_splits_replicas`: a text with `random()` splits them.
* `effects_up_to_index`: the database of a replica none of whose executions is harmed
  locally is the fold of the entries up to `lastIdx`.
* `failed_connection_skips_entry`: a failed connection breaks this.
-/

open Golang Sqlite

namespace DistSql

variable {D E : Type}

/-- `raft.Log`: what `Apply` looks at. -/
structure LogEntry where
  index : ℕ
  data : List UInt8
  deriving DecidableEq, Repr

/-- The part of `Consensus` that applying entries is about. -/
structure Replica (D : Type) where
  eng : Engine D
  lastIdx : ℕ

/-- `Apply`: the deferred function sets `lastIdx` however `applyAction` ends. -/
def apply (pr : Proto) (drv : Driver D E) (loc : Local E) (r : Replica D)
    (record : LogEntry) : Replica D × Outcome Response :=
  let p := applyAction pr drv loc record.data r.eng
  (⟨p.1, record.index⟩, p.2)

/-- One entry of a replica's log, with the local circumstances in which the replica
applies it. -/
def applyStep (pr : Proto) (drv : Driver D E) (r : Replica D) (p : LogEntry × Local E) :
    Replica D :=
  (apply pr drv p.2 r p.1).1

/-! ### Agreement -/

/-- Two engines that execute the same requests alike: they hold the same database, and
their write connections are in the same state. -/
structure Agree (a b : Engine D) : Prop where
  db : a.db = b.db
  write : a.write = b.write

/-- **One entry** that was proposed by `Consensus.Exec`, with texts free of local
inputs, keeps replicas in agreement. -/
theorem Agree.applyAction_exec {pr : Proto} {drv : Driver D E} {req : Request}
    {b : List UInt8} (hdec : DecodesTo pr b (.exec req))
    (hfree : ∀ stmt ∈ req.statements, LocalFree drv stmt.sql) (e₁ e₂ : ℕ → ℕ → E)
    {eng₁ eng₂ : Engine D} (h : Agree eng₁ eng₂) :
    Agree (applyAction pr drv (.ofEntropy e₁) b eng₁).1
      (applyAction pr drv (.ofEntropy e₂) b eng₂).1 := by
  have hsess : (⟨eng₁.db, eng₁.write⟩ : Session D) = ⟨eng₂.db, eng₂.write⟩ := by
    rw [h.db, h.write]
  rw [applyAction_of_decodesTo hdec, applyAction_of_decodesTo hdec]
  simp only [Engine.take, Engine.exec, hsess, exec_congr_entropy hfree e₁ e₂]
  exact ⟨rfl, rfl⟩

/-- The state of a replica after a log, when its clock and random source produce `e`:
entry by entry, statement by statement, command by command. -/
def afterLog (pr : Proto) (drv : Driver D E) (r : Replica D)
    (log : List (LogEntry × (ℕ → ℕ → E))) : Replica D :=
  Machine.run (applyStep pr drv) r (log.map fun p => (p.1, .ofEntropy p.2))

/-- **Replica agreement**: two replicas that start in agreement and apply the same log
of entries proposed by `Consensus.Exec` hold the same database after every prefix of the
log, whatever their clocks and random sources produce, if the texts do not read them.
The log is given once; the two columns of `es` are what the replicas' own sources
produce for each entry. -/
theorem replicas_agree {pr : Proto} (hpr : pr.Lawful) (drv : Driver D E)
    (log : List LogEntry) (reqs : List Request)
    (hlog : List.Forall₂ (fun en req => encodeExec pr req = .ok en.data) log reqs)
    (hfree : ∀ req ∈ reqs, ∀ stmt ∈ req.statements, LocalFree drv stmt.sql)
    (es₁ es₂ : ℕ → ℕ → ℕ → E) {r₁ r₂ : Replica D} (h : Agree r₁.eng r₂.eng) (n : ℕ) :
    (afterLog pr drv r₁ ((log.take n).mapIdx fun i en => (en, es₁ i))).eng.db =
      (afterLog pr drv r₂ ((log.take n).mapIdx fun i en => (en, es₂ i))).eng.db := by
  -- the two runs take the same entries, each of which decodes to a request of the list
  have hin : List.Forall₂
      (fun p q : LogEntry × Local E => p.1 = q.1 ∧
        ∃ req e₁ e₂, p.2 = .ofEntropy e₁ ∧ q.2 = .ofEntropy e₂ ∧
          DecodesTo pr p.1.data (.exec req) ∧ ∀ stmt ∈ req.statements, LocalFree drv stmt.sql)
      (((log.take n).mapIdx fun i en => (en, es₁ i)).map fun p => (p.1, .ofEntropy p.2))
      (((log.take n).mapIdx fun i en => (en, es₂ i)).map fun p => (p.1, .ofEntropy p.2)) := by
    refine List.forall₂_iff_get.mpr ⟨by simp, fun i h₁ h₂ => ?_⟩
    simp only [List.length_map, List.length_mapIdx, List.length_take] at h₁
    have hi : i < log.length := by omega
    obtain ⟨hlen, hget⟩ := List.forall₂_iff_get.mp hlog
    have hi' : i < reqs.length := by omega
    have henc := hget i hi hi'
    simp only [List.get_eq_getElem, List.getElem_map, List.getElem_mapIdx, List.getElem_take]
    exact ⟨trivial, reqs[i], es₁ i, es₂ i, rfl, rfl,
      decodesTo_encode (p := .exec reqs[i]) hpr henc,
      hfree _ (List.getElem_mem hi')⟩
  have hagree : Agree (afterLog pr drv r₁ ((log.take n).mapIdx fun i en => (en, es₁ i))).eng
      (afterLog pr drv r₂ ((log.take n).mapIdx fun i en => (en, es₂ i))).eng := by
    refine Machine.run_related (R := fun a b : Replica D => Agree a.eng b.eng) ?_ hin h
    rintro s t ⟨en, loc₁⟩ ⟨en', loc₂⟩ hst ⟨rfl, req, e₁, e₂, rfl, rfl, hdec, hreq⟩
    exact Agree.applyAction_exec hdec hreq e₁ e₂ hst
  exact hagree.db

/-- The rule at work: two replicas insert the same constant. -/
theorem replicas_agree_insert :
    (afterLog tableProto byteTable ⟨.fresh [], 0⟩
        [(⟨1, execEntry "INSERT INTO foo VALUES(1)"⟩, fun _ _ => 3)]).eng.db =
      (afterLog tableProto byteTable ⟨.fresh [], 0⟩
        [(⟨1, execEntry "INSERT INTO foo VALUES(1)"⟩, fun _ _ => 5)]).eng.db := by
  refine replicas_agree tableProto_lawful byteTable
    [⟨1, execEntry "INSERT INTO foo VALUES(1)"⟩] [oneStmt "INSERT INTO foo VALUES(1)"]
    (.cons (by decide) .nil) ?_ (fun _ _ _ => 3) (fun _ _ _ => 5) ⟨rfl, rfl⟩ 1
  intro req hreq stmt hstmt
  rw [List.mem_singleton.mp hreq] at hstmt
  rw [List.mem_singleton.mp hstmt]
  exact byteTable_insert_localFree

/-- **A text with `random()` splits replicas**: both apply the same entry to the same
database, and hold different databases afterwards. So does a transaction that was left
open on the write connection of one of them, with any text. -/
theorem random_text_splits_replicas :
    (encodeExec tableProto (oneStmt "INSERT INTO foo VALUES(random())") =
        .ok (execEntry "INSERT INTO foo VALUES(random())") ∧
      (afterLog tableProto byteTable ⟨.fresh [], 0⟩
          [(⟨1, execEntry "INSERT INTO foo VALUES(random())"⟩, fun _ _ => 3)]).eng.db ≠
        (afterLog tableProto byteTable ⟨.fresh [], 0⟩
          [(⟨1, execEntry "INSERT INTO foo VALUES(random())"⟩, fun _ _ => 5)]).eng.db) ∧
      (afterLog tableProto byteTable ⟨.fresh [], 0⟩
          [(⟨1, execEntry "INSERT INTO foo VALUES(1)"⟩, fun _ _ => 3)]).eng.db ≠
        (afterLog tableProto byteTable ⟨⟨[], ⟨true, some (.deferred []), .initial⟩, .fresh true⟩, 0⟩
          [(⟨1, execEntry "INSERT INTO foo VALUES(1)"⟩, fun _ _ => 3)]).eng.db := by
  decide

/-! ### No index without its effect -/

/-- The request of an execute entry. -/
def decodeExec (pr : Proto) (b : List UInt8) : Option Request :=
  match pr.action.unmarshal b with
  | .ok ⟨.execute, body⟩ =>
      match pr.request.unmarshal body with
      | .ok req => some req
      | .error _ => none
  | _ => none

/-- `decodeExec` finds the requests that execute entries decode to. -/
theorem decodeExec_eq_some_iff {pr : Proto} {b : List UInt8} {req : Request} :
    decodeExec pr b = some req ↔ DecodesTo pr b (.exec req) := by
  rcases hac : pr.action.unmarshal b with m | ⟨ty, body⟩
  · simp [decodeExec, DecodesTo, hac]
  cases ty with
  | execute =>
      rcases hreq : pr.request.unmarshal body with m | req'
      · simp [decodeExec, DecodesTo, hac, hreq]
      · simp [decodeExec, DecodesTo, hac, hreq]
  | _ => simp [decodeExec, DecodesTo, hac]

/-- The **failure-free semantics** of an entry: what its request does to the database
and the write connection where no local step can fail. -/
def failureFree (pr : Proto) (drv : Driver D E) (s : Session D) (p : LogEntry × Local E) :
    Session D :=
  match decodeExec pr p.1.data with
  | some req => (exec drv p.2.quiet req s).1
  | none => s

/-- The promise of `lastIdx`: after every number of `Apply` calls, the database is what
the entries with an index up to `lastIdx` make of the initial one, failure-free. -/
def EffectsUpToIndex (pr : Proto) (drv : Driver D E) (r₀ : Replica D)
    (log : List (LogEntry × Local E)) : Prop :=
  ∀ n, let r := Machine.run (applyStep pr drv) r₀ (log.take n)
    r.eng.db = (Machine.run (failureFree pr drv) ⟨r₀.eng.db, r₀.eng.write⟩
      (log.filter fun p => p.1.index ≤ r.lastIdx)).db

/-- The entry is applied without harm: every local step of an execution succeeds, and
the texts of a query attach no database. -/
structure Unharmed (pr : Proto) (drv : Driver D E) (p : LogEntry × Local E) : Prop where
  exec : ∀ req, DecodesTo pr p.1.data (.exec req) → p.2.Unharmed req
  query : ∀ q req, DecodesTo pr p.1.data (.query q) → q.request = some req →
    ∀ stmt ∈ req.statements, ∀ c ∈ drv.split stmt.sql, c.attaches = false

/-- An entry that decodes to no proposal leaves the engine alone. -/
theorem applyAction_unchanged {pr : Proto} {b : List UInt8} (h : ∀ p, ¬DecodesTo pr b p)
    (drv : Driver D E) (loc : Local E) (eng : Engine D) :
    (applyAction pr drv loc b eng).1 = eng := by
  rcases applySwitch_cases pr b with ⟨req, hreq, -⟩ | ⟨q, hq, -⟩ | ⟨-, out, -, hrun⟩
  · exact absurd hreq (h _)
  · exact absurd hq (h _)
  · rw [applyAction, hrun]

/-- An entry that decodes to a query is not an execute entry. -/
theorem decodeExec_of_query {pr : Proto} {b : List UInt8} {q : QueryReq}
    (h : DecodesTo pr b (.query q)) : decodeExec pr b = none := by
  obtain ⟨body, hac, -⟩ := h
  simp [decodeExec, hac]

/-- The write side of a replica: its database and its write connection. -/
def Replica.writeSide (r : Replica D) : Session D := ⟨r.eng.db, r.eng.write⟩

/-- The read side of a replica: its database and its read connection. -/
def Replica.readSide (r : Replica D) : Session D := ⟨r.eng.db, r.eng.read⟩

/-- **One entry applied without harm** does to the write side what it does
failure-free, and leaves the read connection one that cannot write. -/
theorem applyStep_unharmed {pr : Proto} {drv : Driver D E} {r : Replica D}
    {p : LogEntry × Local E} (hp : Unharmed pr drv p) (hread : ReadOnly r.readSide) :
    (applyStep pr drv r p).writeSide = failureFree pr drv r.writeSide p ∧
      ReadOnly (applyStep pr drv r p).readSide := by
  by_cases hdec : ∃ prop, DecodesTo pr p.1.data prop
  · obtain ⟨prop, hdec⟩ := hdec
    have happ := applyAction_of_decodesTo hdec drv p.2 r.eng
    cases prop with
    | exec req =>
        have hreq := decodeExec_eq_some_iff.mpr hdec
        have hexec : exec drv p.2 req r.writeSide = exec drv p.2.quiet req r.writeSide :=
          exec_quiet_eq (hp.exec req hdec) _
        simp only [applyStep, apply, happ, failureFree, hreq, ← hexec]
        exact ⟨rfl, hread.cannot, hread.clean⟩
    | query q =>
        have hnone := decodeExec_of_query hdec
        simp only [applyStep, apply, happ, failureFree, hnone]
        rcases hq : q.request with _ | req
        · rcases hc : p.2.conn with _ | m <;>
            simp only [Engine.take, Engine.query, hq, hc] <;> exact ⟨rfl, hread⟩
        · obtain ⟨hro, hdb⟩ : ReadOnly (query drv p.2 req r.readSide).1 ∧
              (query drv p.2 req r.readSide).1.db = r.readSide.db :=
            query_readOnly hread (hp.query q req hdec hq)
          simp only [Engine.take, Engine.query, hq]
          refine ⟨?_, hro⟩
          exact congrArg (fun d => (⟨d, r.eng.write⟩ : Session D)) hdb
  · have hnot : ∀ prop, ¬DecodesTo pr p.1.data prop := not_exists.mp hdec
    have hnone : decodeExec pr p.1.data = none := by
      rcases hreq : decodeExec pr p.1.data with _ | req
      · rfl
      · exact absurd (decodeExec_eq_some_iff.mp hreq) (hnot (.exec req))
    simp only [applyStep, apply, applyAction_unchanged hnot, failureFree, hnone]
    exact ⟨rfl, hread⟩

/-- **A run without harm** does to the write side what its entries do failure-free. -/
theorem run_unharmed {pr : Proto} {drv : Driver D E} {log : List (LogEntry × Local E)}
    {r : Replica D} (hlog : ∀ p ∈ log, Unharmed pr drv p) (hread : ReadOnly r.readSide) :
    (Machine.run (applyStep pr drv) r log).writeSide =
      Machine.run (failureFree pr drv) r.writeSide log := by
  have hin : List.Forall₂ (fun p q => p = q ∧ Unharmed pr drv p) log log :=
    List.forall₂_same.mpr fun p hp => ⟨rfl, hlog p hp⟩
  have hrel : (Machine.run (applyStep pr drv) r log).writeSide =
      Machine.run (failureFree pr drv) r.writeSide log ∧ _ :=
    Machine.run_related
      (R := fun (a : Replica D) (s : Session D) => a.writeSide = s ∧ ReadOnly a.readSide)
      (fun a s p q has hpq => by
        obtain ⟨rfl, hp⟩ := hpq
        obtain ⟨rfl, hro⟩ := has
        exact applyStep_unharmed hp hro)
      hin ⟨rfl, hread⟩
  exact hrel.1

/-- `lastIdx` does not go back along a log with growing indexes. -/
theorem lastIdx_le_run {pr : Proto} {drv : Driver D E} :
    ∀ (log : List (LogEntry × Local E)) (r : Replica D),
      log.Pairwise (fun p q => p.1.index < q.1.index) →
      (∀ p ∈ log, r.lastIdx < p.1.index) →
      r.lastIdx ≤ (Machine.run (applyStep pr drv) r log).lastIdx := by
  intro log
  induction log with
  | nil => intro r _ _; exact Nat.le_refl _
  | cons p log ih =>
      intro r hsort hlt
      obtain ⟨hhead, htail⟩ := List.pairwise_cons.mp hsort
      have hp : r.lastIdx < p.1.index := hlt p List.mem_cons_self
      have hrest : (applyStep pr drv r p).lastIdx ≤
          (Machine.run (applyStep pr drv) (applyStep pr drv r p) log).lastIdx :=
        ih _ htail hhead
      have hidx : (applyStep pr drv r p).lastIdx = p.1.index := rfl
      rw [Machine.run_cons]
      omega

/-- The entries with an index up to `lastIdx` are the ones that were applied. -/
theorem filter_lastIdx {pr : Proto} {drv : Driver D E} :
    ∀ (log : List (LogEntry × Local E)) (r : Replica D) (n : ℕ),
      log.Pairwise (fun p q => p.1.index < q.1.index) →
      (∀ p ∈ log, r.lastIdx < p.1.index) →
      log.filter (fun p => p.1.index ≤
        (Machine.run (applyStep pr drv) r (log.take n)).lastIdx) = log.take n := by
  intro log
  induction log with
  | nil => intro r n _ _; simp
  | cons p log ih =>
      intro r n hsort hlt
      obtain ⟨hhead, htail⟩ := List.pairwise_cons.mp hsort
      rcases n with _ | n
      · -- nothing was applied, and every index is above `lastIdx`
        rw [List.take_zero, Machine.run_nil, List.filter_eq_nil_iff]
        intro q hq
        have hql := hlt q hq
        simpa using hql
      · have hle : (applyStep pr drv r p).lastIdx ≤
            (Machine.run (applyStep pr drv) (applyStep pr drv r p) (log.take n)).lastIdx :=
          lastIdx_le_run _ _ (htail.sublist (List.take_sublist n log))
            fun q hq => hhead q (List.mem_of_mem_take hq)
        have hidx : (applyStep pr drv r p).lastIdx = p.1.index := rfl
        rw [List.take_succ_cons, Machine.run_cons, List.filter_cons_of_pos (by simp; omega),
          ih _ n htail hhead]

/-- **No applied index without its effect**: along every log with growing indexes, a
replica none of whose entries is harmed locally holds, after every `Apply` call, what
the entries with an index up to `lastIdx` make of its initial database, failure-free. -/
theorem effects_up_to_index (pr : Proto) (drv : Driver D E) (r₀ : Replica D)
    (log : List (LogEntry × Local E)) (hread : ReadOnly r₀.readSide)
    (hsort : log.Pairwise fun p q => p.1.index < q.1.index)
    (hlt : ∀ p ∈ log, r₀.lastIdx < p.1.index) (hlog : ∀ p ∈ log, Unharmed pr drv p) :
    EffectsUpToIndex pr drv r₀ log := by
  intro n r
  have hside : r.writeSide = Machine.run (failureFree pr drv) r₀.writeSide (log.take n) :=
    run_unharmed (fun p hp => hlog p (List.mem_of_mem_take hp)) hread
  rw [filter_lastIdx log r₀ n hsort hlt]
  exact congrArg Session.db hside

/-- The read connection of an engine that was just opened cannot write. -/
theorem readOnly_fresh (d : D) (n : ℕ) : ReadOnly (Replica.readSide ⟨.fresh d, n⟩) :=
  ⟨rfl, Session.Idle.clean rfl⟩

/-- The rule at work: one insertion, applied without a local failure. -/
theorem effects_up_to_index_insert :
    EffectsUpToIndex tableProto byteTable ⟨.fresh [], 0⟩
      [(⟨1, execEntry "INSERT INTO foo VALUES(1)"⟩,
        .ofEntropy fun _ _ => 0)] := by
  refine effects_up_to_index _ _ _ _ (readOnly_fresh _ _) (by simp) (by simp) ?_
  intro p hp
  rw [List.mem_singleton.mp hp]
  refine ⟨fun req _ => ⟨rfl, fun _ => rfl, fun _ _ => rfl, fun _ => rfl⟩, ?_⟩
  have hexec : tableProto.action.unmarshal (execEntry "INSERT INTO foo VALUES(1)") =
        .ok ⟨.execute, oneStmtBytes "INSERT INTO foo VALUES(1)"⟩ := by
    decide
  rintro q req ⟨body, hac, -⟩
  exact absurd (hexec.symm.trans hac) (by simp)

/-- **A failed connection skips an entry**: the replica answers the insertion with an
error that nobody on it looks at, does not insert, and advances `lastIdx`. -/
theorem failed_connection_skips_entry :
    ¬EffectsUpToIndex tableProto byteTable ⟨.fresh [], 0⟩
      [(⟨1, execEntry "INSERT INTO foo VALUES(1)"⟩,
        { Local.ofEntropy fun _ _ => 0 with
          conn := some "unable to open database file" })] := by
  intro h
  exact absurd (h 1) (by decide)

end DistSql
