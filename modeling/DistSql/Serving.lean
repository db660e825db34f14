import DistSql.Interference
import DistSql.Boundary
import DistSql.Replica
import Mathlib.Data.Prod.Lex

/-!
# A Node That Applies the Log While It Serves

Raft hands the entries of the log to `Consensus.Apply` one after the other, and each request is
executed statement by statement on the write connection. All the while queries read from the
pool of read connections. This module puts the two together: a node (`Serving`) goes through the
log at its own pace, next to the steps of any number of queries.

What is published on the way is the database at a **cut** of the log: after so many entries, and
so many statements of the next one (`databaseAt`). It does not depend on the node, as long as
the requests stay within their boundaries and no local step fails. Without a transaction every
statement of a request shows; with one, nothing shows before its commit.

Applying an entry with a query runs the query on the pool, like any other one. After the entry
`lastIdx` is set, which is what `WaitForIndex` waits for.

## Main results

* `databaseAt`: the database at a cut of the log.
* `Writes.step`: what one step leaves of the writer, and `Writes.cut_le_step`: a node never goes
  back.
* `Writes.db_eq`: **what a node has published is the database at its cut**.
-/

open Golang Sqlite

namespace DistSql

variable {D E : Type}

/-! ### The database of a log -/

/-- What an entry makes of a database: what its request does, if it is to be executed. -/
def entryEffect (pr : Proto) (drv : Driver D E) (e : ℕ → ℕ → E) (d : D) (en : LogEntry) : D :=
  match decodeExec pr en.data with
  | some req => requestEffect drv e d req
  | none => d

/-- The database after some entries. -/
def databaseAfter (pr : Proto) (drv : Driver D E) (e : ℕ → ℕ → E) (d : D)
    (entries : List LogEntry) : D := entries.foldl (entryEffect pr drv e) d

/-- Where the loop of a request starts, on a fresh connection. -/
def loopStart (req : Request) (d : D) : ExecState D :=
  ⟨if req.transaction then Session.opened ⟨d, .fresh false⟩ else ⟨d, .fresh false⟩,
    req.transaction, [], false⟩

/-- Where the loop of a request is after `j` statements. -/
def loopAt (drv : Driver D E) (e : ℕ → ℕ → E) (req : Request) (d : D) (j : ℕ) : ExecState D :=
  execLoop drv (.ofEntropy e) 0 (req.statements.take j) (loopStart req d)

/-- A **cut** of a log: a number of entries, and a number of statements of the next one, in the
order in which they are executed. -/
abbrev LogCut := ℕ ×ₗ ℕ

/-- The cut after `n` entries and `j` statements. -/
def LogCut.mk (n j : ℕ) : LogCut := toLex (n, j)

/-- **The database at a cut**: what is published after the entries and the statements. -/
def databaseAt (pr : Proto) (drv : Driver D E) (e : ℕ → ℕ → E) (d : D) (log : List LogEntry)
    (c : LogCut) : D :=
  let before := databaseAfter pr drv e d (log.take (ofLex c).1)
  match log[(ofLex c).1]?.bind fun en => decodeExec pr en.data with
  | some req => (loopAt drv e req before (ofLex c).2).session.db
  | none => before

/-- The order of cuts. -/
theorem LogCut.mk_le_mk {n j n' j' : ℕ} :
    LogCut.mk n j ≤ LogCut.mk n' j' ↔ n < n' ∨ n = n' ∧ j ≤ j' :=
  Prod.Lex.toLex_le_toLex

/-- Every cut is one of entries and statements. -/
theorem LogCut.eq_mk (c : LogCut) : c = LogCut.mk (ofLex c).1 (ofLex c).2 := rfl

section Database

variable {pr : Proto} {drv : Driver D E} {e : ℕ → ℕ → E} {d : D} {log : List LogEntry}

/-- The database after one more entry. -/
theorem databaseAfter_succ {n : ℕ} {en : LogEntry} (h : log[n]? = some en) :
    databaseAfter pr drv e d (log.take (n + 1)) =
      entryEffect pr drv e (databaseAfter pr drv e d (log.take n)) en := by
  rw [List.take_add_one, h, Option.toList_some, databaseAfter, List.foldl_append]
  rfl

/-- Before the first statement nothing was done. -/
theorem loopAt_zero (req : Request) : (loopAt drv e req d 0).session.db = d := by
  simp only [loopAt, List.take_zero, execLoop, loopStart]
  split <;> rfl

/-- At a cut between two entries. -/
theorem databaseAt_mk_zero (n : ℕ) :
    databaseAt pr drv e d log (.mk n 0) = databaseAfter pr drv e d (log.take n) := by
  have hcut : ofLex (LogCut.mk n 0) = (n, 0) := rfl
  simp only [databaseAt, hcut]
  split
  · exact loopAt_zero _
  · rfl

/-- Inside an entry that is executed. -/
theorem databaseAt_mk {n : ℕ} {en : LogEntry} {req : Request} (hen : log[n]? = some en)
    (hreq : decodeExec pr en.data = some req) (j : ℕ) :
    databaseAt pr drv e d log (.mk n j) =
      (loopAt drv e req (databaseAfter pr drv e d (log.take n)) j).session.db := by
  have hcut : ofLex (LogCut.mk n j) = (n, j) := rfl
  simp only [databaseAt, hcut, hen, Option.bind_some, hreq]

/-- The database at a cut stays when the log grows behind it. -/
theorem databaseAt_append {c : LogCut} (log' : List LogEntry)
    (h : c ≤ .mk log.length 0) :
    databaseAt pr drv e d (log ++ log') c = databaseAt pr drv e d log c := by
  rw [LogCut.eq_mk c] at h ⊢
  rcases LogCut.mk_le_mk.mp h with hlt | ⟨heq, hzero⟩
  · have hcut : ofLex (LogCut.mk (ofLex c).1 (ofLex c).2) = ofLex c := rfl
    simp only [databaseAt, hcut, List.take_append_of_le_length hlt.le,
      List.getElem?_append_left hlt]
  · rw [Nat.le_zero.mp hzero, databaseAt_mk_zero, databaseAt_mk_zero,
      List.take_append_of_le_length heq.le]

/-- The whole loop of a request, from where it starts. -/
theorem requestEffect_eq (req : Request) :
    exec drv (.ofEntropy e) req ⟨d, .fresh false⟩ =
      execFinish (.ofEntropy e)
        (execLoop drv (.ofEntropy e) 0 req.statements (loopStart req d)) := by
  have hconn : (Local.ofEntropy e).conn = none := rfl
  have hbegin : (Local.ofEntropy e).begin = none := rfl
  have hidle : (Conn.fresh false : Conn D).tx = none := rfl
  simp only [exec, hconn, hbegin, beginTx, hidle, loopStart]
  cases req.transaction <;> rfl

end Database

/-! ### The node -/

/-- Where the goroutine that applies entries is: it waits for the next one; it is inside
`applyAction`; or `applyAction` has returned, and `lastIdx` is still to be set. -/
inductive Turn
  | waits
  | inside
  | returned
  deriving DecidableEq, Repr

/-- A node that goes through the log while it serves: how many entries it has applied, where it
is with the next one, and its `lastIdx`. -/
structure Serving (D E : Type) where
  node : Node D E
  applied : ℕ := 0
  turn : Turn := .waits
  lastIdx : ℕ := 0

/-- The inputs of a node: the next entry is handed to `Apply`; the next statement of its request
runs; `applyAction` returns; `lastIdx` is set; a query takes a step. -/
inductive ServeInput (E : Type)
  | apply (e : ℕ → ℕ → E)
  | execStmt (waits : ℕ → ℕ → Bool)
  | finish (waits : ℕ → Bool)
  | record
  | query (i : NodeInput E)

/-- The number of statements that the request which is being executed has behind it. -/
def Node.pos (s : Node D E) : ℕ :=
  match s.current with
  | some run => run.pos
  | none => 0

namespace Serving

/-- The node at its start. -/
def start (d : D) : Serving D E where
  node := .init d

/-- How far the node has come. -/
def cut (n : Serving D E) : LogCut := .mk n.applied n.node.pos

/-- `Apply` is called with the next entry of the log. -/
def begin (pr : Proto) (drv : Driver D E) (log : List LogEntry) (n : Serving D E)
    (e : ℕ → ℕ → E) : Serving D E :=
  match n.turn, log[n.applied]? with
  | .waits, some en =>
      match decodeExec pr en.data with
      | some req =>
          { n with node := nodeStep drv n.node (.execStart req (.ofEntropy e)), turn := .inside }
      | none => { n with turn := .inside }
  | _, _ => n

/-- `applyAction` returns, if the request that it executes is through. -/
def finish (drv : Driver D E) (n : Serving D E) (waits : ℕ → Bool) : Serving D E :=
  match n.turn with
  | .inside =>
      let node := nodeStep drv n.node (.execEnd waits)
      match node.current with
      | none => { n with node := node, applied := n.applied + 1, turn := .returned }
      | some _ => n
  | _ => n

/-- `lastIdx` is set to the index of the entry. -/
def record (log : List LogEntry) (n : Serving D E) : Serving D E :=
  match n.turn, log[n.applied - 1]? with
  | .returned, some en => { n with lastIdx := en.index, turn := .waits }
  | _, _ => n

/-- One step of the node. -/
def step (pr : Proto) (drv : Driver D E) (log : List LogEntry) (n : Serving D E) :
    ServeInput E → Serving D E
  | .apply e => n.begin pr drv log e
  | .execStmt waits => { n with node := nodeStep drv n.node (.execStmt waits) }
  | .finish waits => n.finish drv waits
  | .record => n.record log
  | .query i => if i.isExec then n else { n with node := nodeStep drv n.node i }

end Serving

/-- Outside a transaction every text of the request is one command at most. SQLite commits after
each command, so a text with several would show its middle to a query, which the steps of a node
do not. -/
def OneCommandEach (drv : Driver D E) (req : Request) : Prop :=
  req.transaction = false → ∀ stmt ∈ req.statements, (drv.split stmt.sql).length ≤ 1

/-- An entry is **regular**: it decodes to a request that stays within its boundaries and
publishes nothing in the middle of a statement, or to a query. -/
def RegularEntry (pr : Proto) (drv : Driver D E) (data : List UInt8) : Prop :=
  (∃ req, DecodesTo pr data (.exec req) ∧ Contained drv req ∧ OneCommandEach drv req) ∨
    ∃ req strong, DecodesTo pr data (.query ⟨some req, strong⟩)

/-- A step is **undisturbed**: no lock of a query outlives the wait of the writer, and what a
query runs neither writes nor leaves anything behind on its connection. -/
def Serving.Undisturbed (drv : Driver D E) (n : Serving D E) : ServeInput E → Prop
  | .execStmt waits => Undisturbing drv n.node (.execStmt waits)
  | .finish waits => Undisturbing drv n.node (.execEnd waits)
  | .query i => Undisturbing drv n.node i
  | _ => True

/-! ### The writer -/

/-- A request that is being executed is where the loop of the reference is, up to the settings
of the connection and the results. -/
structure Executes (pr : Proto) (drv : Driver D E) (e₀ : ℕ → ℕ → E) (d : D)
    (log : List LogEntry) (n : Serving D E) (run : Executing E) : Prop where
  entry : ∃ en, log[n.applied]? = some en ∧ decodeExec pr en.data = some run.req
  contained : Contained drv run.req
  quiet : ∃ e, run.loc = .ofEntropy e
  twin : LoopTwin ⟨⟨n.node.db, n.node.write⟩, run.tx, run.results, run.hung⟩
    (loopAt drv e₀ run.req (databaseAfter pr drv e₀ d (log.take n.applied)) run.pos)
  broke_iff : run.broke = false ↔ run.tx = run.req.transaction ∧ run.hung = false

/-- **What holds of the writer** of a node. -/
structure Writes (pr : Proto) (drv : Driver D E) (e₀ : ℕ → ℕ → E) (d : D)
    (log : List LogEntry) (n : Serving D E) : Prop where
  le : n.applied ≤ log.length
  harmless : ∀ slot ∈ n.node.slots, slot.Harmless
  atRest : n.node.current = none → AtRest ⟨n.node.db, n.node.write⟩ ∧
    n.node.db = databaseAfter pr drv e₀ d (log.take n.applied)
  executes : ∀ run, n.node.current = some run →
    n.turn = .inside ∧ Executes pr drv e₀ d log n run
  other : n.turn = .inside → n.node.current = none →
    ∃ en, log[n.applied]? = some en ∧ decodeExec pr en.data = none
  returned : n.turn = .returned → 0 < n.applied

section Writer

variable {pr : Proto} {drv : Driver D E} {e₀ : ℕ → ℕ → E} {d : D} {log : List LogEntry}
  {n : Serving D E}

/-- **What a node has published is the database at its cut.** -/
theorem Writes.db_eq (h : Writes pr drv e₀ d log n) :
    n.node.db = databaseAt pr drv e₀ d log n.cut := by
  rcases hcur : n.node.current with _ | run
  · have hcut : n.cut = .mk n.applied 0 := by rw [Serving.cut, Node.pos, hcur]
    rw [hcut, databaseAt_mk_zero]
    exact (h.atRest hcur).2
  · have hcut : n.cut = .mk n.applied run.pos := by rw [Serving.cut, Node.pos, hcur]
    obtain ⟨-, hrun⟩ := h.executes run hcur
    obtain ⟨en, hen, hreq⟩ := hrun.entry
    rw [hcut, databaseAt_mk hen hreq]
    exact hrun.twin.session.db

/-- The cut of a node is within the log. -/
theorem Writes.cut_le (h : Writes pr drv e₀ d log n) : n.cut ≤ .mk log.length 0 := by
  rcases hcur : n.node.current with _ | run
  · have hcut : n.cut = .mk n.applied 0 := by rw [Serving.cut, Node.pos, hcur]
    rw [hcut, LogCut.mk_le_mk]
    rcases Nat.lt_or_eq_of_le h.le with hlt | heq
    · exact .inl hlt
    · exact .inr ⟨heq, Nat.le_refl 0⟩
  · have hcut : n.cut = .mk n.applied run.pos := by rw [Serving.cut, Node.pos, hcur]
    obtain ⟨en, hen, -⟩ := (h.executes run hcur).2.entry
    rw [hcut, LogCut.mk_le_mk]
    exact .inl (List.getElem?_eq_some_iff.mp hen).1

/-- The log grows behind the node. -/
theorem Writes.append (h : Writes pr drv e₀ d log n) (en : LogEntry) :
    Writes pr drv e₀ d (log ++ [en]) n := by
  have htake : (log ++ [en]).take n.applied = log.take n.applied :=
    List.take_append_of_le_length h.le
  have hget : ∀ en', log[n.applied]? = some en' → (log ++ [en])[n.applied]? = some en' := by
    intro en' hen'
    rw [List.getElem?_append_left (List.getElem?_eq_some_iff.mp hen').1]
    exact hen'
  refine ⟨?_, h.harmless, ?_, fun run hrun => ?_, fun hturn hcur => ?_, h.returned⟩
  · rw [List.length_append]
    exact Nat.le_add_right_of_le h.le
  · rw [htake]
    exact h.atRest
  · obtain ⟨hturn, hexec⟩ := h.executes run hrun
    obtain ⟨en', hen', hreq⟩ := hexec.entry
    refine ⟨hturn, ⟨en', hget en' hen', hreq⟩, hexec.contained, hexec.quiet, ?_, hexec.broke_iff⟩
    rw [htake]
    exact hexec.twin
  · obtain ⟨en', hen', hreq⟩ := h.other hturn hcur
    exact ⟨en', hget en' hen', hreq⟩

/-- **`Apply` is called** with an entry that is regular. -/
theorem Writes.begin (h : Writes pr drv e₀ d log n)
    (hlog : ∀ en ∈ log, RegularEntry pr drv en.data) (e : ℕ → ℕ → E) :
    Writes pr drv e₀ d log (n.begin pr drv log e) := by
  rw [Serving.begin]
  split
  swap
  · exact h
  rename_i en hturn hen
  have hcur : n.node.current = none := by
    rcases hcur : n.node.current with _ | run
    · rfl
    · exact absurd ((h.executes run hcur).1.symm.trans hturn) (by simp)
  obtain ⟨hrest, hdb⟩ := h.atRest hcur
  split
  swap
  · -- the entry is not executed
    rename_i hreq
    exact ⟨h.le, h.harmless, h.atRest,
      fun run hrun => absurd (hcur.symm.trans hrun) (by simp),
      fun _ _ => ⟨en, hen, hreq⟩, fun hret => absurd hret (by simp)⟩
  · rename_i req hreq
    have hcontained : Contained drv req := by
      rcases hlog en (List.mem_of_getElem? hen) with ⟨req', hdec, hreq', -⟩ | ⟨q, strong, hdec⟩
      · have hsome := decodeExec_eq_some_iff.mpr hdec
        rw [Option.some.inj (hreq.symm.trans hsome)]
        exact hreq'
      · rw [decodeExec_of_query hdec] at hreq
        exact absurd hreq (by simp)
    have htwin := hrest.twin
    have hidle : n.node.write.tx = none := hrest.idle
    have hstart : ∀ (conn : Conn D) (session : Session D), Twin ⟨n.node.db, conn⟩ session →
        (loopStart req (databaseAfter pr drv e₀ d (log.take n.applied))).session = session →
        Writes pr drv e₀ d log
          { n with
            node := { n.node with
              write := conn
              current := some ⟨req, .ofEntropy e, 0, req.transaction, [], false, false⟩ }
            turn := .inside } := by
      intro conn session hsession hloop
      refine ⟨h.le, h.harmless, fun hnone => absurd hnone (by simp), ?_,
        fun _ hnone => absurd hnone (by simp), fun hret => absurd hret (by simp)⟩
      intro run hrun
      obtain rfl := Option.some.inj hrun
      refine ⟨rfl, ⟨en, hen, hreq⟩, hcontained, ⟨e, rfl⟩, ⟨?_, rfl, rfl⟩, by simp⟩
      rw [← hloop] at hsession
      exact hsession
    have hconn : (Local.ofEntropy e).conn = none := rfl
    have hbegin : (Local.ofEntropy e).begin = none := rfl
    cases htx : req.transaction with
    | false =>
        simp only [nodeStep, Node.execStart, hcur, hconn, htx, Bool.false_eq_true, if_false]
        have hnode := hstart n.node.write _ htwin (by simp [loopStart, htx, hdb])
        rwa [htx] at hnode
    | true =>
        simp only [nodeStep, Node.execStart, hcur, hconn, htx, if_true, hbegin, beginTx, hidle]
        have hnode := hstart _ _ htwin.opened (by simp [loopStart, htx, hdb])
        rwa [htx] at hnode

/-- Where a loop starts, it goes on. -/
theorem loopStart_goesOn (req : Request) (d : D) :
    (loopStart req d).GoesOn req.transaction := ⟨rfl, rfl⟩

/-- One more statement of the reference. -/
theorem loopAt_succ {req : Request} {d : D} {j : ℕ} {stmt : Statement}
    (hstmt : req.statements[j]? = some stmt)
    (hgoes : (loopAt drv e₀ req d j).GoesOn req.transaction) :
    loopAt drv e₀ req d (j + 1) =
      (execIter drv ((Local.ofEntropy e₀).stmt j) stmt (loopAt drv e₀ req d j)).1 := by
  have hlen : (req.statements.take j).length = j := by
    rw [List.length_take]
    exact Nat.min_eq_left (List.getElem?_eq_some_iff.mp hstmt).1.le
  have hcut := ((execLoop_append [stmt] (req.statements.take j) 0 _
    (loopStart_goesOn req d)).1 hgoes)
  rw [loopAt, List.take_add_one, hstmt, Option.toList_some, hcut, hlen, Nat.zero_add,
    execLoop_cons]
  simp only [execLoop, ite_self, loopAt]

/-- The reference at the end of its loop: it was left, or there are no statements left. -/
theorem loopAt_end {req : Request} {d : D} {j : ℕ}
    (hend : ¬(loopAt drv e₀ req d j).GoesOn req.transaction ∨ req.statements.length ≤ j) :
    loopAt drv e₀ req d j =
      execLoop drv (.ofEntropy e₀) 0 req.statements (loopStart req d) := by
  rcases hend with hleft | hle
  · have hcut := (execLoop_append (req.statements.drop j) (req.statements.take j) 0 _
      (loopStart_goesOn req d)).2 hleft
    rw [List.take_append_drop] at hcut
    exact hcut.symm
  · rw [loopAt, List.take_of_length_le hle]

/-- The loop of a request that is being executed goes on where the reference does. -/
theorem Executes.goesOn_iff {run : Executing E} (h : Executes pr drv e₀ d log n run) :
    (loopAt drv e₀ run.req (databaseAfter pr drv e₀ d (log.take n.applied)) run.pos).GoesOn
      run.req.transaction ↔ run.broke = false := by
  rw [h.broke_iff, ExecState.GoesOn, ← h.twin.tx, ← h.twin.hung]

/-- **A statement runs**, and no lock of a query is in its way. -/
theorem Writes.execStmt (hcounts : drv.LawfulCounts) (h : Writes pr drv e₀ d log n)
    {waits : ℕ → ℕ → Bool} (hok : Undisturbing drv n.node (.execStmt waits)) :
    Writes pr drv e₀ d log { n with node := nodeStep drv n.node (.execStmt waits) } := by
  rcases hcur : n.node.current with _ | run
  · simpa only [nodeStep, Node.execStmt, hcur] using h
  obtain ⟨hturn, hexec⟩ := h.executes run hcur
  rcases hstmt : run.req.statements[run.pos]? with _ | stmt
  · simpa only [nodeStep, Node.execStmt, hcur, hstmt] using h
  cases hbroke : run.broke with
  | true => simpa only [nodeStep, Node.execStmt, hcur, hstmt, hbroke] using h
  | false =>
      obtain ⟨e, hloc⟩ := hexec.quiet
      have hlock : ∀ j, (((run.loc.stmt run.pos).lock j) <|> n.node.busy (waits j)) = none := by
        intro j
        rw [Node.busy_eq_none h.harmless fun k slot => hok j k slot, hloc]
        rfl
      obtain ⟨env, henv⟩ : ∃ env : Env E, env = { run.loc.stmt run.pos with
          lock := fun j => (run.loc.stmt run.pos).lock j <|> n.node.busy (waits j) } := ⟨_, rfl⟩
      have hdet := hexec.contained.determined stmt (List.mem_of_getElem? hstmt)
      have hfree : ∀ j, env.lock j = none := by
        rw [henv]
        exact hlock
      have hfree' : ∀ j, ((Local.ofEntropy e₀).stmt run.pos).lock j = none := fun _ => rfl
      obtain ⟨hgo, htwin⟩ := execIter_twin hcounts hfree hfree' hdet hexec.twin
      have hgoes : ExecState.GoesOn run.req.transaction
          ⟨⟨n.node.db, n.node.write⟩, run.tx, run.results, run.hung⟩ := hexec.broke_iff.mp hbroke
      have hnext := @execIter_goesOn D E drv env stmt _ _ hgoes
      simp only [nodeStep, Node.execStmt, hcur, hstmt, hbroke, ← henv]
      rcases hp : execIter drv env stmt
        ⟨⟨n.node.db, n.node.write⟩, run.tx, run.results, run.hung⟩ with ⟨st, go⟩
      rw [hp] at hgo htwin hnext
      refine ⟨h.le, h.harmless, fun hnone => absurd hnone (by simp), ?_,
        fun _ hnone => absurd hnone (by simp), h.returned⟩
      intro run' hrun'
      obtain rfl := Option.some.inj hrun'
      refine ⟨hturn, hexec.entry, hexec.contained, ⟨e, hloc⟩, ?_, ?_⟩
      · have hsucc := loopAt_succ hstmt (hexec.goesOn_iff.mpr hbroke)
        simp only [hsucc]
        exact htwin
      · cases go with
        | true => exact iff_of_true rfl hnext
        | false => exact iff_of_false (by simp) hnext

/-- What is left of a loop that is not stuck returns. -/
theorem execFinish_ret (loc : Local E) (st : ExecState D) (h : st.hung = false) :
    ∃ results err, (execFinish loc st).2 = .ret (results, err) := by
  rw [execFinish, h]
  simp only [Bool.false_eq_true, if_false]
  split <;> exact ⟨_, _, rfl⟩

/-- **A request comes to its end**: the connection is at rest, and the database is what the
reference makes of it. -/
theorem Executes.finish (hcounts : drv.LawfulCounts) {run : Executing E}
    (h : Executes pr drv e₀ d log n run)
    (hend : run.broke = true ∨ run.req.statements.length ≤ run.pos) (hhung : run.hung = false)
    (loc : Local E) (hcommit : loc.commit = none) :
    ∃ s' results err,
      execFinish loc ⟨⟨n.node.db, n.node.write⟩, run.tx, run.results, run.hung⟩ =
          (s', .ret (results, err)) ∧
        AtRest s' ∧
        s'.db = requestEffect drv e₀ (databaseAfter pr drv e₀ d (log.take n.applied)) run.req := by
  have hsame : loc.commit = (Local.ofEntropy e₀).commit := hcommit
  have htwin := execFinish_twin hsame h.twin
  have hloop := loopAt_end (hend.imp_left fun hbroke hgoes =>
    absurd (hbroke.symm.trans (h.goesOn_iff.mp hgoes)) (by simp))
  have hruns := h.twin.hung.symm.trans hhung
  rw [hloop] at htwin hruns
  -- the reference returns, and gives its connection back at rest
  obtain ⟨results', err', hret'⟩ := execFinish_ret (.ofEntropy e₀) _ hruns
  rw [← requestEffect_eq] at htwin hret'
  obtain ⟨hrest', -⟩ := exec_contained hcounts h.contained
    (s := ⟨_, .fresh false⟩) ⟨rfl, rfl, 0, 0, rfl⟩ e₀ (Prod.ext rfl hret')
  obtain ⟨results, err, hret⟩ :=
    execFinish_ret loc ⟨⟨n.node.db, n.node.write⟩, run.tx, run.results, run.hung⟩ hhung
  exact ⟨_, results, err, Prod.ext rfl hret, AtRest.of_twin htwin hrest', htwin.db⟩

/-- The entry has taken effect. -/
theorem Writes.advance (h : Writes pr drv e₀ d log n) {en : LogEntry} {node : Node D E}
    (hen : log[n.applied]? = some en) (hslots : node.slots = n.node.slots)
    (hcur : node.current = none) (hrest : AtRest ⟨node.db, node.write⟩)
    (hdb : node.db = entryEffect pr drv e₀ (databaseAfter pr drv e₀ d (log.take n.applied)) en) :
    Writes pr drv e₀ d log
      { n with node := node, applied := n.applied + 1, turn := .returned } := by
  refine ⟨(List.getElem?_eq_some_iff.mp hen).1, ?_, fun _ => ⟨hrest, ?_⟩,
    fun run hrun => absurd (hcur.symm.trans hrun) (by simp),
    fun hinside => absurd hinside (by simp), fun _ => Nat.succ_pos _⟩
  · rw [hslots]
    exact h.harmless
  · rw [databaseAfter_succ hen]
    exact hdb

/-- **`applyAction` returns**, and the entry has taken effect. -/
theorem Writes.finish (hcounts : drv.LawfulCounts) (h : Writes pr drv e₀ d log n)
    {waits : ℕ → Bool} (hok : Undisturbing drv n.node (.execEnd waits)) :
    Writes pr drv e₀ d log (n.finish drv waits) := by
  rw [Serving.finish]
  split
  swap
  · exact h
  rename_i hturn
  rcases hcur : n.node.current with _ | run
  · -- an entry that is not executed
    obtain ⟨en, hen, hreq⟩ := h.other hturn hcur
    obtain ⟨hrest, hdb⟩ := h.atRest hcur
    simp only [nodeStep, Node.execEnd, hcur]
    refine h.advance hen rfl hcur hrest ?_
    simp only [entryEffect, hreq]
    exact hdb
  obtain ⟨-, hexec⟩ := h.executes run hcur
  by_cases hend : run.broke = true ∨ run.req.statements.length ≤ run.pos
  swap
  · simpa only [nodeStep, Node.execEnd, hcur, if_neg hend] using h
  obtain ⟨en, hen, hreq⟩ := hexec.entry
  obtain ⟨e, hloc⟩ := hexec.quiet
  have hcommit : (run.loc.commit <|> n.node.busy waits) = none := by
    rw [Node.busy_eq_none h.harmless fun k slot => hok k slot, hloc]
    rfl
  simp only [nodeStep, Node.execEnd, hcur, if_pos hend, hcommit]
  cases hhung : run.hung with
  | true => simpa only [execFinish, if_true, hcur] using h
  | false =>
      obtain ⟨s', results, err, hret, hrest, hdb⟩ :=
        hexec.finish hcounts hend hhung { run.loc with commit := none } rfl
      rw [hhung] at hret
      simp only [hret, Node.finished]
      refine h.advance hen rfl rfl hrest ?_
      simp only [entryEffect, hreq]
      exact hdb

/-- A step of a query leaves the writer alone. -/
theorem Writes.query (h : Writes pr drv e₀ d log n) {i : NodeInput E}
    (hok : Undisturbing drv n.node i) (hquery : i.isExec = false) :
    Writes pr drv e₀ d log { n with node := nodeStep drv n.node i } := by
  obtain ⟨halone, hharmless⟩ := nodeStep_hidden h.harmless hok hquery
  obtain ⟨hdb, hwrite, -, hcur, -⟩ := Node.mk.inj halone
  refine ⟨h.le, hharmless, ?_, fun run hrun => ?_, ?_, h.returned⟩
  · simp only [hdb, hwrite, hcur]
    exact h.atRest
  · rw [hcur] at hrun
    obtain ⟨hturn, hexec⟩ := h.executes run hrun
    refine ⟨hturn, hexec.entry, hexec.contained, hexec.quiet, ?_, hexec.broke_iff⟩
    simp only [hdb, hwrite]
    exact hexec.twin
  · simp only [hcur]
    exact h.other

/-- **Every undisturbed step** of a node leaves its writer as it should be. -/
theorem Writes.step (hcounts : drv.LawfulCounts) (h : Writes pr drv e₀ d log n)
    (hlog : ∀ en ∈ log, RegularEntry pr drv en.data) {i : ServeInput E}
    (hok : n.Undisturbed drv i) : Writes pr drv e₀ d log (n.step pr drv log i) := by
  cases i with
  | apply e => exact h.begin hlog e
  | execStmt waits => exact h.execStmt hcounts hok
  | finish waits => exact h.finish hcounts hok
  | record =>
      rw [Serving.step, Serving.record]
      split
      · rename_i en hturn hen
        exact ⟨h.le, h.harmless, h.atRest,
          fun run hrun => absurd ((h.executes run hrun).1.symm.trans hturn) (by simp),
          fun hinside => absurd hinside (by simp), fun hret => absurd hret (by simp)⟩
      · exact h
  | query i =>
      rw [Serving.step]
      split
      · exact h
      · exact h.query hok (Bool.eq_false_iff.mpr ‹_›)

/-- A request begins before its first statement. -/
theorem Node.execStart_pos (s : Node D E) (req : Request) (loc : Local E) :
    (s.execStart req loc).pos = s.pos := by
  rcases hcur : s.current with _ | run
  · have hpos : s.pos = 0 := by rw [Node.pos, hcur]
    rw [hpos, Node.execStart, hcur]
    simp only
    split
    · rfl
    split
    · split <;> rfl
    · rfl
  · rw [Node.execStart, hcur]

/-- A request goes on to its next statement, or stays where it is. -/
theorem Node.pos_le_execStmt (s : Node D E) (waits : ℕ → ℕ → Bool) :
    s.pos ≤ (s.execStmt drv waits).pos := by
  rcases hcur : s.current with _ | run
  · rw [Node.execStmt, hcur]
  · have hpos : s.pos = run.pos := by rw [Node.pos, hcur]
    rw [Node.execStmt, hcur]
    simp only
    split
    · rw [hpos]
      exact Nat.le_succ _
    · exact le_rfl

/-- **A node never goes back.** -/
theorem Writes.cut_le_step (h : Writes pr drv e₀ d log n) {i : ServeInput E}
    (hok : n.Undisturbed drv i) : n.cut ≤ (n.step pr drv log i).cut := by
  cases i with
  | apply e =>
      rw [Serving.step, Serving.begin]
      split
      · split
        · simp only [Serving.cut, nodeStep, Node.execStart_pos, le_refl]
        · exact le_rfl
      · exact le_rfl
  | execStmt waits => exact LogCut.mk_le_mk.mpr (.inr ⟨rfl, n.node.pos_le_execStmt waits⟩)
  | finish waits =>
      rw [Serving.step, Serving.finish]
      split
      · simp only
        split
        · exact LogCut.mk_le_mk.mpr (.inl (Nat.lt_succ_self _))
        · exact le_rfl
      · exact le_rfl
  | record =>
      rw [Serving.step, Serving.record]
      split <;> exact le_rfl
  | query i =>
      rw [Serving.step]
      split
      · exact le_rfl
      · obtain ⟨halone, -⟩ := nodeStep_hidden h.harmless hok (Bool.eq_false_iff.mpr ‹_›)
        obtain ⟨-, -, -, hcur, -⟩ := Node.mk.inj halone
        simp only [Serving.cut, Node.pos, hcur, le_refl]

end Writer

end DistSql
