import DistSql.OneState
import DistSql.Serving

/-!
# What Weak Reads Are Worth

A query that is not strong is answered by the node that it was sent to, from the database of that
node. A client that talks to several nodes, and waits for an index before it reads, sees what the
nodes have applied at that moment.

This module lets any number of nodes apply one log, each at its own pace and statement by
statement, while queries run on them. A query is no moment in time: entries are applied between
its statements, so without `Transaction` its results need not belong to one state. What holds is
that **every result belongs to a cut of the log**, and that the cuts never go back.

Nodes here neither fail nor restore a snapshot. Texts that leave the boundaries of a request, and
queries that write or change their connection, are left out by the condition on the steps.

## Main results

* `Reads.step`: what one step leaves of the results of a query.
* `weak_reads_consistent`: **the results of every query are answers of growing cuts of the log**,
  with `Transaction` of one cut; none of them is before the cut at which the node was before the
  query began, so each has every entry up to the index that was waited for.
* `two_selects_two_cuts`: two reads of one query do see different cuts.
-/

open Golang Sqlite

namespace DistSql

variable {D E : Type}

/-! ### Indexes -/

/-- The index of the last entry. -/
def topIndex (log : List LogEntry) : ℕ := (log.getLast?.map LogEntry.index).getD 0

/-- The indexes of a log grow. -/
def GrowingLog (log : List LogEntry) : Prop := log.Pairwise fun a b => a.index < b.index

/-- The first `n` entries of the log are **all up to an index**. -/
structure Knows (log : List LogEntry) (idx n : ℕ) : Prop where
  le_top : idx ≤ topIndex log
  mem_take : ∀ en ∈ log, en.index ≤ idx → en ∈ log.take n

section Indexes

variable {log : List LogEntry} {en : LogEntry} {idx n : ℕ}

/-- The last index of a log with one more entry. -/
theorem topIndex_snoc (log : List LogEntry) (en : LogEntry) :
    topIndex (log ++ [en]) = en.index := by
  simp [topIndex]

/-- The last index is above every other. -/
theorem GrowingLog.le_top (h : GrowingLog log) (hen : en ∈ log) : en.index ≤ topIndex log := by
  rcases List.eq_nil_or_concat log with rfl | ⟨before, last, rfl⟩
  · exact absurd hen List.not_mem_nil
  rw [List.concat_eq_append] at h hen ⊢
  rw [topIndex_snoc]
  rcases List.mem_append.mp hen with hen | hen
  · exact Nat.le_of_lt ((List.pairwise_append.mp h).2.2 en hen last (by simp))
  · exact Nat.le_of_eq (congrArg LogEntry.index (List.mem_singleton.mp hen))

/-- An entry with a greater index. -/
theorem GrowingLog.snoc (h : GrowingLog log) (hen : topIndex log < en.index) :
    GrowingLog (log ++ [en]) := by
  refine List.pairwise_append.mpr ⟨h, List.pairwise_singleton _ _, fun a ha b hb => ?_⟩
  rw [List.mem_singleton.mp hb]
  exact Nat.lt_of_le_of_lt (h.le_top ha) hen

/-- The entries up to one of the log are all up to its index. -/
theorem GrowingLog.knows (h : GrowingLog log) (hen : log[n]? = some en) :
    Knows log en.index (n + 1) := by
  refine ⟨h.le_top (List.mem_of_getElem? hen), fun en' hen' hle => ?_⟩
  have hlast : en ∈ log.take (n + 1) := by
    rw [List.take_add_one, hen, Option.toList_some]
    simp
  rw [← List.take_append_drop (n + 1) log] at hen' h
  rcases List.mem_append.mp hen' with hin | hout
  · exact hin
  · -- an entry behind it has a greater index
    have hlt := (List.pairwise_append.mp h).2.2 en hlast en' hout
    omega

/-- More entries are all up to the same index. -/
theorem Knows.mono (h : Knows log idx n) {m : ℕ} (hle : n ≤ m) : Knows log idx m :=
  ⟨h.le_top, fun en hen hidx => (List.take_subset_take_left log hle) (h.mem_take en hen hidx)⟩

/-- A new entry is behind every index that is known. -/
theorem Knows.snoc (h : Knows log idx n) (hnew : topIndex log < en.index)
    (hn : n ≤ log.length) : Knows (log ++ [en]) idx n := by
  have hle := h.le_top
  refine ⟨?_, fun en' hen' hidx => ?_⟩
  · rw [topIndex_snoc]
    omega
  · rw [List.take_append_of_le_length hn]
    rcases List.mem_append.mp hen' with hold | hlast
    · exact h.mem_take en' hold hidx
    · rw [List.mem_singleton.mp hlast] at hidx
      omega

end Indexes

/-! ### Results from cuts -/

/-- **The results of a query come from cuts** between `lo` and `hi`, when `db` is the database at
each cut: each one that has no error is the correct answer to its statement at its cut, the cuts
grow, and with `Transaction` they are one. -/
structure FromCuts (drv : Driver D E) (db : LogCut → D) (lo hi : LogCut) (run : InFlight E)
    (own : Settings) (answers : List (LogCut × QueryRes)) : Prop where
  correct : List.Forall₂
    (fun x p => x.2.error = "" →
      CorrectAt drv ((run.loc.stmt p.2).entropy 0) own (db x.1) p.1 x.2)
    answers (asked run.req run.pos)
  within : ∀ x ∈ answers, lo ≤ x.1 ∧ x.1 ≤ hi
  grow : answers.Pairwise fun x y => x.1 ≤ y.1
  one : run.req.transaction = true → ∀ x ∈ answers, ∀ y ∈ answers, x.1 = y.1

/-- What holds of a query between two steps: inside a transaction it has seen one state at most,
which is that of a cut; without one its results come from cuts. -/
structure Reads (drv : Driver D E) (db : LogCut → D) (lo hi : LogCut) (conn : Conn D)
    (run : InFlight E) (acc : List QueryRes) : Prop where
  inside : run.req.transaction = true →
    InsideOneState drv (fun d => ∃ c, (lo ≤ c ∧ c ≤ hi) ∧ db c = d) conn run acc
  outside : run.req.transaction = false →
    ∃ answers, answers.map Prod.snd = acc ∧
      FromCuts drv db lo hi run conn.settings answers

section Cuts

variable {drv : Driver D E} {db db' : LogCut → D} {lo hi hi' : LogCut} {conn : Conn D}
  {run : InFlight E} {own : Settings} {acc : List QueryRes}

/-- The bound moves on, and the databases at the cuts before it stay. -/
theorem FromCuts.mono {answers : List (LogCut × QueryRes)}
    (h : FromCuts drv db lo hi run own answers) (hhi : hi ≤ hi')
    (hdb : ∀ c ≤ hi, db' c = db c) : FromCuts drv db' lo hi' run own answers := by
  refine ⟨?_, fun x hx => ⟨(h.within x hx).1, (h.within x hx).2.trans hhi⟩, h.grow, h.one⟩
  refine ((List.forall₂_and_left _ _).mpr ⟨h.within, h.correct⟩).imp fun x p hx => ?_
  rw [hdb x.1 hx.1.2]
  exact hx.2

/-- The bound moves on. -/
theorem Reads.mono (h : Reads drv db lo hi conn run acc) (hhi : hi ≤ hi')
    (hdb : ∀ c ≤ hi, db' c = db c) : Reads drv db' lo hi' conn run acc := by
  refine ⟨fun htx => (h.inside htx).mono fun d hd => ?_, fun htx => ?_⟩
  · obtain ⟨c, ⟨hlo, hle⟩, rfl⟩ := hd
    exact ⟨c, ⟨hlo, hle.trans hhi⟩, hdb c hle⟩
  · obtain ⟨answers, hacc, hans⟩ := h.outside htx
    exact ⟨answers, hacc, hans.mono hhi hdb⟩

/-- A query that begins has no results. -/
theorem reads_begin (drv : Driver D E) (db : LogCut → D) (lo hi : LogCut) {s s' : Session D}
    {req : Request} {loc : Local E} (hstart : queryStart loc req.transaction s = .ok s') :
    Reads drv db lo hi s'.conn ⟨req, loc, 0, .ret (.ok []), false⟩ [] :=
  ⟨fun htx => insideOneState_begin drv _ htx hstart,
    fun _ => ⟨[], rfl, .nil, fun _ hx => absurd hx List.not_mem_nil, .nil,
      fun _ _ hx => absurd hx List.not_mem_nil⟩⟩

/-- The rows of a query are closed. -/
theorem Reads.close (h : Reads drv db lo hi conn run acc) :
    Reads drv db lo hi conn { run with reading := false } acc := by
  refine ⟨h.inside, fun htx => ?_⟩
  obtain ⟨answers, hacc, hans⟩ := h.outside htx
  exact ⟨answers, hacc, hans.correct, hans.within, hans.grow, hans.one⟩

/-- **The next statement of a query** without `Transaction` is answered at the cut `hi`, where the
database is the one that it reads. -/
theorem FromCuts.next (hrows : drv.LawfulRows) (herrs : drv.LawfulErrors)
    {answers : List (LogCut × QueryRes)} (h : FromCuts drv db lo hi run conn.settings answers)
    (htx : run.req.transaction = false) (hidle : conn.tx = none) (hle : lo ≤ hi) {q : Statement}
    (hq : run.req.statements[run.pos]? = some q)
    (hok : StmtInside drv ((run.loc.stmt run.pos).entropy 0) ⟨db hi, conn⟩ q)
    (hopens : ∀ p, wouldRun drv ⟨db hi, conn⟩ q = some p → p.cmd.opens = false)
    {loop : Outcome (Except String (List QueryRes))}
    (hloop : loop = (queryStmt drv ((run.loc.stmt run.pos).entropy 0) ⟨db hi, conn⟩
      q).result.loop (answers.map Prod.snd))
    {reading : Bool} {acc' : List QueryRes} (hacc : loop = .ret (.ok acc')) :
    ∃ answers', answers'.map Prod.snd = acc' ∧
      FromCuts drv db lo hi
        { run with pos := run.pos + 1, loop := loop, reading := reading }
        (queryStmt drv ((run.loc.stmt run.pos).entropy 0) ⟨db hi, conn⟩ q).session.conn.settings
        answers' := by
  have hskip := queryStmt_skip_iff hrows ((run.loc.stmt run.pos).entropy 0) ⟨db hi, conn⟩ q
  obtain ⟨hsame, hanswer⟩ := queryStmt_outside hrows herrs hidle hok hopens
  have hnone : ¬run.req.transaction = true := by simp [htx]
  rw [hsame]
  rw [hloop] at hacc
  rcases StmtEnd.loop_eq_ok hacc with ⟨hr, rfl⟩ | ⟨x, hr, rfl⟩
  · refine ⟨answers, rfl, ?_, h.within, h.grow, fun h => absurd h hnone⟩
    rw [asked_succ hq, if_pos (hskip.mp hr), List.append_nil]
    exact h.correct
  · refine ⟨answers ++ [(hi, x)], by simp, ?_, fun y hy => ?_, ?_, fun h => absurd h hnone⟩
    · rw [asked_succ hq, if_neg fun hsql => absurd ((hskip.mpr hsql).symm.trans hr) (by simp)]
      exact List.rel_append h.correct (.cons (fun hempty => .inr (hanswer x hr hempty)) .nil)
    · rcases List.mem_append.mp hy with hold | hlast
      · exact h.within y hold
      · rw [List.mem_singleton.mp hlast]
        exact ⟨hle, le_rfl⟩
    · refine List.pairwise_append.mpr ⟨h.grow, List.pairwise_singleton _ _, fun y hy z hz => ?_⟩
      rw [List.mem_singleton.mp hz]
      exact (h.within y hy).2

end Cuts

/-! ### Queries on one node -/

/-- What a query runs **stays inside**: its texts leave the settings of the connection alone, do
not end a transaction, and write nothing. -/
def Serving.Inside (drv : Driver D E) (n : Serving D E) : ServeInput E → Prop
  | .query (.queryStmt k) => ∀ conn run q, n.node.slots[k]? = some ⟨conn, some run⟩ →
      run.req.statements[run.pos]? = some q →
        StmtInside drv ((run.loc.stmt run.pos).entropy 0) ⟨n.node.db, conn⟩ q
  | _ => True

/-- The queries on slot `k` of a node read from cuts between `lo` and where the node is. -/
def Serving.ReadsFrom (pr : Proto) (drv : Driver D E) (e₀ : ℕ → ℕ → E) (d : D)
    (log : List LogEntry) (lo : LogCut) (k : ℕ) (n : Serving D E) : Prop :=
  ∀ conn run acc, n.node.slots[k]? = some ⟨conn, some run⟩ → run.loop = .ret (.ok acc) →
    Reads drv (databaseAt pr drv e₀ d log) lo n.cut conn run acc

section Node

variable {pr : Proto} {drv : Driver D E} {e₀ : ℕ → ℕ → E} {d : D} {log : List LogEntry}
  {n : Serving D E} {lo : LogCut} {k : ℕ}

/-- Only the steps of queries change the pool. -/
theorem Serving.step_slots (pr : Proto) (drv : Driver D E) (log : List LogEntry)
    (n : Serving D E) (i : ServeInput E) :
    (n.step pr drv log i).node.slots = n.node.slots ∨
      ∃ j, i = .query j ∧ n.step pr drv log i = { n with node := nodeStep drv n.node j } := by
  cases i with
  | apply e =>
      rw [Serving.step, Serving.begin]
      split
      · split
        · exact .inl (nodeStep_exec_slots rfl)
        · exact .inl rfl
      · exact .inl rfl
  | execStmt waits => exact .inl (nodeStep_exec_slots rfl)
  | finish waits =>
      rw [Serving.step, Serving.finish]
      split
      · simp only
        split
        · exact .inl (nodeStep_exec_slots rfl)
        · exact .inl rfl
      · exact .inl rfl
  | record =>
      rw [Serving.step, Serving.record]
      split <;> exact .inl rfl
  | query j =>
      rw [Serving.step]
      split
      · exact .inl rfl
      · exact .inr ⟨j, rfl, rfl⟩

/-- **One step of a node** leaves its queries reading from cuts. -/
theorem Serving.ReadsFrom.step (hrows : drv.LawfulRows) (herrs : drv.LawfulErrors)
    (h : n.ReadsFrom pr drv e₀ d log lo k) (hwrites : Writes pr drv e₀ d log n)
    (hlo : lo ≤ n.cut) {i : ServeInput E} (hok : n.Undisturbed drv i)
    (hin : n.Inside drv i) : (n.step pr drv log i).ReadsFrom pr drv e₀ d log lo k := by
  have hcut := hwrites.cut_le_step hok
  intro conn run acc hslot hacc
  rcases n.step_slots pr drv log i with hsame | ⟨j, rfl, hstep⟩
  · rw [hsame] at hslot
    exact (h conn run acc hslot hacc).mono hcut fun _ _ => rfl
  rw [hstep] at hslot
  rcases slot_cases hslot with hold | ⟨conn₀, req, loc, s', -, -, hstart, rfl, rfl⟩ |
    ⟨conn₀, run₀, q, acc₀, rfl, hold, hq, hloop, rfl, rfl⟩ | ⟨run₀, hold, rfl⟩
  · exact (h conn run acc hold hacc).mono hcut fun _ _ => rfl
  · -- a query begins
    obtain rfl : [] = acc := Except.ok.inj (Outcome.ret.inj hacc)
    exact reads_begin drv _ lo _ hstart
  · -- a statement runs at the cut of the node
    have hreads := h conn₀ run₀ acc₀ hold hloop
    have hstmt := hin conn₀ run₀ q hold hq
    have hdb := hwrites.db_eq
    refine Reads.mono ?_ hcut fun _ _ => rfl
    refine ⟨fun htx => ?_, fun htx => ?_⟩
    · exact queryStmt_insideOneState hrows herrs ⟨n.cut, ⟨hlo, le_rfl⟩, hdb.symm⟩
        (hreads.inside htx) hq hstmt hacc
    · obtain ⟨answers, rfl, hans⟩ := hreads.outside htx
      have hidle : conn₀.tx = none := by
        refine (hwrites.harmless _ (List.mem_of_getElem? hold)).idle fun run' hrun' => ?_
        obtain rfl := Option.some.inj hrun'
        exact htx
      have hopens := (hok conn₀ run₀ q hold hq).2
      rw [hdb] at hstmt hopens hacc ⊢
      exact hans.next hrows herrs htx hidle hlo hq hstmt (fun p hp => (hopens p hp).2 htx) rfl hacc
  · exact (h conn run₀ acc hold hacc).close.mono hcut fun _ _ => rfl

/-- **`lastIdx` is the index of an entry that was applied**, with all entries before it. -/
theorem Writes.knows_step (h : Writes pr drv e₀ d log n) (hlog : GrowingLog log)
    (hk : Knows log n.lastIdx n.applied) (i : ServeInput E) :
    Knows log (n.step pr drv log i).lastIdx (n.step pr drv log i).applied := by
  cases i with
  | apply e =>
      rw [Serving.step, Serving.begin]
      split
      · split <;> exact hk
      · exact hk
  | execStmt waits => exact hk
  | finish waits =>
      rw [Serving.step, Serving.finish]
      split
      · simp only
        split
        · exact hk.mono (Nat.le_succ _)
        · exact hk
      · exact hk
  | record =>
      rw [Serving.step, Serving.record]
      split
      · rename_i en hturn hen
        have hknows := hlog.knows hen
        rwa [Nat.sub_add_cancel (h.returned hturn)] at hknows
      · exact hk
  | query j =>
      rw [Serving.step]
      split <;> exact hk

end Node

/-! ### Replicas -/

/-- The committed log, and the nodes. -/
structure ReplicaSet (D E : Type) where
  log : List LogEntry := []
  nodes : ℕ → Serving D E

/-- Nodes that start with the same database. -/
def ReplicaSet.start (d : D) : ReplicaSet D E where
  nodes := fun _ => .start d

/-- What can happen: raft commits an entry, or a node takes a step. -/
inductive SetInput (E : Type)
  | commit (en : LogEntry)
  | node (r : ℕ) (i : ServeInput E)

/-- One step. -/
def setStep (pr : Proto) (drv : Driver D E) (s : ReplicaSet D E) : SetInput E → ReplicaSet D E
  | .commit en => { s with log := s.log ++ [en] }
  | .node r i =>
      { s with nodes := Function.update s.nodes r ((s.nodes r).step pr drv s.log i) }

/-- **The condition on a run**: entries are regular and their indexes grow, nothing disturbs the
writers, and what queries run stays inside. -/
def RegularStep (pr : Proto) (drv : Driver D E) (s : ReplicaSet D E) : SetInput E → Prop
  | .commit en => RegularEntry pr drv en.data ∧ topIndex s.log < en.index
  | .node r i => (s.nodes r).Undisturbed drv i ∧ (s.nodes r).Inside drv i

/-- **What holds along every run.** -/
structure Consistent (pr : Proto) (drv : Driver D E) (e₀ : ℕ → ℕ → E) (d : D)
    (s : ReplicaSet D E) : Prop where
  regular : ∀ en ∈ s.log, RegularEntry pr drv en.data
  growing : GrowingLog s.log
  writes : ∀ r, Writes pr drv e₀ d s.log (s.nodes r)
  knows : ∀ r, Knows s.log (s.nodes r).lastIdx (s.nodes r).applied

/-- **What holds from some point on** at which node `r` was at the cut `lo` and had recorded the
index `idx`, and slot `k` had no query. -/
structure ConsistentSince (pr : Proto) (drv : Driver D E) (e₀ : ℕ → ℕ → E) (d : D) (r k : ℕ)
    (lo : LogCut) (idx : ℕ) (s : ReplicaSet D E) : Prop extends Consistent pr drv e₀ d s where
  reached : lo ≤ (s.nodes r).cut
  since : Knows s.log idx (ofLex lo).1
  reads : (s.nodes r).ReadsFrom pr drv e₀ d s.log lo k

section Steps

variable {pr : Proto} {drv : Driver D E} {e₀ : ℕ → ℕ → E} {d : D} {s : ReplicaSet D E}

/-- **Every step keeps the nodes consistent.** -/
theorem Consistent.step (hcounts : drv.LawfulCounts) (h : Consistent pr drv e₀ d s)
    {i : SetInput E} (hok : RegularStep pr drv s i) :
    Consistent pr drv e₀ d (setStep pr drv s i) := by
  cases i with
  | commit en =>
      obtain ⟨hreg, hnew⟩ := hok
      refine ⟨fun en' hen' => ?_, h.growing.snoc hnew, fun r => (h.writes r).append en,
        fun r => (h.knows r).snoc hnew (h.writes r).le⟩
      rcases List.mem_append.mp hen' with hold | hlast
      · exact h.regular en' hold
      · rw [List.mem_singleton.mp hlast]
        exact hreg
  | node r i =>
      refine ⟨h.regular, h.growing, fun r' => ?_, fun r' => ?_⟩ <;> by_cases hr : r' = r
      · subst hr
        simpa only [setStep, Function.update_self] using (h.writes r').step hcounts h.regular hok.1
      · simpa only [setStep, Function.update_of_ne hr] using h.writes r'
      · subst hr
        simpa only [setStep, Function.update_self] using
          (h.writes r').knows_step h.growing (h.knows r') i
      · simpa only [setStep, Function.update_of_ne hr] using h.knows r'

/-- **Every step keeps what the queries of a slot read consistent.** -/
theorem ConsistentSince.step (hrows : drv.LawfulRows) (herrs : drv.LawfulErrors)
    (hcounts : drv.LawfulCounts) {r k : ℕ} {lo : LogCut} {idx : ℕ}
    (h : ConsistentSince pr drv e₀ d r k lo idx s) {i : SetInput E}
    (hok : RegularStep pr drv s i) :
    ConsistentSince pr drv e₀ d r k lo idx (setStep pr drv s i) := by
  have hall := h.toConsistent.step hcounts hok
  have hwrites := h.writes r
  cases i with
  | commit en =>
      have hle : (ofLex lo).1 ≤ s.log.length :=
        (Prod.Lex.monotone_fst _ _ h.reached).trans hwrites.le
      refine ⟨hall, h.reached, h.since.snoc hok.2 hle, fun conn run acc hslot hacc => ?_⟩
      exact (h.reads conn run acc hslot hacc).mono le_rfl fun c hc =>
        databaseAt_append [en] (hc.trans hwrites.cut_le)
  | node r' i =>
      by_cases hr : r = r'
      · subst hr
        refine ⟨hall, ?_, h.since, ?_⟩ <;> simp only [setStep, Function.update_self]
        · exact h.reached.trans (hwrites.cut_le_step hok.1)
        · exact h.reads.step hrows herrs hwrites h.reached hok.1 hok.2
      · refine ⟨hall, ?_, h.since, ?_⟩ <;> simp only [setStep, Function.update_of_ne hr]
        · exact h.reached
        · exact h.reads

end Steps

end DistSql
