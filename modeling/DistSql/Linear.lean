import DistSql.Fsm
import DistSql.Machine
import DistSql.Wire
import Mathlib.Data.List.Nodup

/-!
# Strong Reads and Writes Are Linearizable

Any number of clients call `Consensus.Exec` and the strong path of `Consensus.Query` on
the leader. A call encodes its request and proposes it; raft commits proposals in some
order, the leader's own state machine applies what is committed, in order, and the
future of a proposal resolves with what applying it returned. A call may also come back
with an error of raft, and its proposal may be committed nevertheless.

The model of the leader (`Leader`, `leaderStep`) is a machine whose inputs are the
decisions of the clients and of raft, so "every interleaving" is "every list of inputs".
It keeps a history of invocations and responses.

**What explains the responses** is the log. A request that returned a response has its
entry in the applied part of the log, and answers as the engine does when it executes
the requests of the log one after the other. Requests that returned no response (yet)
may have taken effect too, so the order has to contain them: an order of the answered
requests alone explains nothing (`pending_write_is_visible`).

## Main results

* `leaderStep_inv`: what every input preserves.
* `strong_reads_linearizable`: the order of the log explains every history.
* `pending_write_is_visible`: the order has to contain requests without a response.
-/

open Golang Sqlite

namespace DistSql

variable {D E : Type}

/-! ### Sequential executions -/

/-- What a call returns to its client. -/
inductive Answer
  | exec (res : List ExecRes) (error : Option String)
  | query (res : List QueryRes) (error : Option String)
  deriving DecidableEq, Repr

/-- The sequential execution of one request by the engine itself. -/
def Engine.serve (drv : Driver D E) (loc : Local E) (eng : Engine D) :
    Proposal → Engine D × Outcome Answer
  | .exec req =>
      let p := eng.exec drv loc req
      (p.1, p.2 >>= fun r => .ret (.exec r.1 r.2))
  | .query q =>
      let p := eng.query drv loc q.request
      (p.1, p.2 >>= fun r => .ret (.query r.1 r.2))

/-- The engine after the requests of a list, one after the other. Each request brings
its number, by which `env` gives the local circumstances of its execution. -/
def serveAll (drv : Driver D E) (env : ℕ → Local E) (eng : Engine D)
    (order : List (ℕ × Proposal)) : Engine D :=
  Machine.run (fun eng p => (eng.serve drv (env p.1) p.2).1) eng order

/-- The history of a leader: requests are numbered as they are invoked. -/
inductive Event
  | invoke (id : ℕ) (p : Proposal)
  | respond (id : ℕ) (a : Answer)
  | fail (id : ℕ) (msg : String)
  deriving DecidableEq, Repr

/-- **An order explains a history**: it consists of invoked requests, without
repetition, among them every request that returned a response; each response is what
the sequential execution in this order answers; and a request that was invoked after
another one had returned its response comes later in the order. -/
structure Explains (drv : Driver D E) (env : ℕ → Local E) (eng₀ : Engine D)
    (hist : List Event) (order : List (ℕ × Proposal)) : Prop where
  nodup : (order.map Prod.fst).Nodup
  invoked : ∀ id p, (id, p) ∈ order → .invoke id p ∈ hist
  responded : ∀ id a, .respond id a ∈ hist → id ∈ order.map Prod.fst
  legal : ∀ k id p a, order[k]? = some (id, p) → .respond id a ∈ hist →
    ((serveAll drv env eng₀ (order.take k)).serve drv (env id) p).2 = .ret a
  realTime : ∀ (i j : ℕ) a ans b p, i < j → hist[i]? = some (Event.respond a ans) →
    hist[j]? = some (Event.invoke b p) → ∀ (k l : ℕ) pa pb, order[k]? = some (a, pa) →
      order[l]? = some (b, pb) → k < l

/-! ### The leader -/

/-- A committed entry, with the number and the request of the call that proposed it. -/
structure Entry where
  id : ℕ
  request : Proposal
  data : List UInt8

/-- What became of the goroutine that applies entries. -/
inductive Status
  | running
  | stuck
  | crashed
  deriving DecidableEq, Repr

/-- The leader: the engine of its state machine, the calls so far, the committed log,
what the applied entries returned, and the history. -/
structure Leader (D : Type) where
  eng : Engine D
  status : Status
  calls : List Proposal
  log : List Entry
  returned : List Response
  hist : List Event

/-- A leader that has not been called yet. -/
def Leader.init (eng : Engine D) : Leader D := ⟨eng, .running, [], [], [], []⟩

/-- The decisions of clients and raft: a call begins; raft commits the proposal of a
call; the state machine applies the next entry; the future of the entry at a position
of the log resolves; a call returns an error of raft. -/
inductive Input
  | invoke (p : Proposal)
  | commit (id : ℕ)
  | apply
  | resolve (k : ℕ)
  | fail (id : ℕ) (msg : String)

/-- The call has come back. -/
def cameBack (hist : List Event) (id : ℕ) : Bool :=
  hist.any fun
    | .respond j _ | .fail j _ => j == id
    | .invoke _ _ => false

/-- The end of a call whose future resolved: the type assertion of its kind. -/
def answer : Proposal → Response → Outcome Answer
  | .exec _, r => answerExec (.ok r) >>= fun p => .ret (.exec p.1 p.2)
  | .query _, r => answerQuery (.ok r) >>= fun p => .ret (.query p.1 p.2)

/-- The goroutine that applies entries takes the next one. A panic in it takes down the
whole process. -/
def Leader.applyNext (pr : Proto) (drv : Driver D E) (env : ℕ → Local E) (s : Leader D) :
    Leader D :=
  match s.log[s.returned.length]? with
  | none => s
  | some en =>
      match applyAction pr drv (env en.id) en.data s.eng with
      | (eng, .ret r) => { s with eng := eng, returned := s.returned ++ [r] }
      | (eng, .panic _) => { s with eng := eng, status := .crashed }
      | (eng, .hang) => { s with eng := eng, status := .stuck }

/-- The future of the entry at position `k` resolves, and its call returns. -/
def Leader.resolve (s : Leader D) (k : ℕ) : Leader D :=
  match s.log[k]?, s.returned[k]? with
  | some en, some r =>
      if cameBack s.hist en.id then s
      else
        match answer en.request r with
        | .ret a => { s with hist := s.hist ++ [.respond en.id a] }
        | _ => { s with status := .crashed }
  | _, _ => s

/-- Raft commits the proposal of a call, once. -/
def Leader.commit (pr : Proto) (s : Leader D) (id : ℕ) : Leader D :=
  match s.calls[id]? with
  | none => s
  | some p =>
      if id ∈ s.log.map Entry.id then s
      else
        match p.encode pr with
        | .error _ => s
        | .ok b => { s with log := s.log ++ [⟨id, p, b⟩] }

/-- One step of the leader. -/
def leaderStep (pr : Proto) (drv : Driver D E) (env : ℕ → Local E) (s : Leader D)
    (i : Input) : Leader D :=
  if s.status = .crashed then s
  else
    match i with
    | .invoke p =>
        { s with calls := s.calls ++ [p], hist := s.hist ++ [.invoke s.calls.length p] }
    | .commit id => s.commit pr id
    | .apply => if s.status = .running then s.applyNext pr drv env else s
    | .resolve k => s.resolve k
    | .fail id msg =>
        if id < s.calls.length ∧ cameBack s.hist id = false then
          { s with hist := s.hist ++ [.fail id msg] }
        else s

/-! ### The invariant -/

/-- The number and the request of an entry. -/
def Entry.key (en : Entry) : ℕ × Proposal := (en.id, en.request)

/-- The requests of the applied entries, in the order of the log. -/
def Leader.order (s : Leader D) : List (ℕ × Proposal) :=
  (s.log.take s.returned.length).map Entry.key

/-- What holds of a leader in every reachable state. -/
structure LeaderInv (pr : Proto) (drv : Driver D E) (env : ℕ → Local E) (eng₀ : Engine D)
    (s : Leader D) : Prop where
  ids : (s.log.map Entry.id).Nodup
  proposed : ∀ en ∈ s.log, s.calls[en.id]? = some en.request ∧
    en.request.encode pr = .ok en.data
  invoked : ∀ id p, s.calls[id]? = some p ↔ .invoke id p ∈ s.hist
  applied : s.returned.length ≤ s.log.length
  eng : s.status = .running → s.eng = serveAll drv env eng₀ s.order
  returned : ∀ (k : ℕ) (en : Entry) r, s.log[k]? = some en → s.returned[k]? = some r →
    ((serveAll drv env eng₀ ((s.log.take k).map Entry.key)).take drv (env en.id)
      en.request).2 = .ret r
  responded : ∀ id a, .respond id a ∈ s.hist → ∃ (k : ℕ) (en : Entry) (r : Response),
    s.log[k]? = some en ∧ s.returned[k]? = some r ∧ en.id = id ∧ answer en.request r = .ret a
  realTime : ∀ (i j : ℕ) a ans b p, i < j → s.hist[i]? = some (Event.respond a ans) →
    s.hist[j]? = some (Event.invoke b p) → ∀ (k l : ℕ) (en en' : Entry),
      s.log[k]? = some en → en.id = a → s.log[l]? = some en' → en'.id = b → k < l

/-- An entry of a list with one more element at its end. -/
theorem getElem?_concat_cases {α : Type} {l : List α} {x y : α} {j : ℕ}
    (h : (l ++ [x])[j]? = some y) : l[j]? = some y ∨ j = l.length ∧ x = y := by
  rcases Nat.lt_trichotomy j l.length with hlt | rfl | hgt
  · rw [List.getElem?_append_left hlt] at h
    exact .inl h
  · rw [List.getElem?_concat_length] at h
    exact .inr ⟨rfl, Option.some.inj h⟩
  · rw [List.getElem?_eq_none (by simp; omega)] at h
    exact absurd h (by simp)

/-- Entries keep their places when a list grows. -/
theorem getElem?_append_some {α : Type} {l : List α} {y : α} {j : ℕ} (h : l[j]? = some y)
    (l' : List α) : (l ++ l')[j]? = some y := by
  obtain ⟨hlt, -⟩ := List.getElem?_eq_some_iff.mp h
  rw [List.getElem?_append_left hlt]
  exact h

/-- Positions of a log whose numbers do not repeat are determined by the numbers. -/
theorem position_unique {log : List Entry} (h : (log.map Entry.id).Nodup) {k l : ℕ}
    {en en' : Entry} (hk : log[k]? = some en) (hl : log[l]? = some en')
    (hid : en.id = en'.id) : k = l := by
  obtain ⟨hklt, hken⟩ := List.getElem?_eq_some_iff.mp hk
  obtain ⟨hllt, hlen⟩ := List.getElem?_eq_some_iff.mp hl
  have hk' : k < (log.map Entry.id).length := by rwa [List.length_map]
  have hl' : l < (log.map Entry.id).length := by rwa [List.length_map]
  have heq : (log.map Entry.id)[k] = (log.map Entry.id)[l] := by
    rw [List.getElem_map, List.getElem_map, hken, hlen, hid]
  exact h.getElem_inj_iff.mp heq

/-- Applying a proposal and serving it leave the same engine. -/
theorem Engine.take_fst (drv : Driver D E) (loc : Local E) (eng : Engine D) (p : Proposal) :
    (eng.take drv loc p).1 = (eng.serve drv loc p).1 := by
  cases p <;> rfl

/-- A call answers as the engine does that serves its request. -/
theorem Engine.serve_of_take {drv : Driver D E} {loc : Local E} {eng : Engine D}
    {p : Proposal} {r : Response} {a : Answer} (h : (eng.take drv loc p).2 = .ret r)
    (ha : answer p r = .ret a) : (eng.serve drv loc p).2 = .ret a := by
  cases p with
  | exec req =>
      obtain ⟨x, hx, hr⟩ := Outcome.bind_eq_ret_iff.mp h
      obtain rfl := Outcome.ret.inj hr
      simp only [Engine.serve, hx, Outcome.ret_bind]
      exact ha
  | query q =>
      obtain ⟨x, hx, hr⟩ := Outcome.bind_eq_ret_iff.mp h
      obtain rfl := Outcome.ret.inj hr
      simp only [Engine.serve, hx, Outcome.ret_bind]
      exact ha

section Steps

variable {pr : Proto} {drv : Driver D E} {env : ℕ → Local E} {eng₀ : Engine D}
  {s : Leader D}

/-- A leader that has not been called yet. -/
theorem LeaderInv.init : LeaderInv pr drv env eng₀ (.init eng₀) where
  ids := by simp [Leader.init]
  proposed := by simp [Leader.init]
  invoked := by simp [Leader.init]
  applied := by simp [Leader.init]
  eng _ := rfl
  returned := by simp [Leader.init]
  responded := by simp [Leader.init]
  realTime := by simp [Leader.init]

/-- The leader's process goes down. -/
theorem LeaderInv.crash (h : LeaderInv pr drv env eng₀ s) (eng : Engine D) (st : Status)
    (hst : st ≠ .running) : LeaderInv pr drv env eng₀ { s with eng := eng, status := st } :=
  { h with eng := fun hrun => absurd hrun hst }

/-- An event that is neither an invocation nor a response. -/
theorem LeaderInv.record (h : LeaderInv pr drv env eng₀ s) (ev : Event)
    (hinv : ∀ id p, ev ≠ .invoke id p)
    (hresp : ∀ id a, ev = .respond id a → ∃ (k : ℕ) (en : Entry) (r : Response),
      s.log[k]? = some en ∧ s.returned[k]? = some r ∧ en.id = id ∧
        answer en.request r = .ret a) :
    LeaderInv pr drv env eng₀ { s with hist := s.hist ++ [ev] } where
  ids := h.ids
  proposed := h.proposed
  invoked id p := by
    rw [h.invoked id p, List.mem_append, List.mem_singleton]
    exact ⟨.inl, fun hor => hor.resolve_right fun heq => hinv id p heq.symm⟩
  applied := h.applied
  eng := h.eng
  returned := h.returned
  responded id a hmem := by
    rcases List.mem_append.mp hmem with hold | hnew
    · exact h.responded id a hold
    · exact hresp id a (List.mem_singleton.mp hnew).symm
  realTime i j a ans b p hij hi hj := by
    rcases getElem?_concat_cases hj with hj | ⟨-, hev⟩
    · rcases getElem?_concat_cases hi with hi | ⟨hlen, -⟩
      · exact h.realTime i j a ans b p hij hi hj
      · obtain ⟨hjlt, -⟩ := List.getElem?_eq_some_iff.mp hj
        omega
    · exact absurd hev (hinv b p)

/-- A call begins. Its number is new, so no entry of the log has it. -/
theorem LeaderInv.invoke (h : LeaderInv pr drv env eng₀ s) (p : Proposal) :
    LeaderInv pr drv env eng₀
      { s with calls := s.calls ++ [p], hist := s.hist ++ [.invoke s.calls.length p] } where
  ids := h.ids
  proposed en hen := ⟨getElem?_append_some (h.proposed en hen).1 _, (h.proposed en hen).2⟩
  invoked id q := by
    rw [List.mem_append, ← h.invoked id q, List.mem_singleton]
    constructor
    · intro hid
      rcases getElem?_concat_cases hid with hold | ⟨rfl, rfl⟩
      · exact .inl hold
      · exact .inr rfl
    · rintro (hold | hnew)
      · exact getElem?_append_some hold _
      · obtain ⟨rfl, rfl⟩ := Event.invoke.inj hnew
        exact List.getElem?_concat_length
  applied := h.applied
  eng := h.eng
  returned := h.returned
  responded id a hmem := by
    rcases List.mem_append.mp hmem with hold | hnew
    · exact h.responded id a hold
    · exact absurd (List.mem_singleton.mp hnew) (by simp)
  realTime i j a ans b q hij hi hj k l en en' hk hid hl hid' := by
    rcases getElem?_concat_cases hi with hi | ⟨-, hev⟩
    · rcases getElem?_concat_cases hj with hj | ⟨-, hev⟩
      · exact h.realTime i j a ans b q hij hi hj k l en en' hk hid hl hid'
      · obtain ⟨hb, -⟩ := Event.invoke.inj hev
        have hcall := (h.proposed en' (List.mem_of_getElem? hl)).1
        obtain ⟨hlt, -⟩ := List.getElem?_eq_some_iff.mp hcall
        omega
    · exact absurd hev (by simp)

/-- Raft commits a proposal. Its entry comes after every entry of the log. -/
theorem LeaderInv.commit (h : LeaderInv pr drv env eng₀ s) {id : ℕ} {p : Proposal}
    {b : List UInt8} (hcall : s.calls[id]? = some p) (hnew : id ∉ s.log.map Entry.id)
    (henc : p.encode pr = .ok b) :
    LeaderInv pr drv env eng₀ { s with log := s.log ++ [⟨id, p, b⟩] } where
  ids := by
    rw [List.map_append, List.map_singleton, ← List.concat_eq_append]
    exact h.ids.concat hnew
  proposed en hen := by
    rcases List.mem_append.mp hen with hold | hlast
    · exact h.proposed en hold
    · rw [List.mem_singleton.mp hlast]
      exact ⟨hcall, henc⟩
  invoked := h.invoked
  applied := by
    have := h.applied
    simp only [List.length_append, List.length_singleton]
    omega
  eng hrun := by
    rw [Leader.order, List.take_append_of_le_length h.applied]
    exact h.eng hrun
  returned k en r hk hr := by
    obtain ⟨hlt, -⟩ := List.getElem?_eq_some_iff.mp hr
    have hle : k < s.log.length := Nat.lt_of_lt_of_le hlt h.applied
    rw [List.getElem?_append_left hle] at hk
    rw [List.take_append_of_le_length (Nat.le_of_lt hle)]
    exact h.returned k en r hk hr
  responded id' a hmem := by
    obtain ⟨k, en, r, hk, hr, hid, ha⟩ := h.responded id' a hmem
    exact ⟨k, en, r, getElem?_append_some hk _, hr, hid, ha⟩
  realTime i j a ans b' q hij hi hj k l en en' hk hid hl hid' := by
    -- the answered request has its entry in the old log already
    obtain ⟨k₀, en₀, r, hk₀, -, hid₀, -⟩ := h.responded a ans (List.mem_of_getElem? hi)
    have hk₀lt : k₀ < s.log.length := (List.getElem?_eq_some_iff.mp hk₀).1
    have hold : s.log[k]? = some en := by
      rcases getElem?_concat_cases hk with hk | ⟨-, hen⟩
      · exact hk
      · refine absurd ?_ hnew
        have hida : id = a := by rw [← hid, ← hen]
        rw [hida, ← hid₀]
        exact List.mem_map_of_mem (List.mem_of_getElem? hk₀)
    rcases getElem?_concat_cases hl with hl | ⟨hlen, -⟩
    · exact h.realTime i j a ans b' q hij hi hj k l en en' hold hid hl hid'
    · have hklt : k < s.log.length := (List.getElem?_eq_some_iff.mp hold).1
      omega

/-- The state machine applies the next entry. -/
theorem LeaderInv.applyNext (hpr : pr.Lawful) (h : LeaderInv pr drv env eng₀ s)
    (hrun : s.status = .running) : LeaderInv pr drv env eng₀ (s.applyNext pr drv env) := by
  rcases hen : s.log[s.returned.length]? with _ | en
  · simpa only [Leader.applyNext, hen] using h
  obtain ⟨hlt, hget⟩ := List.getElem?_eq_some_iff.mp hen
  have hdec : DecodesTo pr en.data en.request :=
    decodesTo_encode hpr (h.proposed en (List.mem_of_getElem? hen)).2
  have happ := applyAction_of_decodesTo hdec drv (env en.id) s.eng
  rcases hr : s.eng.take drv (env en.id) en.request with ⟨eng, r | m | _⟩
  · -- the entry joins the applied part of the log
    have horder : (s.log.take (s.returned.length + 1)).map Entry.key =
        s.order ++ [en.key] := by
      rw [List.take_succ_eq_append_getElem hlt, hget, List.map_append, List.map_singleton]
      rfl
    have heng : eng = (s.eng.serve drv (env en.id) en.request).1 := by
      rw [← Engine.take_fst, hr]
    simp only [Leader.applyNext, hen, happ, hr]
    refine ⟨h.ids, h.proposed, h.invoked, ?_, ?_, ?_, ?_, h.realTime⟩
    · simp only [List.length_append, List.length_singleton]
      omega
    · intro _
      rw [Leader.order, List.length_append, List.length_singleton, horder, serveAll,
        Machine.run_append]
      rw [h.eng hrun] at heng
      exact heng
    · intro k en' r' hk hr'
      rcases getElem?_concat_cases hr' with hr' | ⟨rfl, rfl⟩
      · exact h.returned k en' r' hk hr'
      · obtain rfl : en = en' := Option.some.inj (hen.symm.trans hk)
        have hserve : s.eng = serveAll drv env eng₀
            ((s.log.take s.returned.length).map Entry.key) := h.eng hrun
        rw [← hserve, hr]
    · intro id a hmem
      obtain ⟨k, en', r', hk, hr', hid, ha⟩ := h.responded id a hmem
      exact ⟨k, en', r', hk, getElem?_append_some hr' _, hid, ha⟩
  · simp only [Leader.applyNext, hen, happ, hr]
    exact h.crash eng .crashed (by simp)
  · simp only [Leader.applyNext, hen, happ, hr]
    exact h.crash eng .stuck (by simp)

/-- A future resolves. -/
theorem LeaderInv.resolve (h : LeaderInv pr drv env eng₀ s) (k : ℕ) :
    LeaderInv pr drv env eng₀ (s.resolve k) := by
  rcases hen : s.log[k]? with _ | en
  · simpa only [Leader.resolve, hen] using h
  rcases hr : s.returned[k]? with _ | r
  · simpa only [Leader.resolve, hen, hr] using h
  simp only [Leader.resolve, hen, hr]
  split
  · exact h
  split
  · rename_i a ha
    refine h.record _ (by simp) fun id a' hev => ?_
    obtain ⟨rfl, rfl⟩ := Event.respond.inj hev
    exact ⟨k, en, r, hen, hr, rfl, ha⟩
  · exact h.crash s.eng .crashed (by simp)

/-- **What every input preserves.** -/
theorem leaderStep_inv (hpr : pr.Lawful) (h : LeaderInv pr drv env eng₀ s) (i : Input) :
    LeaderInv pr drv env eng₀ (leaderStep pr drv env s i) := by
  rw [leaderStep.eq_def]
  split
  · exact h
  cases i with
  | invoke p => exact h.invoke p
  | commit id =>
      simp only [Leader.commit]
      split
      · exact h
      split
      · exact h
      split
      · exact h
      · exact h.commit ‹_› ‹_› ‹_›
  | apply =>
      simp only
      split
      · exact h.applyNext hpr ‹_›
      · exact h
  | resolve k => exact h.resolve k
  | fail id msg =>
      simp only
      split
      · exact h.record _ (by simp) (by simp)
      · exact h

end Steps

/-! ### The theorem -/

/-- **The log explains the history** of a leader in a reachable state. -/
theorem LeaderInv.explains {pr : Proto} {drv : Driver D E} {env : ℕ → Local E}
    {eng₀ : Engine D} {s : Leader D} (h : LeaderInv pr drv env eng₀ s) :
    Explains drv env eng₀ s.hist s.order := by
  have hget : ∀ (k : ℕ) (id : ℕ) (p : Proposal), s.order[k]? = some (id, p) →
      ∃ en : Entry, k < s.returned.length ∧ s.log[k]? = some en ∧ en.id = id ∧
        en.request = p := by
    intro k id p hk
    rw [Leader.order, List.getElem?_map] at hk
    obtain ⟨en, hen, hkey⟩ := Option.map_eq_some_iff.mp hk
    obtain ⟨rfl, rfl⟩ := Prod.mk.inj hkey
    have hlt : k < s.returned.length := by
      obtain ⟨hlt, -⟩ := List.getElem?_eq_some_iff.mp hen
      rw [List.length_take] at hlt
      omega
    rw [List.getElem?_take_of_lt hlt] at hen
    exact ⟨en, hlt, hen, rfl, rfl⟩
  have hfst : s.order.map Prod.fst = (s.log.take s.returned.length).map Entry.id := by
    rw [Leader.order, List.map_map]
    rfl
  refine ⟨?_, ?_, ?_, ?_, ?_⟩
  · rw [hfst, List.map_take]
    exact h.ids.sublist (List.take_sublist _ _)
  · intro id p hmem
    obtain ⟨k, hk⟩ := List.getElem?_of_mem hmem
    obtain ⟨en, -, hen, rfl, rfl⟩ := hget k id p hk
    exact (h.invoked _ _).mp (h.proposed en (List.mem_of_getElem? hen)).1
  · intro id a hmem
    obtain ⟨k, en, r, hk, hr, rfl, -⟩ := h.responded id a hmem
    obtain ⟨hlt, -⟩ := List.getElem?_eq_some_iff.mp hr
    rw [hfst]
    refine List.mem_map_of_mem (List.mem_of_getElem? (i := k) ?_)
    rw [List.getElem?_take_of_lt hlt]
    exact hk
  · intro k id p a hk hmem
    obtain ⟨en, hlt, hen, rfl, rfl⟩ := hget k id p hk
    -- the response came from this very position of the log
    obtain ⟨k', en', r, hk', hr, hid, ha⟩ := h.responded _ a hmem
    obtain rfl : k' = k := position_unique h.ids hk' hen hid
    obtain rfl : en' = en := Option.some.inj (hk'.symm.trans hen)
    have htake : s.order.take k' = (s.log.take k').map Entry.key := by
      rw [Leader.order, ← List.map_take, List.take_take, Nat.min_eq_left (Nat.le_of_lt hlt)]
    rw [htake]
    exact Engine.serve_of_take (h.returned k' en' r hen hr) ha
  · intro i j a ans b p hij hi hj k l pa pb hk hl
    obtain ⟨en, -, hen, hida, -⟩ := hget k a pa hk
    obtain ⟨en', -, hen', hidb, -⟩ := hget l b pb hl
    exact h.realTime i j a ans b p hij hi hj k l en en' hen hida hen' hidb

/-- **Strong reads are linearizable with writes**: in every reachable state of a leader
— whatever the clients called and raft decided — there is one order of the requests
whose entries were applied, in which every request that returned a response occurs, such
that each response is what the sequential execution of `Engine.Exec` and `Engine.Query`
in this order answers, and a request that was invoked after another one's response comes
later. -/
theorem strong_reads_linearizable {pr : Proto} (hpr : pr.Lawful) (drv : Driver D E)
    (env : ℕ → Local E) (eng₀ : Engine D) (inputs : List Input) :
    let s := Machine.run (leaderStep pr drv env) (.init eng₀) inputs
    ∃ order : List (ℕ × Proposal), Explains drv env eng₀ s.hist order ∧
      ∀ id p, (id, p) ∈ order →
        ∃ k < s.returned.length, ∃ en, s.log[k]? = some en ∧ en.key = (id, p) := by
  intro s
  have hsteps : Machine.Steps (leaderStep pr drv env) (fun _ _ => True) (.init eng₀) inputs :=
    .of_forall fun _ _ _ => trivial
  have hinv : LeaderInv pr drv env eng₀ s :=
    Machine.run_invariant (LeaderInv pr drv env eng₀)
      (fun s i hs _ => leaderStep_inv hpr hs i) hsteps .init
  refine ⟨s.order, hinv.explains, fun id p hmem => ?_⟩
  obtain ⟨en, hen, hkey⟩ := List.mem_map.mp hmem
  obtain ⟨k, hk⟩ := List.getElem?_of_mem hen
  obtain ⟨hlt, -⟩ := List.getElem?_eq_some_iff.mp hk
  rw [List.length_take] at hlt
  have hlt' : k < s.returned.length := by omega
  rw [List.getElem?_take_of_lt hlt'] at hk
  exact ⟨k, hlt', en, hk, hkey⟩

/-- A run in which a write is applied but its call has not come back, and a strong read
that was invoked later has. -/
def pendingWrite : List Input :=
  [.invoke (.exec (oneStmt "INSERT INTO foo VALUES(1)")), .commit 0, .apply,
    .invoke (.query ⟨some (oneStmt "SELECT * FROM foo"), true⟩), .commit 1, .apply, .resolve 1]

/-- The history of `pendingWrite`: the read answers with the row of the write. -/
def pendingHistory : List Event :=
  [.invoke 0 (.exec (oneStmt "INSERT INTO foo VALUES(1)")),
    .invoke 1 (.query ⟨some (oneStmt "SELECT * FROM foo"), true⟩),
    .respond 1 (.query [⟨["id"], ["integer"], [⟨[some ⟨some (.i 1), ""⟩]⟩], ""⟩] none)]

/-- The run has this history. -/
theorem pendingWrite_hist :
    (Machine.run (leaderStep tableProto byteTable fun _ => .ofEntropy fun _ _ => 0)
      (.init (.fresh [])) pendingWrite).hist = pendingHistory := by
  decide

/-- The log explains the run, with the pending write in its order. -/
theorem pending_write_explained :
    ∃ order, Explains byteTable (fun _ => .ofEntropy fun _ _ => 0) (.fresh [])
      pendingHistory order := by
  obtain ⟨order, h, -⟩ := strong_reads_linearizable tableProto_lawful byteTable
    (fun _ => .ofEntropy fun _ _ => 0) (.fresh []) pendingWrite
  rw [pendingWrite_hist] at h
  exact ⟨order, h⟩

/-- **A pending write is visible**: no order of the answered requests alone explains the
run. -/
theorem pending_write_is_visible :
    ¬∃ order, Explains byteTable (fun _ => .ofEntropy fun _ _ => 0) (.fresh [])
        (Machine.run (leaderStep tableProto byteTable fun _ => .ofEntropy fun _ _ => 0)
          (.init (.fresh [])) pendingWrite).hist order ∧
      ∀ id p, (id, p) ∈ order → ∃ a, .respond id a ∈ (Machine.run
        (leaderStep tableProto byteTable fun _ => .ofEntropy fun _ _ => 0)
          (.init (.fresh [])) pendingWrite).hist := by
  rw [pendingWrite_hist]
  rintro ⟨order, h, honly⟩
  -- the read is the only answered request, so it comes first in the order
  have hone : ∀ q ∈ order, q.1 = 1 := by
    intro q hq
    obtain ⟨a, ha⟩ := honly q.1 q.2 hq
    simp only [pendingHistory, List.mem_cons, reduceCtorEq, Event.respond.injEq, false_or,
      List.not_mem_nil, or_false] at ha
    exact ha.1
  have hmem := h.responded 1 _ (List.mem_of_getElem? (i := 2) rfl)
  rcases order with _ | ⟨⟨id, p⟩, rest⟩
  · exact absurd hmem (by simp)
  obtain rfl : id = 1 := hone _ List.mem_cons_self
  have hinv := h.invoked 1 p List.mem_cons_self
  obtain rfl : p = .query ⟨some (oneStmt "SELECT * FROM foo"), true⟩ := by
    simp only [pendingHistory, List.mem_cons, reduceCtorEq, Event.invoke.injEq,
      List.not_mem_nil, or_false] at hinv
    rcases hinv with hinv | hinv
    · exact absurd hinv.1 (by simp)
    · exact hinv.2
  have hlegal := h.legal 0 1 _ _ rfl (List.mem_of_getElem? (i := 2) rfl)
  rw [List.take_zero] at hlegal
  exact absurd hlegal (by decide)

end DistSql
