import Mathlib.Logic.Function.Basic
import DistSql.Lifecycle
import DistSql.Machine

/-!
# The Calls of `Close`

`Coordinator.Close` can be called by anyone and at any time, and `serve` calls it once more when
the multiplexer stops, which happens because raft closes its listener. All of this goes on while
raft applies entries, restores and takes snapshots, and while clients ask weak queries.

A call takes the lock `shutdownlock` and keeps it to its end. The first one that gets it sets the
flag and closes the channel, shuts raft down, which waits for the goroutine that applies entries,
and then closes the two connections of the engine. Every later one finds the flag set and returns
`nil`.

A weak query has a connection of its own from its start to its end, which outlives the `Close` of
the engine: `sql.DB` refuses new connections and lets those in use go on. With `Transaction` the
query also holds `txmu` for reading, and `Snapshot` takes `txmu` for writing. What a query does to
the disk and to its connection is left open here: between its start and its end it may do anything
to them, at any time. `Persist` works on the bytes that `Snapshot` took, and is left out.

## Main results

* `shutdownStep_move`: what a step can do.
* `orderly_run`: who has the lock, the flag and the channel, in **every interleaving**.
* `excludes_run`: no transactional query runs while a snapshot is taken.
-/

open Golang Sqlite

namespace DistSql

variable {D E : Type}

/-! ### The calls -/

/-- Where a call of `Close` is. -/
inductive CloseCall
  /-- It has not been made. -/
  | idle
  /-- It waits for the lock. -/
  | waiting
  /-- It has the lock. -/
  | entered
  /-- It has set the flag and closed the channel, and shuts raft down. -/
  | stopping
  /-- Raft is down, and it closes the engine. -/
  | closing
  /-- It has returned. -/
  | returned (err : Option String)
  deriving DecidableEq, Repr

/-- The call holds the lock. -/
def CloseCall.holds : CloseCall → Bool
  | .entered | .stopping | .closing => true
  | _ => false

/-- The call is the one that shuts the node down. -/
def CloseCall.works : CloseCall → Bool
  | .stopping | .closing => true
  | _ => false

/-- The call has not looked at the flag yet. -/
def CloseCall.early : CloseCall → Bool
  | .idle | .waiting | .entered => true
  | _ => false

/-- The goroutine of raft that applies entries, restores and takes snapshots. -/
inductive Applier
  /-- It is between two calls. -/
  | running
  /-- In `Snapshot`, it waits for `txmu`. -/
  | snapshotWaits
  /-- In `Snapshot`, it has `txmu`. -/
  | snapshotHolds
  /-- It is in a call that does not come back. -/
  | stuck
  /-- It has ended. -/
  | stopped
  deriving DecidableEq, Repr

/-- The goroutine is in `Snapshot`, so no reader gets `txmu`. -/
def Applier.snapshots : Applier → Bool
  | .snapshotWaits | .snapshotHolds => true
  | _ => false

/-- The goroutine is in no call, so it can end. -/
def Applier.between : Applier → Bool
  | .running | .stopped => true
  | _ => false

/-- Where a weak query is; `tx` is its `Transaction`. -/
inductive QueryCall
  /-- It has not been asked. -/
  | idle
  /-- It waits for `txmu`. -/
  | waiting
  /-- It asks for a connection. -/
  | entered (tx : Bool)
  /-- It has a connection. -/
  | running (tx : Bool)
  /-- It reads rows that never end. -/
  | endless (tx : Bool)
  /-- It has returned. -/
  | returned (err : Option String)
  deriving DecidableEq, Repr

/-- The query is in flight: it has a connection. -/
def QueryCall.flies : QueryCall → Bool
  | .running _ | .endless _ => true
  | _ => false

/-- The query has `txmu` for reading. -/
def QueryCall.holdsTx : QueryCall → Bool
  | .entered tx | .running tx | .endless tx => tx
  | _ => false

/-- Why the process died. -/
inductive Crash
  /-- The channel was closed twice. -/
  | channel
  | panic (msg : String)
  deriving DecidableEq, Repr

/-- `Coordinator`, with the node that it runs, the calls of its `Close`, the weak queries, and
those of them that have `txmu`. -/
structure Coordinated (D : Type) where
  host : Host D
  applier : Applier := .running
  shutdownlock : Option ℕ := none
  shutdown : Bool := false
  shutdowns : Bool := false
  crash : Option Crash := none
  calls : ℕ → CloseCall := fun _ => .idle
  queries : ℕ → QueryCall := fun _ => .idle
  readers : List ℕ := []

/-- What a query does next: it is asked; it gets `txmu`; it gets a connection, or an error; it does
something to the disk and to its connection; its rows turn out to be endless; it returns. -/
inductive QueryInput (D : Type)
  | ask (tx : Bool)
  | rlock
  | conn (fault : Option String)
  | work (fs : FS) (readAt : Home D) (read : Conn D)
  | endless
  | leave (err : Option String)

/-- What happens next. -/
inductive ShutdownInput (D E : Type)
  | call (i : ℕ)
  | lock (i : ℕ)
  | check (i : ℕ)
  | raftDown (i : ℕ) (fault : Option String)
  | closeDB (i : ℕ) (readFault writeFault : Option String)
  | apply (record : LogEntry) (loc : Local E)
  | restore (f : RestoreFaults) (rd : Except String Slice)
  | snapshot
  | snapshotLock
  | snapshotEnd (fault : Option String)
  | query (q : ℕ) (i : QueryInput D)

namespace Coordinated

/-- A call goes on. -/
def goOn (s : Coordinated D) (i : ℕ) (c : CloseCall) : Coordinated D :=
  { s with calls := Function.update s.calls i c }

/-- A call returns, and gives the lock back. -/
def giveBack (s : Coordinated D) (i : ℕ) (err : Option String) : Coordinated D :=
  { s.goOn i (.returned err) with shutdownlock := none }

/-- The start of `Close`, with the lock: the flag, and the channel. -/
def checkFlag (s : Coordinated D) (i : ℕ) : Coordinated D :=
  if s.shutdown then s.giveBack i none
  else if s.shutdowns then { s with shutdown := true, crash := some .channel }
  else { s.goOn i .stopping with shutdown := true, shutdowns := true }

/-- The applying goroutine has come back from a call: a panic ends the process, and a call that
does not come back ends the goroutine. -/
def applied {α : Type} (s : Coordinated D) (p : Host D × Outcome α) : Coordinated D :=
  match p.2 with
  | .ret _ => { s with host := p.1, applier := .running }
  | .panic msg => { s with host := p.1, crash := some (.panic msg) }
  | .hang => { s with host := p.1, applier := .stuck }

/-- A query goes on, and has `txmu` or not. -/
def setQuery (s : Coordinated D) (q : ℕ) (c : QueryCall) : Coordinated D :=
  { s with
    queries := Function.update s.queries q c
    readers := (if c.holdsTx then [q] else []) ++ s.readers.filter (· ≠ q) }

/-- The weak path of `Consensus.Query`, step by step. -/
def queryStep (s : Coordinated D) (q : ℕ) : QueryInput D → Coordinated D
  | .ask tx =>
      if s.queries q = .idle then s.setQuery q (if tx then .waiting else .entered false) else s
  | .rlock =>
      if s.queries q = .waiting ∧ s.applier.snapshots = false then s.setQuery q (.entered true)
      else s
  | .conn fault =>
      match s.queries q with
      | .entered tx =>
          if s.host.c.db.readClosed then s.setQuery q (.returned (some errClosed))
          else
            match fault with
            | some m => s.setQuery q (.returned (some m))
            | none => s.setQuery q (.running tx)
      | _ => s
  | .work fs readAt read =>
      match s.queries q with
      | .running _ =>
          { s with host := ⟨fs, { s.host.c with
              db := { s.host.c.db with readAt := readAt, read := read } }⟩ }
      | _ => s
  | .endless =>
      match s.queries q with
      | .running tx => s.setQuery q (.endless tx)
      | _ => s
  | .leave err =>
      match s.queries q with
      | .running _ => s.setQuery q (.returned err)
      | _ => s

end Coordinated

/-- One step. What a call cannot do where it is, and what a goroutine cannot do any more, does not
happen. Raft is down once its goroutines have ended, so never while one of them is in a call. -/
def shutdownStep (gz : Gzip) (pr : Proto) (drv : Driver D E) (s : Coordinated D)
    (inp : ShutdownInput D E) : Coordinated D :=
  if s.crash ≠ none then s
  else
    match inp with
    | .call i => if s.calls i = .idle then s.goOn i .waiting else s
    | .lock i =>
        if s.calls i = .waiting ∧ s.shutdownlock = none then
          { s.goOn i .entered with shutdownlock := some i }
        else s
    | .check i => if s.calls i = .entered then s.checkFlag i else s
    | .raftDown i fault =>
        if s.calls i = .stopping then
          match fault with
          | some m => s.giveBack i (some m)
          | none =>
              if s.applier.between then { s.goOn i .closing with applier := .stopped } else s
        else s
    | .closeDB i readFault writeFault =>
        if s.calls i = .closing then
          let p := s.host.c.db.close readFault writeFault
          { s.giveBack i p.2 with host := { s.host with c := { s.host.c with db := p.1 } } }
        else s
    | .apply record loc =>
        if s.applier = .running then s.applied (s.host.apply pr drv loc record) else s
    | .restore f rd =>
        if s.applier = .running then s.applied (s.host.restore gz drv f rd) else s
    | .snapshot => if s.applier = .running then { s with applier := .snapshotWaits } else s
    | .snapshotLock =>
        if s.applier = .snapshotWaits ∧ s.readers = [] then { s with applier := .snapshotHolds }
        else s
    | .snapshotEnd fault =>
        if s.applier = .snapshotHolds then s.applied (s.host, s.host.snapshot fault) else s
    | .query q i => s.queryStep q i

/-- **What one step can do.** -/
inductive ShutdownMove (s : Coordinated D) : Coordinated D → Prop
  | stay : ShutdownMove s s
  | call (i : ℕ) (hi : s.calls i = .idle) : ShutdownMove s (s.goOn i .waiting)
  | lock (i : ℕ) (hi : s.calls i = .waiting) (hfree : s.shutdownlock = none) :
      ShutdownMove s { s.goOn i .entered with shutdownlock := some i }
  | late (i : ℕ) (hi : s.calls i = .entered) (hflag : s.shutdown = true) :
      ShutdownMove s (s.giveBack i none)
  | twice (i : ℕ) (hi : s.calls i = .entered) (hflag : s.shutdown = false)
      (hchan : s.shutdowns = true) :
      ShutdownMove s { s with shutdown := true, crash := some .channel }
  | first (i : ℕ) (hi : s.calls i = .entered) (hflag : s.shutdown = false) :
      ShutdownMove s { s.goOn i .stopping with shutdown := true, shutdowns := true }
  | failed (i : ℕ) (m : String) (hi : s.calls i = .stopping) :
      ShutdownMove s (s.giveBack i (some m))
  | down (i : ℕ) (hi : s.calls i = .stopping) (hbetween : s.applier.between = true) :
      ShutdownMove s { s.goOn i .closing with applier := .stopped }
  | close (i : ℕ) (readFault writeFault : Option String) (hi : s.calls i = .closing) :
      ShutdownMove s
        { s.giveBack i (s.host.c.db.close readFault writeFault).2 with
          host := { s.host with c :=
            { s.host.c with db := (s.host.c.db.close readFault writeFault).1 } } }
  | applied (host : Host D) (applier : Applier) (crash : Option Crash)
      (hfrom : s.applier ≠ .stopped) (hto : applier ≠ .stopped)
      (halone : applier = .snapshotHolds → s.applier = .snapshotHolds ∨ s.readers = [])
      (hlog : host.c.log = s.host.c.log) (hcrash : crash ≠ some .channel) :
      ShutdownMove s { s with host := host, applier := applier, crash := crash }
  | asked (q : ℕ) (c : QueryCall)
      (hflies : c.flies = true → (s.queries q).flies = true ∨ s.host.c.db.readClosed = false)
      (htx : c.holdsTx = true → (s.queries q).holdsTx = true ∨ s.applier.snapshots = false) :
      ShutdownMove s (s.setQuery q c)
  | worked (q : ℕ) (fs : FS) (readAt : Home D) (read : Conn D)
      (hflies : (s.queries q).flies = true) :
      ShutdownMove s { s with host := ⟨fs, { s.host.c with
        db := { s.host.c.db with readAt := readAt, read := read } }⟩ }

/-- What the applying goroutine came back from is one of these moves. -/
theorem Coordinated.applied_move {s : Coordinated D} {α : Type} (hcrash : s.crash = none)
    (hfrom : s.applier = .running ∨ s.applier = .snapshotHolds) (p : Host D × Outcome α)
    (hlog : p.1.c.log = s.host.c.log) : ShutdownMove s (s.applied p) := by
  obtain ⟨host, out⟩ := p
  have hactive : s.applier ≠ .stopped := by
    rcases hfrom with h | h <;> simp [h]
  cases out with
  | ret a =>
      exact .applied host .running s.crash hactive (by simp) (fun h => absurd h (by simp)) hlog
        (by simp [hcrash])
  | panic msg =>
      exact .applied host s.applier (some (.panic msg)) hactive hactive .inl hlog (by simp)
  | hang =>
      exact .applied host .stuck s.crash hactive (by simp) (fun h => absurd h (by simp)) hlog
        (by simp [hcrash])

/-- Restoring leaves the logger. -/
theorem Host.restore_log (gz : Gzip) (drv : Driver D E) (f : RestoreFaults)
    (rd : Except String Slice) (h : Host D) :
    (h.restore gz drv f rd).1.c.log = h.c.log := by
  rw [Host.restore]
  split
  · rfl
  · rfl
  · rfl
  · split
    · rfl
    split
    · rfl
    · rw [Host.replace]
      split <;> rfl

/-- A query that has neither a connection nor `txmu` after a step. -/
theorem ShutdownMove.asked_without {s : Coordinated D} (q : ℕ) {c : QueryCall}
    (hflies : c.flies = false) (htx : c.holdsTx = false) : ShutdownMove s (s.setQuery q c) :=
  .asked q c (fun h => absurd (hflies.symm.trans h) Bool.false_ne_true)
    fun h => absurd (htx.symm.trans h) Bool.false_ne_true

/-- **Every step of a query** is one of these moves. -/
theorem Coordinated.queryStep_move (s : Coordinated D) (q : ℕ) (i : QueryInput D) :
    ShutdownMove s (s.queryStep q i) := by
  cases i with
  | ask tx =>
      rw [Coordinated.queryStep]
      split
      · cases tx with
        | true => exact .asked_without q rfl rfl
        | false => exact .asked_without q rfl rfl
      · exact .stay
  | rlock =>
      rw [Coordinated.queryStep]
      split
      · rename_i h
        exact .asked q (.entered true) (fun hf => absurd hf (by decide)) fun _ => .inr h.2
      · exact .stay
  | conn fault =>
      rw [Coordinated.queryStep]
      split
      · rename_i tx hq
        split
        · exact .asked_without q rfl rfl
        · rename_i hopen
          split
          · exact .asked_without q rfl rfl
          · refine .asked q (.running tx) (fun _ => .inr (Bool.eq_false_iff.mpr hopen)) fun h => ?_
            rw [hq]
            exact .inl h
      · exact .stay
  | work fs readAt read =>
      rw [Coordinated.queryStep]
      split
      · rename_i tx hq
        exact .worked q fs readAt read (by rw [hq]; rfl)
      · exact .stay
  | endless =>
      rw [Coordinated.queryStep]
      split
      · rename_i tx hq
        refine .asked q (.endless tx) (fun _ => ?_) fun h => ?_ <;> rw [hq]
        · exact .inl rfl
        · exact .inl h
      · exact .stay
  | leave err =>
      rw [Coordinated.queryStep]
      split
      · exact .asked_without q rfl rfl
      · exact .stay

/-- **Every step is one of these moves.** -/
theorem shutdownStep_move (gz : Gzip) (pr : Proto) (drv : Driver D E) (s : Coordinated D)
    (inp : ShutdownInput D E) : ShutdownMove s (shutdownStep gz pr drv s inp) := by
  unfold shutdownStep
  split
  · exact .stay
  rename_i hcrash
  rw [ne_eq, not_not] at hcrash
  cases inp with
  | call i =>
      simp only
      split
      · exact .call i ‹_›
      · exact .stay
  | lock i =>
      simp only
      split
      · rename_i h
        exact .lock i h.1 h.2
      · exact .stay
  | check i =>
      simp only
      split
      · rename_i hi
        rw [Coordinated.checkFlag]
        split
        · exact .late i hi ‹_›
        · rename_i hflag
          rw [Bool.not_eq_true] at hflag
          split
          · exact .twice i hi hflag ‹_›
          · exact .first i hi hflag
      · exact .stay
  | raftDown i fault =>
      simp only
      split
      · rename_i hi
        cases fault with
        | some m => exact .failed i m hi
        | none =>
            simp only
            split
            · exact .down i hi ‹_›
            · exact .stay
      · exact .stay
  | closeDB i readFault writeFault =>
      simp only
      split
      · exact .close i readFault writeFault ‹_›
      · exact .stay
  | apply record loc =>
      simp only
      split
      · exact Coordinated.applied_move hcrash (.inl ‹_›) _ rfl
      · exact .stay
  | restore f rd =>
      simp only
      split
      · exact Coordinated.applied_move hcrash (.inl ‹_›) _ (Host.restore_log gz drv f rd s.host)
      · exact .stay
  | snapshot =>
      simp only
      split
      · rename_i hrunning
        exact .applied s.host .snapshotWaits s.crash (by simp [hrunning]) (by simp)
          (fun h => absurd h (by simp)) rfl (by simp [hcrash])
      · exact .stay
  | snapshotLock =>
      simp only
      split
      · rename_i h
        exact .applied s.host .snapshotHolds s.crash (by simp [h.1]) (by simp) (fun _ => .inr h.2)
          rfl (by simp [hcrash])
      · exact .stay
  | snapshotEnd fault =>
      simp only
      split
      · exact Coordinated.applied_move hcrash (.inr ‹_›) (s.host, _) rfl
      · exact .stay
  | query q i => exact s.queryStep_move q i

/-! ### Every interleaving -/

/-- **The node is closed**: nothing is applied any more, and both connections are closed. -/
structure Closed (s : Coordinated D) : Prop where
  stopped : s.applier = .stopped
  read : s.host.c.db.readClosed = true
  write : s.host.c.db.writeClosed = true

/-- **What holds in every interleaving.** -/
structure Orderly (s : Coordinated D) : Prop where
  /-- The lock is with the one call that holds it. -/
  holder : ∀ i, (s.calls i).holds = true ↔ s.shutdownlock = some i
  /-- The channel is closed with the flag. -/
  channel : s.shutdowns = s.shutdown
  /-- A call that works, or has returned, has seen or set the flag. -/
  begun : ∀ i, (s.calls i).works = true ∨ (∃ e, s.calls i = .returned e) → s.shutdown = true
  /-- And the flag was set by a call. -/
  byCall : s.shutdown = true → ∃ i, (s.calls i).works = true ∨ ∃ e, s.calls i = .returned e
  /-- While a call works, nobody has returned. -/
  alone : ∀ i, (s.calls i).works = true → ∀ j e, s.calls j ≠ .returned e
  /-- The engine is closed after raft. -/
  after : ∀ i, s.calls i = .closing → s.applier = .stopped
  /-- One call gets an error at most. -/
  oneError : ∀ i j m m', s.calls i = .returned (some m) → s.calls j = .returned (some m') → i = j
  /-- Whoever is told `nil` has an error of somebody else before, or the node is closed. -/
  success : ∀ i, s.calls i = .returned none →
    Closed s ∨ ∃ j m, s.calls j = .returned (some m)
  noDoubleClose : s.crash ≠ some .channel

/-- A node before any call. -/
theorem orderly_start (h : Host D) : Orderly (D := D) { host := h } := by
  constructor <;> simp [CloseCall.holds, CloseCall.works]

section Steps

variable {s : Coordinated D} {i : ℕ}

/-- Two calls do not hold the lock. -/
theorem Orderly.unique (h : Orderly s) {i j : ℕ} (hi : (s.calls i).holds = true)
    (hj : (s.calls j).holds = true) : i = j := by
  have hsame := ((h.holder i).mp hi).symm.trans ((h.holder j).mp hj)
  exact Option.some.inj hsame

/-- What the node and its queries do leaves the calls alone. -/
theorem Orderly.ofNode (h : Orderly s) {host : Host D} {applier : Applier} {crash : Option Crash}
    {queries : ℕ → QueryCall} {readers : List ℕ}
    (hstopped : s.applier = .stopped → applier = .stopped)
    (hclosed : Closed s → host.c.db.readClosed = true ∧ host.c.db.writeClosed = true)
    (hcrash : crash ≠ some .channel) :
    Orderly { s with host, applier, crash, queries, readers } where
  holder := h.holder
  channel := h.channel
  begun := h.begun
  byCall := h.byCall
  alone := h.alone
  after i hi := hstopped (h.after i hi)
  oneError := h.oneError
  success i hi := (h.success i hi).imp_left fun hc =>
    ⟨hstopped hc.stopped, (hclosed hc).1, (hclosed hc).2⟩
  noDoubleClose := hcrash

/-- A call that has not looked at the flag changes nothing but who has the lock. -/
theorem Orderly.early (h : Orderly s) {c : CloseCall} {lock : Option ℕ}
    (hfrom : (s.calls i).early = true) (hto : c.early = true)
    (hlock : ∀ j, (Function.update s.calls i c j).holds = true ↔ lock = some j) :
    Orderly { s.goOn i c with shutdownlock := lock } := by
  have hworks : ∀ j, (Function.update s.calls i c j).works = (s.calls j).works := by
    intro j
    by_cases hj : j = i
    · subst hj
      rw [Function.update_self]
      cases c <;> cases hc : s.calls j <;> simp_all [CloseCall.early, CloseCall.works]
    · rw [Function.update_of_ne hj]
  have hlate : ∀ j d, d.early = false → (Function.update s.calls i c j = d ↔ s.calls j = d) := by
    intro j d hd
    by_cases hj : j = i
    · subst hj
      rw [Function.update_self]
      constructor
      · rintro rfl
        exact absurd hto (by simp [hd])
      · rintro rfl
        exact absurd hfrom (by simp [hd])
    · rw [Function.update_of_ne hj]
  have hreturned : ∀ j e, Function.update s.calls i c j = .returned e ↔ s.calls j = .returned e :=
    fun j e => hlate j (.returned e) rfl
  constructor
  · exact hlock
  · exact h.channel
  · simp only [Coordinated.goOn, hworks, hreturned]
    exact h.begun
  · simp only [Coordinated.goOn, hworks, hreturned]
    exact h.byCall
  · simp only [Coordinated.goOn, hworks, ne_eq, hreturned]
    exact h.alone
  · intro j hj
    exact h.after j ((hlate j .closing rfl).mp hj)
  · simp only [Coordinated.goOn, hreturned]
    exact h.oneError
  · intro j hj
    simp only [Coordinated.goOn, hreturned] at hj ⊢
    exact (h.success j hj).imp_left fun hc => ⟨hc.stopped, hc.read, hc.write⟩
  · exact h.noDoubleClose

/-- The calls that hold the lock, when one of them moves on within it. -/
theorem Orderly.holder_update (h : Orderly s) {c : CloseCall} (hfrom : (s.calls i).holds = true)
    (hto : c.holds = true) (j : ℕ) :
    (Function.update s.calls i c j).holds = true ↔ s.shutdownlock = some j := by
  by_cases hj : j = i
  · subst hj
    rw [Function.update_self, ← h.holder]
    exact iff_of_true hto hfrom
  · rw [Function.update_of_ne hj, h.holder]

/-- And when it gives the lock back. -/
theorem Orderly.holder_returned (h : Orderly s) {e : Option String}
    (hfrom : (s.calls i).holds = true) (j : ℕ) :
    (Function.update s.calls i (.returned e) j).holds = true ↔ (none : Option ℕ) = some j := by
  refine iff_of_false (fun hj => ?_) (by simp)
  by_cases heq : j = i
  · subst heq
    rw [Function.update_self] at hj
    exact absurd hj Bool.false_ne_true
  · rw [Function.update_of_ne heq] at hj
    exact heq (h.unique hj hfrom)

/-- The first call sets the flag and closes the channel. -/
theorem Orderly.begin (h : Orderly s) (hi : s.calls i = .entered) (hflag : s.shutdown = false) :
    Orderly { s.goOn i .stopping with shutdown := true, shutdowns := true } := by
  have hnobody : ∀ j, (s.calls j).works = false ∧ ∀ e, s.calls j ≠ .returned e := by
    intro j
    have hnot := mt (h.begun j) (by simp [hflag])
    rw [not_or, Bool.not_eq_true, not_exists] at hnot
    exact hnot
  have hwork : ∀ j, (Function.update s.calls i CloseCall.stopping j).works = true → j = i := by
    intro j hj
    by_contra hne
    rw [Function.update_of_ne hne, (hnobody j).1] at hj
    exact absurd hj (by decide)
  have hnever : ∀ j e, Function.update s.calls i CloseCall.stopping j ≠ .returned e := by
    intro j e
    by_cases hj : j = i
    · subst hj
      simp
    · rw [Function.update_of_ne hj]
      exact (hnobody j).2 e
  constructor
  · exact h.holder_update (by rw [hi]; rfl) rfl
  · rfl
  · exact fun _ _ => rfl
  · exact fun _ => ⟨i, .inl (by simp [Coordinated.goOn, CloseCall.works])⟩
  · exact fun _ _ => hnever
  · intro j hj
    have heq := hwork j (by rw [show Function.update s.calls i .stopping j = .closing from hj]; rfl)
    subst heq
    simp [Coordinated.goOn] at hj
  · exact fun j _ _ _ hj => absurd hj (hnever j _)
  · exact fun j hj => absurd hj (hnever j _)
  · exact h.noDoubleClose

/-- Raft is down. -/
theorem Orderly.raftDown (h : Orderly s) (hi : s.calls i = .stopping) :
    Orderly { s.goOn i .closing with applier := .stopped } := by
  have hworks : ∀ j, (Function.update s.calls i CloseCall.closing j).works = (s.calls j).works := by
    intro j
    by_cases hj : j = i
    · subst hj
      rw [Function.update_self, hi]
      rfl
    · rw [Function.update_of_ne hj]
  have hreturned : ∀ j e,
      Function.update s.calls i CloseCall.closing j = .returned e ↔ s.calls j = .returned e := by
    intro j e
    by_cases hj : j = i
    · subst hj
      simp [hi]
    · rw [Function.update_of_ne hj]
  have halone := h.alone i (by rw [hi]; rfl)
  constructor
  · exact h.holder_update (by rw [hi]; rfl) rfl
  · exact h.channel
  · simp only [Coordinated.goOn, hworks, hreturned]
    exact h.begun
  · simp only [Coordinated.goOn, hworks, hreturned]
    exact h.byCall
  · simp only [Coordinated.goOn, hworks, ne_eq, hreturned]
    exact h.alone
  · exact fun _ _ => rfl
  · simp only [Coordinated.goOn, hreturned]
    exact h.oneError
  · exact fun j hj => absurd ((hreturned j _).mp hj) (halone j _)
  · exact h.noDoubleClose

/-- A call that works holds the lock. -/
theorem CloseCall.holds_of_works {c : CloseCall} (h : c.works = true) : c.holds = true := by
  cases c <;> first | rfl | exact h

/-- When the call that works returns, it is the first to do so, and nobody else works. -/
theorem Orderly.finish (h : Orderly s) (hi : (s.calls i).works = true) {e : Option String}
    {host : Host D}
    (hclosed : e = none → Closed { s.giveBack i e with host := host }) :
    Orderly { s.giveBack i e with host := host } := by
  have hholds := CloseCall.holds_of_works hi
  have hidle : ∀ j, (Function.update s.calls i (CloseCall.returned e) j).works ≠ true := by
    intro j hj
    by_cases heq : j = i
    · subst heq
      rw [Function.update_self] at hj
      exact absurd hj Bool.false_ne_true
    · rw [Function.update_of_ne heq] at hj
      exact heq (h.unique (CloseCall.holds_of_works hj) hholds)
  have honly : ∀ j e', Function.update s.calls i (CloseCall.returned e) j = .returned e' →
      j = i ∧ e' = e := by
    intro j e' hj
    by_cases heq : j = i
    · subst heq
      rw [Function.update_self] at hj
      exact ⟨rfl, (CloseCall.returned.inj hj).symm⟩
    · rw [Function.update_of_ne heq] at hj
      exact absurd hj (h.alone i hi j e')
  constructor
  · exact h.holder_returned hholds
  · exact h.channel
  · exact fun _ _ => h.begun i (.inl hi)
  · exact fun _ => ⟨i, .inr ⟨e, by simp [Coordinated.giveBack, Coordinated.goOn]⟩⟩
  · exact fun j hj => absurd hj (hidle j)
  · intro j hj
    refine absurd ?_ (hidle j)
    rw [show Function.update s.calls i (.returned e) j = .closing from hj]
    rfl
  · exact fun j k m m' hj hk => (honly j _ hj).1.trans (honly k _ hk).1.symm
  · exact fun j hj => .inl (hclosed (honly j _ hj).2.symm)
  · exact h.noDoubleClose

/-- A later call finds the flag set. -/
theorem Orderly.late (h : Orderly s) (hi : s.calls i = .entered) (hflag : s.shutdown = true) :
    Orderly (s.giveBack i none) := by
  have hholds : (s.calls i).holds = true := by rw [hi]; rfl
  have hidle : ∀ j, (s.calls j).works ≠ true := by
    intro j hj
    have heq := h.unique (CloseCall.holds_of_works hj) hholds
    rw [heq, hi] at hj
    exact absurd hj Bool.false_ne_true
  have hidle' : ∀ j, (Function.update s.calls i (CloseCall.returned none) j).works ≠ true := by
    intro j
    by_cases heq : j = i
    · subst heq
      simp [CloseCall.works]
    · rw [Function.update_of_ne heq]
      exact hidle j
  have herrors : ∀ j m, Function.update s.calls i (CloseCall.returned none) j =
      .returned (some m) ↔ s.calls j = .returned (some m) := by
    intro j m
    by_cases heq : j = i
    · subst heq
      simp [hi]
    · rw [Function.update_of_ne heq]
  -- somebody has returned before
  have houtcome : Closed s ∨ ∃ j m, s.calls j = .returned (some m) := by
    obtain ⟨j, hj | ⟨e, hj⟩⟩ := h.byCall hflag
    · exact absurd hj (hidle j)
    · rcases e with _ | m
      · exact h.success j hj
      · exact .inr ⟨j, m, hj⟩
  constructor
  · exact h.holder_returned hholds
  · exact h.channel
  · exact fun _ _ => hflag
  · exact fun _ => ⟨i, .inr ⟨none, by simp [Coordinated.giveBack, Coordinated.goOn]⟩⟩
  · exact fun j hj => absurd hj (hidle' j)
  · intro j hj
    refine absurd ?_ (hidle' j)
    rw [show Function.update s.calls i (.returned none) j = .closing from hj]
    rfl
  · intro j k m m' hj hk
    exact h.oneError j k m m' ((herrors j m).mp hj) ((herrors k m').mp hk)
  · intro j _
    rcases houtcome with hc | ⟨k, m, hk⟩
    · exact .inl ⟨hc.stopped, hc.read, hc.write⟩
    · exact .inr ⟨k, m, (herrors k m).mpr hk⟩
  · exact h.noDoubleClose

/-- `Close` of an engine returns `nil` only when both connections are closed. -/
theorem DiskEngine.close_ok {eng : DiskEngine D} {readFault writeFault : Option String}
    (h : (eng.close readFault writeFault).2 = none) :
    (eng.close readFault writeFault).1.readClosed = true ∧
      (eng.close readFault writeFault).1.writeClosed = true := by
  rw [DiskEngine.close] at h ⊢
  split at h
  · exact absurd h (by simp)
  · exact ⟨rfl, rfl⟩

/-- **Every move keeps a node orderly.** -/
theorem Orderly.move {s' : Coordinated D} (h : Orderly s) (hmove : ShutdownMove s s') :
    Orderly s' := by
  cases hmove with
  | stay => exact h
  | call i hi =>
      refine h.early (by rw [hi]; rfl) rfl fun j => ?_
      by_cases hj : j = i
      · subst hj
        rw [Function.update_self, ← h.holder, hi]
        rfl
      · rw [Function.update_of_ne hj, h.holder]
  | lock i hi hfree =>
      refine h.early (by rw [hi]; rfl) rfl fun j => ?_
      by_cases hj : j = i
      · subst hj
        simp [CloseCall.holds]
      · rw [Function.update_of_ne hj, h.holder, hfree]
        simp [Ne.symm hj]
  | late i hi hflag => exact h.late hi hflag
  | twice i hi hflag hchan =>
      rw [h.channel, hflag] at hchan
      exact absurd hchan Bool.false_ne_true
  | first i hi hflag => exact h.begin hi hflag
  | failed i m hi =>
      have hworks : (s.calls i).works = true := by rw [hi]; rfl
      exact @Orderly.finish D s i h hworks (some m) s.host fun hnone => absurd hnone (by simp)
  | down i hi _ => exact h.raftDown hi
  | close i readFault writeFault hi =>
      refine h.finish (by rw [hi]; rfl) fun hnone => ?_
      obtain ⟨hread, hwrite⟩ := DiskEngine.close_ok hnone
      exact ⟨h.after i hi, hread, hwrite⟩
  | applied host applier crash hfrom _ _ _ hcrash =>
      exact h.ofNode (fun hstopped => absurd hstopped hfrom) (fun hc => absurd hc.stopped hfrom)
        hcrash
  | asked q c _ _ => exact h.ofNode id (fun hc => ⟨hc.read, hc.write⟩) h.noDoubleClose
  | worked q fs readAt read _ =>
      exact h.ofNode id (fun hc => ⟨hc.read, hc.write⟩) h.noDoubleClose

end Steps

/-- **Every interleaving is orderly.** -/
theorem orderly_run (gz : Gzip) (pr : Proto) (drv : Driver D E) {s : Coordinated D} (h : Orderly s)
    (is : List (ShutdownInput D E)) : Orderly (Machine.run (shutdownStep gz pr drv) s is) :=
  Machine.run_always Orderly (fun s i hs => hs.move (shutdownStep_move gz pr drv s i)) h is

/-- **`txmu` excludes**: its readers are the queries that have it, and while `Snapshot` has it
there are none. -/
structure Excludes (s : Coordinated D) : Prop where
  holders : ∀ q, q ∈ s.readers ↔ (s.queries q).holdsTx = true
  exclusive : s.applier = .snapshotHolds → s.readers = []

/-- The readers are the queries that have `txmu`, when one of them goes on. -/
theorem Excludes.holders_setQuery {s : Coordinated D} (h : Excludes s) (q : ℕ) (c : QueryCall)
    (p : ℕ) : p ∈ (s.setQuery q c).readers ↔ ((s.setQuery q c).queries p).holdsTx = true := by
  simp only [Coordinated.setQuery, List.mem_append, List.mem_filter, h.holders]
  by_cases hp : p = q
  · subst hp
    rw [Function.update_self]
    cases hc : c.holdsTx <;> simp
  · rw [Function.update_of_ne hp]
    cases hc : c.holdsTx <;> simp [hp]

/-- **Every move keeps the exclusion.** -/
theorem Excludes.move {s s' : Coordinated D} (h : Excludes s) (hmove : ShutdownMove s s') :
    Excludes s' := by
  cases hmove with
  | stay => exact h
  | call i hi => exact ⟨h.holders, h.exclusive⟩
  | lock i hi hfree => exact ⟨h.holders, h.exclusive⟩
  | late i hi hflag => exact ⟨h.holders, h.exclusive⟩
  | twice i hi hflag hchan => exact ⟨h.holders, h.exclusive⟩
  | first i hi hflag => exact ⟨h.holders, h.exclusive⟩
  | failed i m hi => exact ⟨h.holders, h.exclusive⟩
  | down i hi _ => exact ⟨h.holders, fun hholds => absurd hholds (by simp)⟩
  | close i readFault writeFault hi => exact ⟨h.holders, h.exclusive⟩
  | applied host applier crash _ _ halone _ _ =>
      exact ⟨h.holders, fun hholds => (halone hholds).elim h.exclusive id⟩
  | asked q c _ htx =>
      refine ⟨h.holders_setQuery q c, fun hholds => ?_⟩
      have hnone := h.exclusive hholds
      have hc : c.holdsTx = false := by
        rw [Bool.eq_false_iff]
        intro hc
        have happlier : s.applier = .snapshotHolds := hholds
        rcases htx hc with hq | hfree
        · rw [← h.holders, hnone] at hq
          exact absurd hq List.not_mem_nil
        · rw [happlier] at hfree
          exact absurd hfree (by decide)
      simp only [Coordinated.setQuery, hc, hnone]
      rfl
  | worked q fs readAt read _ => exact ⟨h.holders, h.exclusive⟩

end DistSql
