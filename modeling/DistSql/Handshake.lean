import DistSql.Machine
import DistSql.Membership

/-!
# The Join Handshake

A node that is started with the address of a leader joins its cluster inside
`coordinator.New`: it sets up its multiplexer, raft and HTTP, sends `POST /join` to the
leader and waits for the answer, and only then starts to serve its multiplexer. The
leader's handler adds the node as a voter and answers when the entry that does so is
committed. The node can acknowledge entries only once it serves, so an entry that needs
its acknowledgement would have both sides wait for each other.

Whether there is such an entry depends on how raft counts the acknowledgement that the
leader itself gives when it stores the entry (`Tally`). Raft stores the entry first, which
counts this acknowledgement under the **old** configuration, and puts the new configuration
in force after that: a single leader commits the entry on the spot. If the node counted
towards the majority from the start, a single leader would wait for it.

## Main results

* `handshake_never_circular_iff`: under raft's rule the handshake never waits on itself,
  and under the other one exactly in clusters of two or more.
* `lone_leader_circular_under_new`: how a single leader would get there under the other one.
* `handshake_admits`: under raft's rule the cluster can admit the node, from every point of
  the handshake where the leader waits for the entry.
-/

open Raft

namespace DistSql

/-! ### The protocol -/

/-- Where `coordinator.New` stands on the joining node: in one of its setups, in
`joinToLeader` before and after it sent the request, after it, and after
`go c.serve()`. -/
inductive Phase
  | setupMux
  | setupRaft
  | setupHTTP
  | joinToLeader
  | waiting
  | joined
  | serving
  | failed
  deriving DecidableEq, Repr

/-- Where the leader's handler stands: it has no request, it has one, it waits in
`AddVoter` with these acknowledgements of an entry that is committed or not, or it has
answered. -/
inductive Handler
  | idle
  | handling
  | adding (acks : Finset String) (committed : Bool)
  | answered
  deriving DecidableEq

/-- The handshake: both sides, whether the request is on its way, and the answer that
is. -/
structure Handshake where
  joiner : Phase
  request : Bool
  leader : Handler
  reply : Option Bool
  deriving DecidableEq

/-- The handshake when the joining node is started. -/
def Handshake.init : Handshake := ⟨.setupMux, false, .idle, none⟩

/-- What can happen next. -/
inductive HandshakeInput
  | advance
  | fail
  | deliver
  | append
  | refuse
  | ack (server : String)
  | commit
  | answer
  | serve
  deriving DecidableEq, Repr

/-- Which configuration is in force when the leader stores an entry that changes it and
thereby acknowledges it: still the old one, or the new one already. -/
inductive Tally
  | underOld
  | underNew
  deriving DecidableEq, Repr

/-- The entry that adds the node is committed as soon as the leader has stored it. -/
def Tally.CommitsAtOnce (tally : Tally) (c : Configuration) (leader id addr : String) : Prop :=
  (tally = .underOld ∧ Commits c {leader}) ∨ Commits (addVoter id addr c) {leader}

instance (tally : Tally) (c : Configuration) (leader id addr : String) :
    Decidable (tally.CommitsAtOnce c leader id addr) :=
  inferInstanceAs (Decidable (_ ∨ _))

/-- One step of the handshake of the node with the given id and address with the leader
of a cluster with configuration `c`. A step that is not possible changes nothing. -/
def handshakeStep (tally : Tally) (c : Configuration) (leader id addr : String)
    (s : Handshake) : HandshakeInput → Handshake
  | .advance =>
      match s.joiner with
      | .setupMux => { s with joiner := .setupRaft }
      | .setupRaft => { s with joiner := .setupHTTP }
      | .setupHTTP => { s with joiner := .joinToLeader }
      | .joinToLeader => { s with joiner := .waiting, request := true }
      | _ => s
  | .fail =>
      match s.joiner with
      | .joined | .serving | .failed => s
      | _ => { s with joiner := .failed }
  | .deliver =>
      if s.request = true ∧ s.leader = .idle then
        { s with request := false, leader := .handling }
      else s
  | .append =>
      match s.leader with
      | .handling =>
          { s with leader := .adding {leader} (tally.CommitsAtOnce c leader id addr) }
      | _ => s
  | .refuse =>
      match s.leader with
      | .handling | .adding _ _ => { s with leader := .answered, reply := some false }
      | _ => s
  | .ack server =>
      match s.leader with
      | .adding acks committed =>
          -- nothing reaches the raft listener of a node that does not serve
          if server ∈ (voters (addVoter id addr c)).map Server.id ∧
              (server = id → s.joiner = .serving) then
            { s with
              leader := .adding (insert server acks)
                (committed || Commits (addVoter id addr c) (insert server acks)) }
          else s
      | _ => s
  | .commit =>
      match s.leader with
      | .adding _ true => { s with leader := .answered, reply := some true }
      | _ => s
  | .answer =>
      match s.joiner, s.reply with
      | .waiting, some true => { s with joiner := .joined, reply := none }
      | .waiting, some false => { s with joiner := .failed, reply := none }
      | _, _ => s
  | .serve =>
      match s.joiner with
      | .joined => { s with joiner := .serving }
      | _ => s

/-- **The handshake waits on itself**: the node waits for the answer, and the leader for
an entry that is not committed and cannot be without an acknowledgement of the node. -/
def CircularWait (c : Configuration) (id addr : String) (s : Handshake) : Prop :=
  s.joiner = .waiting ∧ (∃ acks, s.leader = .adding acks false) ∧
    ∀ acks, Commits (addVoter id addr c) acks → id ∈ acks

/-- It never does, whatever happens in which order. -/
def NeverCircular (tally : Tally) (c : Configuration) (leader id addr : String) : Prop :=
  ∀ inputs,
    ¬CircularWait c id addr (Machine.run (handshakeStep tally c leader id addr) .init inputs)

/-- The id and the address of the joining node are new to the cluster. -/
def IsNew (c : Configuration) (id addr : String) : Prop :=
  ∀ srv ∈ c, srv.id ≠ id ∧ srv.address ≠ addr

section Handshake

variable {tally : Tally} {c : Configuration} {leader id addr : String}

/-- What the leader does with a new node: `Join` finds no conflict and comes to
`AddVoter`, whose entry makes the node a voter. -/
theorem join_new (hc : Valid c) (hnew : IsNew c id addr) {localID : String}
    (hlocal : id ≠ localID) (hid : id ≠ "") (haddr : addr ≠ "") :
    Consensus.join (fun _ => none) true localID id addr c = (addVoter id addr c, none) := by
  have hevict : evict (fun _ => none) id addr c 1 c = (c, .through 1) :=
    evict_free 1 fun srv hs hor => hor.elim (hnew srv hs).1 (hnew srv hs).2
  obtain ⟨hservers, hnil⟩ := join_of_through hlocal rfl hevict
  rw [issue_of_valid (hc.addVoter hid haddr hnew)] at hservers hnil
  exact Prod.ext hservers (hnil.mpr rfl)

/-! ### When the entry is committed -/

/-- Where the leader waits for the entry, it is committed if the acknowledgements are
enough, or the leader's own was when it stored the entry. -/
def Handler.Settled (tally : Tally) (c : Configuration) (leader id addr : String) :
    Handler → Prop
  | .adding acks committed =>
      (Commits (addVoter id addr c) acks → committed = true) ∧
        (tally.CommitsAtOnce c leader id addr → committed = true)
  | _ => True

/-- **One step** keeps the entry settled. -/
theorem handshakeStep_settled (s : Handshake) (i : HandshakeInput)
    (h : s.leader.Settled tally c leader id addr) :
    (handshakeStep tally c leader id addr s i).leader.Settled tally c leader id addr := by
  cases i with
  | advance =>
      simp only [handshakeStep]
      split <;> exact h
  | fail =>
      simp only [handshakeStep]
      split <;> exact h
  | deliver =>
      simp only [handshakeStep]
      split
      · trivial
      · exact h
  | append =>
      simp only [handshakeStep]
      split
      · exact ⟨fun hcommits => decide_eq_true (.inr hcommits), fun honce => decide_eq_true honce⟩
      · exact h
  | refuse =>
      simp only [handshakeStep]
      split
      · trivial
      · trivial
      · exact h
  | ack server =>
      simp only [handshakeStep]
      split
      · rename_i acks committed hadding
        rw [hadding] at h
        split
        · refine ⟨fun hcommits => ?_, fun honce => ?_⟩
          · rw [decide_eq_true hcommits, Bool.or_true]
          · rw [h.2 honce, Bool.true_or]
        · rw [hadding]
          exact h
      · exact h
  | commit =>
      simp only [handshakeStep]
      split
      · trivial
      · exact h
  | answer =>
      simp only [handshakeStep]
      split <;> exact h
  | serve =>
      simp only [handshakeStep]
      split <;> exact h

/-- The entry is settled at every point of the handshake. -/
theorem run_settled (inputs : List HandshakeInput) :
    (Machine.run (handshakeStep tally c leader id addr) .init inputs).leader.Settled
      tally c leader id addr :=
  Machine.run_always (fun s : Handshake => s.leader.Settled tally c leader id addr)
    handshakeStep_settled (s := .init) trivial inputs

/-- A leader that is the only voter is a majority of its own. -/
theorem commits_alone (hleader : leader ∈ (voters c).map Server.id)
    (hone : (voters c).length < 2) : Commits c {leader} := by
  obtain ⟨srv, hsrv, rfl⟩ := List.mem_map.mp hleader
  have hmem : srv ∈ (voters c).filter fun srv' => srv'.id ∈ ({srv.id} : Finset String) :=
    List.mem_filter.mpr ⟨hsrv, by simp⟩
  have hpos := List.length_pos_of_mem hmem
  rw [Commits, quorum]
  omega

/-! ### Waiting -/

/-- The steps to the point where the leader has appended the entry. -/
def toAppend : List HandshakeInput :=
  [.advance, .advance, .advance, .advance, .deliver, .append]

/-- **When the handshake never waits on itself**: always, if the leader's own
acknowledgement counts under the old configuration; else exactly when the cluster has at
least two voters. -/
theorem handshake_never_circular_iff (hnew : IsNew c id addr)
    (hleader : leader ∈ (voters c).map Server.id) :
    NeverCircular tally c leader id addr ↔ tally = .underOld ∨ 2 ≤ (voters c).length := by
  have hid : ∀ srv ∈ c, srv.id ≠ id := fun srv hs => (hnew srv hs).1
  have hne : id ≠ leader := by
    obtain ⟨srv, hs, hsrv⟩ := List.mem_map.mp hleader
    exact fun hself => hid srv (List.mem_filter.mp hs).1 (hsrv.trans hself.symm)
  have hwithout := @commits_without_new_iff id addr c hid
  constructor
  · intro hnever
    by_contra hnone
    obtain ⟨htally, hfew⟩ := not_or.mp hnone
    have hneeded : ∀ acks, Commits (addVoter id addr c) acks → id ∈ acks := fun acks hcommits => by
      by_contra hmem
      exact hfew (hwithout.mp ⟨acks, hmem, hcommits⟩)
    have hwait : ¬tally.CommitsAtOnce c leader id addr := by
      rintro (⟨hold, -⟩ | hcommits)
      · exact htally hold
      · exact hne (Finset.mem_singleton.mp (hneeded _ hcommits))
    refine hnever toAppend ⟨rfl, ⟨{leader}, ?_⟩, hneeded⟩
    show Handler.adding {leader} (decide (tally.CommitsAtOnce c leader id addr)) = _
    rw [decide_eq_false hwait]
  · intro hor inputs hcircular
    obtain ⟨-, ⟨acks, hadding⟩, hneeded⟩ := hcircular
    by_cases htwo : 2 ≤ (voters c).length
    · obtain ⟨acks', hmem, hcommits⟩ := hwithout.mpr htwo
      exact hmem (hneeded acks' hcommits)
    · -- a single leader has committed the entry when it waits for it
      have hsettled := @run_settled tally c leader id addr inputs
      rw [hadding] at hsettled
      have honce : tally.CommitsAtOnce c leader id addr :=
        .inl ⟨hor.resolve_right htwo, commits_alone hleader (Nat.lt_of_not_le htwo)⟩
      exact absurd (hsettled.2 honce) (by simp)

/-! ### Admission -/

/-- The acknowledgements of voters of the cluster are taken one after the other. -/
theorem run_acks (hnew : IsNew c id addr) :
    ∀ (servers : List Server) (s : Handshake) (acks : Finset String) (committed : Bool),
      (∀ srv ∈ servers, srv ∈ voters c) → s.leader = .adding acks committed →
        ∃ acks' committed', Machine.run (handshakeStep tally c leader id addr) s
            (servers.map fun srv => .ack srv.id) = { s with leader := .adding acks' committed' } ∧
          (∀ srv ∈ servers, srv.id ∈ acks') ∧ acks ⊆ acks' := by
  intro servers
  induction servers with
  | nil =>
      intro s acks committed _ hadding
      refine ⟨acks, committed, ?_, by simp, Finset.Subset.refl acks⟩
      rw [List.map_nil, Machine.run_nil, ← hadding]
  | cons srv rest ih =>
      intro s acks committed hvoters hadding
      have hid : ∀ srv ∈ c, srv.id ≠ id := fun srv hs => (hnew srv hs).1
      have hvoter := hvoters srv List.mem_cons_self
      have hmem : srv.id ∈ (voters (addVoter id addr c)).map Server.id := by
        rw [voters_addVoter_of_absent hid]
        exact List.mem_map_of_mem (List.mem_append_left _ hvoter)
      obtain ⟨committed₁, hstep⟩ : ∃ committed₁,
          handshakeStep tally c leader id addr s (.ack srv.id) =
            { s with leader := .adding (insert srv.id acks) committed₁ } := by
        simp only [handshakeStep, hadding]
        rw [if_pos ⟨hmem, fun hself => absurd hself (hid srv (List.mem_filter.mp hvoter).1)⟩]
        exact ⟨_, rfl⟩
      obtain ⟨acks', committed', hrun, hall, hsub⟩ :=
        ih { s with leader := .adding (insert srv.id acks) committed₁ } (insert srv.id acks)
          committed₁ (fun srv' h => hvoters srv' (List.mem_cons_of_mem srv h)) rfl
      refine ⟨acks', committed', ?_, fun srv' h => ?_,
        fun a ha => hsub (Finset.mem_insert_of_mem ha)⟩
      · rw [List.map_cons, Machine.run_cons, hstep, hrun]
      · rcases List.mem_cons.mp h with rfl | hrest
        · exact hsub (Finset.mem_insert_self _ _)
        · exact hall srv' hrest

/-- **The cluster can admit the node**: wherever the handshake stands with the node waiting
and the leader adding it, the old voters commit the entry, and the node comes to serve. -/
theorem handshake_admits (hnew : IsNew c id addr) (hleader : leader ∈ (voters c).map Server.id)
    {inputs : List HandshakeInput} {acks : Finset String} {committed : Bool}
    (hwaiting : (Machine.run (handshakeStep .underOld c leader id addr) .init inputs).joiner =
      .waiting)
    (hadding : (Machine.run (handshakeStep .underOld c leader id addr) .init inputs).leader =
      .adding acks committed) :
    ∃ more, (Machine.run (handshakeStep .underOld c leader id addr) .init
      (inputs ++ more)).joiner = .serving := by
  have hid : ∀ srv ∈ c, srv.id ≠ id := fun srv hs => (hnew srv hs).1
  obtain ⟨acks', committed', hrun, hall, -⟩ :=
    @run_acks .underOld c leader id addr hnew (voters c) _ acks committed (fun _ h => h) hadding
  rw [← Machine.run_append] at hrun
  have hsettled := @run_settled .underOld c leader id addr
    (inputs ++ (voters c).map fun srv => .ack srv.id)
  rw [hrun] at hsettled
  have hcommitted : committed' = true := by
    by_cases htwo : 2 ≤ (voters c).length
    · exact hsettled.1 (commits_of_old hid hall htwo)
    · exact hsettled.2 (.inl ⟨rfl, commits_alone hleader (Nat.lt_of_not_le htwo)⟩)
  refine ⟨((voters c).map fun srv => .ack srv.id) ++ [.commit, .answer, .serve], ?_⟩
  rw [← List.append_assoc, Machine.run_append, hrun]
  simp [handshakeStep, hcommitted, hwaiting]

end Handshake

/-- The rule at work: a single leader, whose own acknowledgement commits the entry. -/
theorem lone_leader_never_circular :
    NeverCircular .underOld [⟨.voter, "0", "a"⟩] "0" "1" "b" :=
  (handshake_never_circular_iff (by unfold IsNew; decide) (by decide)).mpr (.inl rfl)

/-- **If the node counted from the start, a single leader and the node would wait for each
other**: the node has sent its request, and the leader has stored the entry that needs both
of them. -/
theorem lone_leader_circular_under_new :
    CircularWait [⟨.voter, "0", "a"⟩] "1" "b"
      (Machine.run (handshakeStep .underNew [⟨.voter, "0", "a"⟩] "0" "1" "b") .init
        toAppend) := by
  refine ⟨rfl, ⟨{"0"}, by decide⟩, fun acks hcommits => ?_⟩
  by_contra hmem
  have htwo := (@commits_without_new_iff "1" "b" [⟨.voter, "0", "a"⟩] (by decide)).mp
    ⟨acks, hmem, hcommits⟩
  exact absurd htwo (by decide)

end DistSql
