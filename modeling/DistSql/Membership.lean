import Mathlib.Logic.Function.Basic
import DistSql.Raft

/-!
# Membership Tracking

`Manager.eventHandler` hears from serf which members join and leave, and hands each of
them to `Consensus.Join` and `Consensus.Leave`, which change the configuration of raft.

What this is for is a **registry** (`Registry`): which members are there, and at which
address, by the most recent event of each. On a node that stays the leader, the
configuration is the leader and the registry at every moment, as long as the addresses of
the members that are there differ and are not empty, and no name is empty: raft refuses an
empty id, so a member without a name never gets into the configuration.

## Main results

* `evict_of_differing`, `evict_of_present`, `evict_free`: the conflict loop of
  `Consensus.Join`.
* `join_tracks`, `leave_tracks`: one member, one step of the registry.
* `eventHandler_tracks`: every sequence of events.
* `nameless_member_not_tracked`: a member without a name.
-/

open Raft

namespace DistSql

/-! ### `Consensus.Join` and `Consensus.Leave` -/

/-- The errors of `Join` and `Leave`: `ErrNotLeader`, `ErrJoinSelf`, and those of raft. -/
inductive MemberError
  | notLeader
  | joinSelf
  | raft (e : Raft.Error)
  deriving DecidableEq, Repr

/-- How the conflict loop of `Join` ends: it comes through after so many operations, the
node is already in the cluster, or a removal fails. -/
inductive Evicted
  | through (n : ℕ)
  | already
  | failed (e : Raft.Error)
  deriving DecidableEq, Repr

/-- The conflict loop of `Consensus.Join`, over the servers of the configuration that was
read before it. Operation number `n` is the next one. A server that has the id or the
address, but not both, has the joining id removed. -/
def evict (faults : ℕ → Option Fault) (id addr : String) :
    List Server → ℕ → Configuration → Configuration × Evicted
  | [], n, c => (c, .through n)
  | srv :: rest, n, c =>
      if srv.id = id ∨ srv.address = addr then
        if srv.id = id ∧ srv.address = addr then (c, .already)
        else
          match issue (faults n) c (removeServer id c) with
          | (c', some e) => (c', .failed e)
          | (c', none) => evict faults id addr rest (n + 1) c'
      else evict faults id addr rest n c

/-- `Consensus.Join` on a node with the given id: the configuration afterwards, and the
error. Reading the configuration is operation number 0. -/
def Consensus.join (faults : ℕ → Option Fault) (isLeader : Bool) (localID id addr : String)
    (c : Configuration) : Configuration × Option MemberError :=
  if !isLeader then (c, some .notLeader)
  else if id = localID then (c, some .joinSelf)
  else
    match faults 0 with
    | some f => (c, some (.raft f.error))
    | none =>
        match evict faults id addr c 1 c with
        | (c', .already) => (c', none)
        | (c', .failed e) => (c', some (.raft e))
        | (c', .through n) =>
            match issue (faults n) c' (addVoter id addr c') with
            | (c'', some .notLeader) => (c'', some .notLeader)
            | (c'', some e) => (c'', some (.raft e))
            | (c'', none) => (c'', none)

/-- `Consensus.Leave`. -/
def Consensus.leave (fault : Option Fault) (isLeader : Bool) (id : String) (c : Configuration) :
    Configuration × Option MemberError :=
  if !isLeader then (c, some .notLeader)
  else
    match issue fault c (removeServer id c) with
    | (c', some .notLeader) => (c', some .notLeader)
    | (c', some e) => (c', some (.raft e))
    | (c', none) => (c', none)

/-! ### `Manager.eventHandler` -/

/-- A serf member: its name and its tags. -/
structure Member where
  name : String
  tags : List (String × String)
  deriving DecidableEq, Repr

/-- The address that a member is joined under; a missing tag reads as the empty text. -/
def Member.rpcAddr (m : Member) : String := (m.tags.lookup "rpc_addr").getD ""

/-- A serf event; those that are not about members joining or leaving are of no
interest. -/
inductive SerfEvent
  | memberJoin (members : List Member)
  | memberLeave (members : List Member)
  | other
  deriving DecidableEq, Repr

/-- `Manager.handleJoin` on the leader; an error is logged and dropped. -/
def handleJoin (localID : String) (c : Configuration) (m : Member) : Configuration :=
  (Consensus.join (fun _ => none) true localID m.name m.rpcAddr c).1

/-- `Manager.handleLeave` on the leader; an error is logged and dropped. -/
def handleLeave (c : Configuration) (m : Member) : Configuration :=
  (Consensus.leave none true m.name c).1

/-- `Manager.isLocal`. The local serf name and the raft id of a node are both the name
that it is configured with. -/
def isLocal (localID : String) (m : Member) : Bool := localID = m.name

/-- One event of `Manager.eventHandler`. -/
def handleEvent (localID : String) (c : Configuration) : SerfEvent → Configuration
  | .memberJoin members =>
      members.foldl (fun c m => if isLocal localID m then c else handleJoin localID c m) c
  | .memberLeave members =>
      members.foldl (fun c m => if isLocal localID m then c else handleLeave c m) c
  | .other => c

/-- `Manager.eventHandler`: the configuration after a sequence of events. -/
def eventHandler (localID : String) (c : Configuration) (events : List SerfEvent) : Configuration :=
  events.foldl (handleEvent localID) c

/-! ### The registry -/

/-- What an event says of one member. -/
inductive Change
  | joined (m : Member)
  | left (m : Member)
  deriving DecidableEq, Repr

/-- What a sequence of events says, member by member. -/
def changes (events : List SerfEvent) : List Change :=
  events.flatMap fun
    | .memberJoin members => members.map .joined
    | .memberLeave members => members.map .left
    | .other => []

/-- **The registry**: the members other than the local one whose most recent event is a
join, with the address of that join. -/
abbrev Registry := String → Option String

/-- The registry after one more change. -/
def Registry.record (localID : String) (reg : Registry) : Change → Registry
  | .joined m =>
      if isLocal localID m then reg else Function.update reg m.name (some m.rpcAddr)
  | .left m => if isLocal localID m then reg else Function.update reg m.name none

/-- The registry after a list of changes. -/
def registry (localID : String) (cs : List Change) : Registry :=
  cs.foldl (Registry.record localID) fun _ => none

/-- The members that are there and the leader have **distinct addresses that are not
empty**. -/
structure Apart (leaderAddr : String) (reg : Registry) : Prop where
  leader : leaderAddr ≠ ""
  ne_empty : ∀ name a, reg name = some a → a ≠ ""
  ne_leader : ∀ name a, reg name = some a → a ≠ leaderAddr
  distinct : ∀ name name' a, reg name = some a → reg name' = some a → name = name'

/-- The configuration **consists of** the leader and the registry, all of them voters. -/
structure Tracks (localID leaderAddr : String) (c : Configuration) (reg : Registry) : Prop where
  valid : Valid c
  servers : ∀ srv, srv ∈ c ↔ srv = ⟨.voter, localID, leaderAddr⟩ ∨
    ∃ name a, reg name = some a ∧ srv = ⟨.voter, name, a⟩

/-! ### The conflict loop -/

/-- **The conflict loop without a server that has both** the id and the address comes
through; it has removed the joining id if there was any conflict. Induction on the
servers; after the first removal there is nothing left to remove. -/
theorem evict_of_differing {id addr : String} {c : Configuration} (hc : Valid c)
    (hrem : Valid (removeServer id c)) :
    ∀ (old : List Server) (n : ℕ), (∀ srv ∈ old, ¬(srv.id = id ∧ srv.address = addr)) →
      ∃ n', evict (fun _ => none) id addr old n c =
        (if ∃ srv ∈ old, srv.id = id ∨ srv.address = addr then removeServer id c else c,
          .through n') := by
  intro old
  induction old generalizing c with
  | nil => intro n _; exact ⟨n, by simp [evict]⟩
  | cons srv rest ih =>
      intro n hboth
      have hboth' : ∀ srv' ∈ rest, ¬(srv'.id = id ∧ srv'.address = addr) :=
        fun srv' h => hboth srv' (List.mem_cons_of_mem srv h)
      by_cases hsrv : srv.id = id ∨ srv.address = addr
      · have hrem' : Valid (removeServer id (removeServer id c)) := by
          rwa [removeServer_removeServer]
        obtain ⟨n', hn'⟩ := ih hrem hrem' (n + 1) hboth'
        refine ⟨n', ?_⟩
        rw [evict, if_pos hsrv, if_neg (hboth srv List.mem_cons_self), issue_of_valid hrem]
        simp only [hn', removeServer_removeServer, ite_self]
        rw [if_pos ⟨srv, List.mem_cons_self, hsrv⟩]
      · obtain ⟨n', hn'⟩ := ih hc hrem n hboth'
        refine ⟨n', ?_⟩
        have hiff : (∃ srv' ∈ srv :: rest, srv'.id = id ∨ srv'.address = addr) ↔
            ∃ srv' ∈ rest, srv'.id = id ∨ srv'.address = addr := by
          simp only [List.mem_cons, exists_eq_or_imp, hsrv, false_or]
        rw [evict, if_neg hsrv, hn']
        simp only [hiff]

/-- **The conflict loop over servers one of which has both** the id and the address, and
no other one has either, finds the node in the cluster. -/
theorem evict_of_present {faults : ℕ → Option Fault} {id addr : String} {c : Configuration}
    {srv : Server} (hid : srv.id = id) (haddr : srv.address = addr) :
    ∀ (old : List Server) (n : ℕ), srv ∈ old →
      (∀ srv' ∈ old, srv'.id = id ∨ srv'.address = addr → srv' = srv) →
        evict faults id addr old n c = (c, .already) := by
  intro old
  induction old with
  | nil => intro n hmem _; exact absurd hmem List.not_mem_nil
  | cons srv' rest ih =>
      intro n hmem hother
      by_cases hsrv : srv'.id = id ∨ srv'.address = addr
      · obtain rfl := hother srv' List.mem_cons_self hsrv
        rw [evict, if_pos hsrv, if_pos ⟨hid, haddr⟩]
      · have hrest : srv ∈ rest := by
          rcases List.mem_cons.mp hmem with rfl | hrest
          · exact absurd (.inl hid) hsrv
          · exact hrest
        rw [evict, if_neg hsrv]
        exact ih n hrest fun srv'' h => hother srv'' (List.mem_cons_of_mem srv' h)

/-- Without a server that is in the way, the loop comes through at once. -/
theorem evict_free {faults : ℕ → Option Fault} {id addr : String} {c : Configuration}
    {old : List Server} (n : ℕ) (hfree : ∀ srv ∈ old, ¬(srv.id = id ∨ srv.address = addr)) :
    evict faults id addr old n c = (c, .through n) := by
  induction old with
  | nil => rfl
  | cons srv rest ih =>
      rw [evict, if_neg (hfree srv List.mem_cons_self)]
      exact ih fun srv' h => hfree srv' (List.mem_cons_of_mem srv h)

/-! ### From the loop to `Join` -/

section Join

variable {faults : ℕ → Option Fault} {localID id addr : String} {c c' : Configuration}

/-- `Join` of a node that the loop finds in the cluster. -/
theorem join_of_already (hself : id ≠ localID) (hread : faults 0 = none)
    (h : evict faults id addr c 1 c = (c', .already)) :
    Consensus.join faults true localID id addr c = (c', none) := by
  simp [Consensus.join, hself, hread, h]

/-- `Join` after a removal that failed. -/
theorem join_of_failed (hself : id ≠ localID) (hread : faults 0 = none) {e : Raft.Error}
    (h : evict faults id addr c 1 c = (c', .failed e)) :
    Consensus.join faults true localID id addr c = (c', some (.raft e)) := by
  simp [Consensus.join, hself, hread, h]

/-- `Join` after the loop came through: the addition decides. -/
theorem join_of_through (hself : id ≠ localID) (hread : faults 0 = none) {n : ℕ}
    (h : evict faults id addr c 1 c = (c', .through n)) :
    (Consensus.join faults true localID id addr c).1 =
        (issue (faults n) c' (addVoter id addr c')).1 ∧
      ((Consensus.join faults true localID id addr c).2 = none ↔
        (issue (faults n) c' (addVoter id addr c')).2 = none) := by
  rcases hissue : issue (faults n) c' (addVoter id addr c') with ⟨c'', _ | _ | _ | msg⟩ <;>
    simp [Consensus.join, hself, hread, h, hissue]

end Join

/-! ### One member -/

section OneMember

variable {localID leaderAddr name a : String} {c : Configuration} {reg : Registry}

/-- The leader is a voter of the configuration. -/
theorem Tracks.leader_mem (h : Tracks localID leaderAddr c reg) :
    (⟨.voter, localID, leaderAddr⟩ : Server) ∈ c :=
  (h.servers _).mpr (.inl rfl)

/-- Removing a member keeps the configuration valid. -/
theorem Tracks.valid_removeServer (h : Tracks localID leaderAddr c reg)
    (hname : name ≠ localID) : Valid (removeServer name c) :=
  h.valid.removeServer h.leader_mem rfl hname.symm

/-- A configuration without the member tracks the registry without it. -/
theorem Tracks.remove (h : Tracks localID leaderAddr c reg) (hname : name ≠ localID) :
    Tracks localID leaderAddr (removeServer name c) (Function.update reg name none) := by
  refine ⟨h.valid_removeServer hname, fun srv => ?_⟩
  rw [mem_removeServer, h.servers]
  constructor
  · rintro ⟨rfl | ⟨name', a', hreg, rfl⟩, hne⟩
    · exact .inl rfl
    · refine .inr ⟨name', a', ?_, rfl⟩
      have hne' : name' ≠ name := hne
      rwa [Function.update_of_ne hne']
  · rintro (rfl | ⟨name', a', hreg, rfl⟩)
    · exact ⟨.inl rfl, hname.symm⟩
    · have hne : name' ≠ name := by
        rintro rfl
        rw [Function.update_self] at hreg
        exact absurd hreg (by simp)
      rw [Function.update_of_ne hne] at hreg
      exact ⟨.inr ⟨name', a', hreg, rfl⟩, hne⟩

/-- A configuration with a new member tracks the registry with it. -/
theorem Tracks.add (h : Tracks localID leaderAddr c reg) (hreg : reg name = none)
    (hname : name ≠ localID) (hname' : name ≠ "")
    (hapart : Apart leaderAddr (Function.update reg name (some a))) :
    Valid (addVoter name a c) ∧
      Tracks localID leaderAddr (addVoter name a c) (Function.update reg name (some a)) := by
  have hself : Function.update reg name (some a) name = some a := Function.update_self _ _ _
  have hnew : ∀ srv ∈ c, srv.id ≠ name ∧ srv.address ≠ a := by
    intro srv hsrv
    rcases (h.servers srv).mp hsrv with rfl | ⟨name', a', hreg', rfl⟩
    · exact ⟨hname.symm, (hapart.ne_leader name a hself).symm⟩
    · have hne : name' ≠ name := by
        rintro rfl
        exact absurd (hreg.symm.trans hreg') (by simp)
      refine ⟨hne, ?_⟩
      rintro rfl
      have hreg'' : Function.update reg name (some a') name' = some a' := by
        rwa [Function.update_of_ne hne]
      exact hne (hapart.distinct name' name a' hreg'' hself)
  have hvalid : Valid (addVoter name a c) :=
    h.valid.addVoter hname' (hapart.ne_empty name a hself) hnew
  refine ⟨hvalid, hvalid, fun srv => ?_⟩
  rw [addVoter_of_absent fun srv hsrv => (hnew srv hsrv).1, List.mem_append, List.mem_singleton,
    h.servers]
  constructor
  · rintro ((rfl | ⟨name', a', hreg', rfl⟩) | rfl)
    · exact .inl rfl
    · refine .inr ⟨name', a', ?_, rfl⟩
      have hne : name' ≠ name := by
        rintro rfl
        exact absurd (hreg.symm.trans hreg') (by simp)
      rwa [Function.update_of_ne hne]
    · exact .inr ⟨name, a, hself, rfl⟩
  · rintro (rfl | ⟨name', a', hreg', rfl⟩)
    · exact .inl (.inl rfl)
    · by_cases hne : name' = name
      · subst hne
        obtain rfl := Option.some.inj (hself.symm.trans hreg')
        exact .inr rfl
      · rw [Function.update_of_ne hne] at hreg'
        exact .inl (.inr ⟨name', a', hreg', rfl⟩)

/-- **A member joins**: on the leader, `Join` succeeds and records it, whether the member
is new, is there already, or comes back under another address. -/
theorem join_tracks (h : Tracks localID leaderAddr c reg) (hname : name ≠ localID)
    (hname' : name ≠ "") (hapart : Apart leaderAddr (Function.update reg name (some a))) :
    (Consensus.join (fun _ => none) true localID name a c).2 = none ∧
      Tracks localID leaderAddr (Consensus.join (fun _ => none) true localID name a c).1
        (Function.update reg name (some a)) := by
  have hself : Function.update reg name (some a) name = some a := Function.update_self _ _ _
  -- a server with the id or the address is the member itself
  have hconflict : ∀ srv ∈ c, srv.id = name ∨ srv.address = a →
      ∃ b, reg name = some b ∧ srv = ⟨.voter, name, b⟩ := by
    intro srv hsrv hor
    rcases (h.servers srv).mp hsrv with rfl | ⟨name', b, hreg, rfl⟩
    · rcases hor with hid | haddr
      · exact absurd hid.symm hname
      · exact absurd haddr.symm (hapart.ne_leader name a hself)
    · by_cases hne : name' = name
      · subst hne
        exact ⟨b, hreg, rfl⟩
      · have hb : b = a := hor.resolve_left hne
        have hreg' : Function.update reg name (some a) name' = some a := by
          rw [Function.update_of_ne hne, hreg, hb]
        exact absurd (hapart.distinct name' name a hreg' hself) hne
  by_cases hthere : reg name = some a
  · -- the member is there already
    have hmem : (⟨.voter, name, a⟩ : Server) ∈ c := (h.servers _).mpr (.inr ⟨name, a, hthere, rfl⟩)
    have hevict := @evict_of_present (fun _ => none) name a c ⟨.voter, name, a⟩ rfl rfl c 1 hmem (by
      intro srv hsrv hor
      obtain ⟨b, hreg, rfl⟩ := hconflict srv hsrv hor
      rw [Option.some.inj (hreg.symm.trans hthere)])
    have hsame : Function.update reg name (some a) = reg := by
      rw [← hthere, Function.update_eq_self]
    rw [join_of_already hname rfl hevict, hsame]
    exact ⟨rfl, h⟩
  · have hboth : ∀ srv ∈ c, ¬(srv.id = name ∧ srv.address = a) := by
      rintro srv hsrv ⟨hid, haddr⟩
      obtain ⟨b, hreg, rfl⟩ := hconflict srv hsrv (.inl hid)
      obtain rfl : b = a := haddr
      exact hthere hreg
    -- the loop leaves the configuration without the member
    have hremoved :
        Tracks localID leaderAddr (removeServer name c) (Function.update reg name none) :=
      h.remove hname
    obtain ⟨n, hevict⟩ := evict_of_differing h.valid hremoved.valid c 1 hboth
    have hc' : (if ∃ srv ∈ c, srv.id = name ∨ srv.address = a then removeServer name c else c) =
        removeServer name c := by
      split
      · rfl
      · rename_i hno
        exact (removeServer_of_absent fun srv hsrv hid => hno ⟨srv, hsrv, .inl hid⟩).symm
    have hupdate : Function.update (Function.update reg name none) name (some a) =
        Function.update reg name (some a) := Function.update_idem _ _ _
    obtain ⟨hvalid, hadded⟩ := hremoved.add (a := a) (Function.update_self _ _ _) hname hname'
      (by rwa [hupdate])
    rw [hupdate] at hadded
    rw [hc'] at hevict
    obtain ⟨hservers, hnil⟩ := join_of_through hname rfl hevict
    rw [issue_of_valid hvalid] at hservers hnil
    rw [hservers]
    exact ⟨hnil.mpr rfl, hadded⟩

/-- **A member leaves**: on the leader, `Leave` succeeds and strikes it off. -/
theorem leave_tracks (h : Tracks localID leaderAddr c reg) (hname : name ≠ localID) :
    (Consensus.leave none true name c).2 = none ∧
      Tracks localID leaderAddr (Consensus.leave none true name c).1
        (Function.update reg name none) := by
  have hleave : Consensus.leave none true name c = (removeServer name c, none) := by
    rw [Consensus.leave, if_neg (by simp), issue_of_valid (h.valid_removeServer hname)]
  rw [hleave]
  exact ⟨rfl, h.remove hname⟩

end OneMember

/-! ### Sequences of events -/

/-- The configuration after one change. -/
def handleChange (localID : String) (c : Configuration) : Change → Configuration
  | .joined m => if isLocal localID m then c else handleJoin localID c m
  | .left m => if isLocal localID m then c else handleLeave c m

/-- The event handler works member by member. -/
theorem eventHandler_eq (localID : String) (c : Configuration) (events : List SerfEvent) :
    eventHandler localID c events = (changes events).foldl (handleChange localID) c := by
  rw [eventHandler, changes, List.foldl_flatMap]
  congr 1
  funext c e
  cases e with
  | memberJoin members => rw [handleEvent, List.foldl_map]; rfl
  | memberLeave members => rw [handleEvent, List.foldl_map]; rfl
  | other => rfl

/-- **One change** keeps the configuration on the registry. -/
theorem handleChange_tracks {localID leaderAddr : String} {c : Configuration} {reg : Registry}
    {ch : Change} (h : Tracks localID leaderAddr c reg)
    (hname : ∀ m, ch = .joined m → m.name ≠ "")
    (hapart : Apart leaderAddr (reg.record localID ch)) :
    Tracks localID leaderAddr (handleChange localID c ch) (reg.record localID ch) := by
  cases ch with
  | joined m =>
      rw [handleChange, Registry.record] at *
      by_cases hlocal : isLocal localID m = true
      · rw [if_pos hlocal, if_pos hlocal]
        exact h
      · rw [if_neg hlocal] at hapart ⊢
        rw [if_neg hlocal]
        have hne : m.name ≠ localID := fun heq => hlocal (by simp [isLocal, heq])
        exact (join_tracks h hne (hname m rfl) hapart).2
  | left m =>
      rw [handleChange, Registry.record] at *
      by_cases hlocal : isLocal localID m = true
      · rw [if_pos hlocal, if_pos hlocal]
        exact h
      · rw [if_neg hlocal, if_neg hlocal]
        have hne : m.name ≠ localID := fun heq => hlocal (by simp [isLocal, heq])
        exact (leave_tracks h hne).2

/-- The configuration of a cluster with one node tracks the empty registry. -/
theorem tracks_single {localID leaderAddr : String} (hid : localID ≠ "") (haddr : leaderAddr ≠ "") :
    Tracks localID leaderAddr [⟨.voter, localID, leaderAddr⟩] fun _ => none := by
  refine ⟨⟨?_, ?_, by simp, by simp, ⟨_, List.mem_singleton_self _, rfl⟩⟩, fun srv => ?_⟩
  · intro srv hsrv
    rw [List.mem_singleton.mp hsrv]
    exact hid
  · intro srv hsrv
    rw [List.mem_singleton.mp hsrv]
    exact haddr
  · simp

/-- **Membership tracking**: after every sequence of events on a node that leads
throughout, the configuration consists of the leader and of every other member whose most
recent event is a join, each at the address of that join; provided that no member without
a name joins, and that at every moment the members that are there and the leader have
distinct addresses that are not empty. -/
theorem eventHandler_tracks {localID leaderAddr : String} (hid : localID ≠ "")
    (events : List SerfEvent) (hnames : ∀ m, .joined m ∈ changes events → m.name ≠ "")
    (hapart : ∀ n, Apart leaderAddr (registry localID ((changes events).take n))) :
    Tracks localID leaderAddr
      (eventHandler localID [⟨.voter, localID, leaderAddr⟩] events)
      (registry localID (changes events)) := by
  rw [eventHandler_eq]
  -- induction on how many changes were handled
  have hpart : ∀ n, Tracks localID leaderAddr
      (((changes events).take n).foldl (handleChange localID) [⟨.voter, localID, leaderAddr⟩])
      (registry localID ((changes events).take n)) := by
    intro n
    induction n with
    | zero => exact tracks_single hid (hapart 0).leader
    | succ n ih =>
        rw [List.take_add_one]
        rcases hch : (changes events)[n]? with _ | ch
        · simpa using ih
        · have hnext := hapart (n + 1)
          rw [List.take_add_one, hch] at hnext
          simp only [registry, Option.toList_some, List.foldl_append, List.foldl_cons,
            List.foldl_nil] at ih hnext ⊢
          exact handleChange_tracks ih
            (fun m hm => hnames m (hm ▸ List.mem_of_getElem? hch)) hnext
  have hall := hpart (changes events).length
  rwa [List.take_length] at hall

/-- A registry with one member is apart from the leader when the member's address is. -/
theorem apart_single {leaderAddr name a : String} (hleader : leaderAddr ≠ "") (ha : a ≠ "")
    (hne : a ≠ leaderAddr) :
    Apart leaderAddr (Function.update (fun _ => none) name (some a)) := by
  have hreg : ∀ {name' a'}, Function.update (fun _ : String => (none : Option String)) name (some a)
      name' = some a' → name' = name ∧ a' = a := by
    intro name' a' h
    by_cases hname : name' = name
    · subst hname
      rw [Function.update_self] at h
      exact ⟨rfl, (Option.some.inj h).symm⟩
    · rw [Function.update_of_ne hname] at h
      exact absurd h (by simp)
  refine ⟨hleader, fun _ a' h => ?_, fun _ a' h => ?_, fun _ _ _ h h' => ?_⟩
  · rw [(hreg h).2]
    exact ha
  · rw [(hreg h).2]
    exact hne
  · rw [(hreg h).1, (hreg h').1]

/-- The rule at work: a member joins, and joins again under another address. -/
theorem eventHandler_tracks_rejoin :
    Tracks "leader" "w"
      (eventHandler "leader" [⟨.voter, "leader", "w"⟩]
        [.memberJoin [⟨"a", [("rpc_addr", "x")]⟩], .memberJoin [⟨"a", [("rpc_addr", "y")]⟩]])
      (registry "leader" [.joined ⟨"a", [("rpc_addr", "x")]⟩,
        .joined ⟨"a", [("rpc_addr", "y")]⟩]) := by
  refine eventHandler_tracks (by decide) [.memberJoin [⟨"a", [("rpc_addr", "x")]⟩],
    .memberJoin [⟨"a", [("rpc_addr", "y")]⟩]] ?_ fun n => ?_
  · intro m hm
    have hcases : m = ⟨"a", [("rpc_addr", "x")]⟩ ∨ m = ⟨"a", [("rpc_addr", "y")]⟩ := by
      simpa [changes] using hm
    rcases hcases with rfl | rfl <;> decide
  rcases n with _ | _ | n
  · exact ⟨by decide, by simp [registry], by simp [registry], by simp [registry]⟩
  · exact apart_single (by decide) (by decide) (by decide)
  · have hboth : registry "leader" (changes [.memberJoin [⟨"a", [("rpc_addr", "x")]⟩],
        .memberJoin [⟨"a", [("rpc_addr", "y")]⟩]]) =
        Function.update (Function.update (fun _ => none) "a" (some "x")) "a" (some "y") := rfl
    rw [List.take_of_length_le (by simp [changes]), hboth, Function.update_idem]
    exact apart_single (by decide) (by decide) (by decide)

/-- **A member without a name is not tracked**: its address is not empty and differs from
the leader's, but raft refuses an empty id, and the configuration stays without it. -/
theorem nameless_member_not_tracked :
    (∀ n, Apart "w" (registry "leader"
        ((changes [.memberJoin [⟨"", [("rpc_addr", "x")]⟩]]).take n))) ∧
      registry "leader" (changes [.memberJoin [⟨"", [("rpc_addr", "x")]⟩]]) "" = some "x" ∧
      eventHandler "leader" [⟨.voter, "leader", "w"⟩]
          [.memberJoin [⟨"", [("rpc_addr", "x")]⟩]] = [⟨.voter, "leader", "w"⟩] ∧
      ¬Tracks "leader" "w"
        (eventHandler "leader" [⟨.voter, "leader", "w"⟩]
          [.memberJoin [⟨"", [("rpc_addr", "x")]⟩]])
        (registry "leader" (changes [.memberJoin [⟨"", [("rpc_addr", "x")]⟩]])) := by
  have hconf : eventHandler "leader" [⟨.voter, "leader", "w"⟩]
      [.memberJoin [⟨"", [("rpc_addr", "x")]⟩]] = [⟨.voter, "leader", "w"⟩] := by
    decide
  have hjoined : registry "leader" (changes [.memberJoin [⟨"", [("rpc_addr", "x")]⟩]]) =
      Function.update (fun _ => none) "" (some "x") := rfl
  have hreg : registry "leader" (changes [.memberJoin [⟨"", [("rpc_addr", "x")]⟩]]) "" =
      some "x" := rfl
  refine ⟨fun n => ?_, hreg, hconf, fun htracks => ?_⟩
  · rcases n with _ | n
    · exact ⟨by decide, by simp [registry], by simp [registry], by simp [registry]⟩
    · rw [List.take_of_length_le (by simp [changes]), hjoined]
      exact apart_single (by decide) (by decide) (by decide)
  · have hmem := (htracks.servers ⟨.voter, "", "x"⟩).mpr (.inr ⟨"", "x", hreg, rfl⟩)
    rw [hconf] at hmem
    exact absurd hmem (by decide)

end DistSql
