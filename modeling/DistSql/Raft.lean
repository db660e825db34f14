import Mathlib.Data.Finset.Insert
import Mathlib.Data.List.Nodup

/-!
# Raft Configurations

The membership of a raft cluster, as its leader changes it. A **configuration** is a list
of servers; adding a voter and removing a server each compute a new configuration, which
is refused when it is not valid: when an id or an address is empty or occurs twice, or
when no voter is left. An operation can also fail for reasons of its own, with or without
its change taking effect.

An entry of the log **commits** when a majority of the voters of the configuration in force
has acknowledged it; the entry that adds a voter puts a configuration with that voter in
force.

## Main results

* `Valid.removeServer`, `Valid.addVoter`: which changes keep a configuration valid.
* `mem_removeServer`, `addVoter_of_absent`: the servers after a change.
* `commits_without_new_iff`: when the entry that adds a voter can commit without it.
-/

namespace Raft

/-- The voting right of a server. -/
inductive Suffrage
  | voter
  | nonvoter
  | staging
  deriving DecidableEq, Repr

/-- A server of a configuration. -/
structure Server where
  suffrage : Suffrage
  id : String
  address : String
  deriving DecidableEq, Repr

/-- A configuration: the servers of a cluster, in the order in which they were added. -/
abbrev Configuration := List Server

/-- What is demanded of a configuration. -/
structure Valid (c : Configuration) : Prop where
  id_ne : ∀ srv ∈ c, srv.id ≠ ""
  address_ne : ∀ srv ∈ c, srv.address ≠ ""
  ids : (c.map Server.id).Nodup
  addresses : (c.map Server.address).Nodup
  hasVoter : ∃ srv ∈ c, srv.suffrage = .voter

instance (c : Configuration) : Decidable (Valid c) :=
  decidable_of_iff
    ((∀ srv ∈ c, srv.id ≠ "") ∧ (∀ srv ∈ c, srv.address ≠ "") ∧ (c.map Server.id).Nodup ∧
      (c.map Server.address).Nodup ∧ ∃ srv ∈ c, srv.suffrage = .voter)
    ⟨fun ⟨h₁, h₂, h₃, h₄, h₅⟩ => ⟨h₁, h₂, h₃, h₄, h₅⟩,
      fun h => ⟨h.id_ne, h.address_ne, h.ids, h.addresses, h.hasVoter⟩⟩

/-- The configuration after a voter was added: a server with its id becomes a voter at
the new address, else the voter stands at the end. -/
def addVoter (id address : String) : Configuration → Configuration
  | [] => [⟨.voter, id, address⟩]
  | srv :: rest =>
      if srv.id = id then ⟨.voter, id, address⟩ :: rest else srv :: addVoter id address rest

/-- The configuration without the server with an id, if it has one. -/
def removeServer (id : String) (c : Configuration) : Configuration :=
  c.filter fun srv => srv.id ≠ id

/-- The errors of an operation. -/
inductive Error
  | notLeader
  | invalid
  | other (msg : String)
  deriving DecidableEq, Repr

/-- A failure of an operation for a reason of its own: the error, and whether the change
takes effect all the same. -/
structure Fault where
  error : Error
  takesEffect : Bool
  deriving DecidableEq, Repr

/-- An operation that changes the configuration from `c` to `c'`: the configuration
afterwards, and the error of its future. -/
def issue (fault : Option Fault) (c c' : Configuration) : Configuration × Option Error :=
  match fault with
  | some f => (if f.takesEffect ∧ Valid c' then c' else c, some f.error)
  | none => if Valid c' then (c', none) else (c, some .invalid)

/-- An operation that does not fail for a reason of its own and whose configuration is
valid succeeds. -/
theorem issue_of_valid {c c' : Configuration} (h : Valid c') : issue none c c' = (c', none) :=
  if_pos h

/-- An operation whose configuration is not valid is refused. -/
theorem issue_of_not_valid {c c' : Configuration} (h : ¬Valid c') :
    issue none c c' = (c, some .invalid) :=
  if_neg h

/-- An operation whose configuration is not valid changes nothing, however it fails. -/
theorem issue_fst_of_not_valid {c c' : Configuration} (h : ¬Valid c') (fault : Option Fault) :
    (issue fault c c').1 = c ∧ (issue fault c c').2 ≠ none := by
  cases fault with
  | none => rw [issue_of_not_valid h]; simp
  | some f => simp [issue, h]

/-- When an operation succeeds. -/
theorem issue_eq_none_iff {fault : Option Fault} {c c' : Configuration} :
    (issue fault c c').2 = none ↔ fault = none ∧ Valid c' := by
  cases fault with
  | none =>
      by_cases hvalid : Valid c'
      · simp [issue, hvalid]
      · simp [issue, hvalid]
  | some f => simp [issue]

/-- An operation that changes nothing changes nothing. -/
theorem issue_self (fault : Option Fault) (c : Configuration) : (issue fault c c).1 = c := by
  cases fault with
  | none => rw [issue]; split <;> rfl
  | some f => simp [issue]

/-- The configuration after an operation is the old one or the new one. -/
theorem issue_fst (fault : Option Fault) (c c' : Configuration) :
    (issue fault c c').1 = c ∨ (issue fault c c').1 = c' := by
  cases fault with
  | none =>
      rw [issue]
      split
      · exact .inr rfl
      · exact .inl rfl
  | some f =>
      simp only [issue]
      split
      · exact .inr rfl
      · exact .inl rfl

/-! ### The servers after a change -/

/-- The servers that are left are those with another id. -/
@[simp] theorem mem_removeServer {id : String} {c : Configuration} {srv : Server} :
    srv ∈ removeServer id c ↔ srv ∈ c ∧ srv.id ≠ id := by
  simp [removeServer]

/-- Removing an id that is absent changes nothing. -/
theorem removeServer_of_absent {id : String} {c : Configuration} (h : ∀ srv ∈ c, srv.id ≠ id) :
    removeServer id c = c :=
  List.filter_eq_self.mpr fun srv hsrv => by simpa using h srv hsrv

/-- Removing an id twice is removing it once. -/
@[simp] theorem removeServer_removeServer (id : String) (c : Configuration) :
    removeServer id (removeServer id c) = removeServer id c :=
  removeServer_of_absent fun _ hsrv => (mem_removeServer.mp hsrv).2

/-- A voter with a new id is added at the end. -/
theorem addVoter_of_absent {id address : String} {c : Configuration}
    (h : ∀ srv ∈ c, srv.id ≠ id) : addVoter id address c = c ++ [⟨.voter, id, address⟩] := by
  induction c with
  | nil => rfl
  | cons srv rest ih =>
      rw [addVoter, if_neg (h srv List.mem_cons_self),
        ih fun srv' h' => h srv' (List.mem_cons_of_mem srv h')]
      rfl

/-- The voter that was added is there. -/
theorem mem_addVoter_self (id address : String) (c : Configuration) :
    (⟨.voter, id, address⟩ : Server) ∈ addVoter id address c := by
  induction c with
  | nil => exact List.mem_cons_self
  | cons srv rest ih =>
      rw [addVoter]
      split
      · exact List.mem_cons_self
      · exact List.mem_cons_of_mem srv ih

/-- A server with another id stays there when a voter is added. -/
theorem mem_addVoter_of_mem {id address : String} {c : Configuration} {srv : Server}
    (hsrv : srv ∈ c) (hid : srv.id ≠ id) : srv ∈ addVoter id address c := by
  induction c with
  | nil => exact absurd hsrv List.not_mem_nil
  | cons srv' rest ih =>
      rw [addVoter]
      split
      · rename_i heq
        rcases List.mem_cons.mp hsrv with rfl | hrest
        · exact absurd heq hid
        · exact List.mem_cons_of_mem _ hrest
      · rcases List.mem_cons.mp hsrv with rfl | hrest
        · exact List.mem_cons_self
        · exact List.mem_cons_of_mem _ (ih hrest)

/-! ### Valid configurations -/

/-- Two servers of a valid configuration with one id are the same. -/
theorem Valid.eq_of_id {c : Configuration} (h : Valid c) {srv srv' : Server} (hs : srv ∈ c)
    (hs' : srv' ∈ c) (hid : srv.id = srv'.id) : srv = srv' :=
  List.inj_on_of_nodup_map h.ids hs hs' hid

/-- Two servers of a valid configuration with one address are the same. -/
theorem Valid.eq_of_address {c : Configuration} (h : Valid c) {srv srv' : Server}
    (hs : srv ∈ c) (hs' : srv' ∈ c) (haddr : srv.address = srv'.address) : srv = srv' :=
  List.inj_on_of_nodup_map h.addresses hs hs' haddr

/-- A server that has both an id and an address is the only one that has either. -/
theorem Valid.eq_of_conflict {c : Configuration} (h : Valid c) {id address : String}
    {srv srv' : Server} (hs : srv ∈ c) (hs' : srv' ∈ c) (hid : srv.id = id)
    (haddr : srv.address = address) (hor : srv'.id = id ∨ srv'.address = address) :
    srv' = srv := by
  rcases hor with hid' | haddr'
  · exact h.eq_of_id hs' hs (hid'.trans hid.symm)
  · exact h.eq_of_address hs' hs (haddr'.trans haddr.symm)

/-- The servers of a valid configuration are distinct. -/
theorem Valid.nodup {c : Configuration} (h : Valid c) : c.Nodup := h.ids.of_map _

/-- A removal that leaves a voter keeps a configuration valid. -/
theorem Valid.removeServer {c : Configuration} (h : Valid c) {id : String} {voter : Server}
    (hvoter : voter ∈ c) (hsuffrage : voter.suffrage = .voter) (hid : voter.id ≠ id) :
    Valid (removeServer id c) := by
  have hsub : List.Sublist (Raft.removeServer id c) c := List.filter_sublist
  exact ⟨fun srv hs => h.id_ne srv (hsub.subset hs),
    fun srv hs => h.address_ne srv (hsub.subset hs), h.ids.sublist (hsub.map _),
    h.addresses.sublist (hsub.map _),
    voter, mem_removeServer.mpr ⟨hvoter, hid⟩, hsuffrage⟩

/-- A voter whose id and address are new and not empty keeps a configuration valid. -/
theorem Valid.addVoter {c : Configuration} (h : Valid c) {id address : String}
    (hid : id ≠ "") (haddr : address ≠ "")
    (hnew : ∀ srv ∈ c, srv.id ≠ id ∧ srv.address ≠ address) :
    Valid (addVoter id address c) := by
  rw [addVoter_of_absent fun srv hs => (hnew srv hs).1]
  refine ⟨?_, ?_, ?_, ?_, ?_⟩
  · intro srv hs
    rcases List.mem_append.mp hs with hold | hlast
    · exact h.id_ne srv hold
    · rw [List.mem_singleton.mp hlast]
      exact hid
  · intro srv hs
    rcases List.mem_append.mp hs with hold | hlast
    · exact h.address_ne srv hold
    · rw [List.mem_singleton.mp hlast]
      exact haddr
  · rw [List.map_append, List.nodup_append]
    refine ⟨h.ids, List.nodup_singleton _, fun a ha b hb => ?_⟩
    obtain ⟨srv, hs, rfl⟩ := List.mem_map.mp ha
    rw [List.mem_singleton.mp hb]
    exact (hnew srv hs).1
  · rw [List.map_append, List.nodup_append]
    refine ⟨h.addresses, List.nodup_singleton _, fun a ha b hb => ?_⟩
    obtain ⟨srv, hs, rfl⟩ := List.mem_map.mp ha
    rw [List.mem_singleton.mp hb]
    exact (hnew srv hs).2
  · obtain ⟨srv, hs, hsuff⟩ := h.hasVoter
    exact ⟨srv, List.mem_append_left _ hs, hsuff⟩

/-- When a voter with a new id can be added: its id and its address are not empty, and the
address is new too. -/
theorem Valid.addVoter_iff {c : Configuration} (h : Valid c) {id address : String}
    (habsent : ∀ srv ∈ c, srv.id ≠ id) :
    Valid (Raft.addVoter id address c) ↔
      id ≠ "" ∧ address ≠ "" ∧ ∀ srv ∈ c, srv.address ≠ address := by
  refine ⟨fun hvalid => ?_, fun ⟨hid, haddr, hnew⟩ =>
    h.addVoter hid haddr fun srv hs => ⟨habsent srv hs, hnew srv hs⟩⟩
  have hvoter := mem_addVoter_self id address c
  refine ⟨hvalid.id_ne _ hvoter, hvalid.address_ne _ hvoter, fun srv hs haddr => ?_⟩
  have hmem := @mem_addVoter_of_mem id address c srv hs (habsent srv hs)
  exact habsent srv hs (by rw [hvalid.eq_of_address hmem hvoter haddr])

/-! ### Majorities -/

/-- The voters of a configuration. -/
def voters (c : Configuration) : List Server := c.filter fun srv => srv.suffrage = .voter

/-- The size of a majority of so many voters. -/
def quorum (n : ℕ) : ℕ := n / 2 + 1

/-- The servers with these ids are enough to **commit** an entry. -/
def Commits (c : Configuration) (acks : Finset String) : Prop :=
  quorum (voters c).length ≤ ((voters c).filter fun srv => srv.id ∈ acks).length

instance (c : Configuration) (acks : Finset String) : Decidable (Commits c acks) :=
  inferInstanceAs (Decidable (_ ≤ _))

/-- A new voter is one voter more. -/
theorem voters_addVoter_of_absent {id address : String} {c : Configuration}
    (h : ∀ srv ∈ c, srv.id ≠ id) :
    voters (addVoter id address c) = voters c ++ [⟨.voter, id, address⟩] := by
  rw [addVoter_of_absent h, voters, List.filter_append]
  rfl

/-- Two or more old voters are enough for the entry that adds another one. -/
theorem commits_of_old {id address : String} {c : Configuration} (h : ∀ srv ∈ c, srv.id ≠ id)
    {acks : Finset String} (hall : ∀ srv ∈ voters c, srv.id ∈ acks)
    (htwo : 2 ≤ (voters c).length) : Commits (addVoter id address c) acks := by
  have hfilter : ((voters c).filter fun srv => srv.id ∈ acks) = voters c :=
    List.filter_eq_self.mpr fun srv hs => by simpa using hall srv hs
  rw [Commits, voters_addVoter_of_absent h, List.filter_append, hfilter, quorum,
    List.length_append, List.length_append, List.length_singleton]
  omega

/-- **When the entry that adds a voter can commit without it**: exactly when there are at
least two voters before. -/
theorem commits_without_new_iff {id address : String} {c : Configuration}
    (h : ∀ srv ∈ c, srv.id ≠ id) :
    (∃ acks, id ∉ acks ∧ Commits (addVoter id address c) acks) ↔ 2 ≤ (voters c).length := by
  constructor
  · rintro ⟨acks, hid, hcommits⟩
    have hnew : ([⟨.voter, id, address⟩] : List Server).filter (fun srv => srv.id ∈ acks) = [] := by
      simp [hid]
    rw [Commits, voters_addVoter_of_absent h, List.filter_append, hnew, List.append_nil, quorum,
      List.length_append, List.length_singleton] at hcommits
    have hold : ((voters c).filter fun srv => srv.id ∈ acks).length ≤ (voters c).length :=
      List.length_filter_le _ _
    omega
  · intro htwo
    refine ⟨((voters c).map Server.id).toFinset, fun hmem => ?_,
      commits_of_old h (fun srv hs => List.mem_toFinset.mpr (List.mem_map_of_mem hs)) htwo⟩
    obtain ⟨srv, hs, hsrv⟩ := List.mem_map.mp (List.mem_toFinset.mp hmem)
    exact h srv (List.mem_filter.mp hs).1 hsrv

end Raft
