import DistSql.Membership

/-!
# Conflicts and Failures in `Consensus.Join`

`Join` reads the configuration, removes what is in the way, and adds the joining node. A
server is in the way when it has the id or the address of the joining node. The loop that
removes walks over the configuration as it was read, and whatever server it meets, it is
the joining **id** that it asks raft to remove.

So a server that stands at the address under another id is never removed, and raft refuses
the addition as a duplicate address. And what was removed before a refusal stays removed.

## Main results

* `evict_absent`, `evict_conflict`: the loop, with any pattern of failures.
* `join_nil_iff`: when `Join` succeeds, by the configuration and the failures.
* `join_replaces_iff`: when `Join` replaces what is in its way.
* `foreign_address_refused`: a server at the joining address, under another id.
* `join_failure_harmless_iff`: when a failed `Join` leaves the servers as they were, again by
  the configuration and the failures.
* `refused_addition_drops_server`: a `Join` that fails and loses a server.
-/

open Raft

namespace DistSql

/-- A configuration of the node with this id and address, which leads: it is valid, and the
leader votes. -/
structure Led (localID leaderAddr : String) (c : Configuration) : Prop where
  valid : Valid c
  leader : (⟨.voter, localID, leaderAddr⟩ : Server) ∈ c

/-- Removing another node keeps the configuration valid. -/
theorem Led.valid_removeServer {localID leaderAddr id : String} {c : Configuration}
    (h : Led localID leaderAddr c) (hself : id ≠ localID) : Valid (removeServer id c) :=
  h.valid.removeServer h.leader rfl hself.symm

/-! ### The loop under failures -/

section Loop

variable {faults : ℕ → Option Fault} {id addr : String}

/-- **Where no server has the id**, the loop removes nothing. Induction on the servers that
were read; each removal asks for the configuration as it is. -/
theorem evict_absent {c : Configuration} (hc : ∀ srv ∈ c, srv.id ≠ id) (old : List Server)
    (n : ℕ) : (evict faults id addr old n c).1 = c := by
  induction old generalizing n with
  | nil => rfl
  | cons srv rest ih =>
      have hissue : (issue (faults n) c (removeServer id c)).1 = c := by
        rw [removeServer_of_absent hc]
        exact issue_self (faults n) c
      rw [evict]
      split
      · split
        · rfl
        · rcases hres : issue (faults n) c (removeServer id c) with ⟨c', _ | e⟩
          · obtain rfl : c' = c := by rw [hres] at hissue; exact hissue
            exact ih (n + 1)
          · rw [hres] at hissue
            exact hissue
      · exact ih n

/-- **With a server that is in the way**, the first removal decides: if it fails, the loop
fails, and has removed the id only if the removal took effect in spite of it; if it
succeeds, the id is removed, whatever comes later. -/
theorem evict_conflict {c : Configuration} (hrem : Valid (removeServer id c))
    {old : List Server} (n : ℕ) (hboth : ∀ srv ∈ old, ¬(srv.id = id ∧ srv.address = addr))
    (hconflict : ∃ srv ∈ old, srv.id = id ∨ srv.address = addr) :
    (∀ f, faults n = some f → evict faults id addr old n c =
      (if f.takesEffect then removeServer id c else c, .failed f.error)) ∧
    (faults n = none → (evict faults id addr old n c).1 = removeServer id c) := by
  induction old with
  | nil =>
      obtain ⟨srv, hsrv, -⟩ := hconflict
      exact absurd hsrv List.not_mem_nil
  | cons srv rest ih =>
      by_cases hsrv : srv.id = id ∨ srv.address = addr
      · rw [evict, if_pos hsrv, if_neg (hboth srv List.mem_cons_self)]
        constructor
        · intro f hf
          simp [hf, issue, hrem]
        · intro hnone
          rw [hnone, issue_of_valid hrem]
          exact evict_absent (fun srv' h => (mem_removeServer.mp h).2) rest (n + 1)
      · rw [evict, if_neg hsrv]
        refine ih (fun srv' h => hboth srv' (List.mem_cons_of_mem srv h)) ?_
        obtain ⟨srv', hmem, hor⟩ := hconflict
        rcases List.mem_cons.mp hmem with rfl | hrest
        · exact absurd hor hsrv
        · exact ⟨srv', hrest, hor⟩

/-- The loop passes over servers that are not in the way. -/
theorem evict_append_free {c : Configuration} {old : List Server} (n : ℕ)
    (hfree : ∀ srv ∈ old, ¬(srv.id = id ∨ srv.address = addr)) (more : List Server) :
    evict faults id addr (old ++ more) n c = evict faults id addr more n c := by
  induction old with
  | nil => rfl
  | cons srv rest ih =>
      rw [List.cons_append, evict, if_neg (hfree srv List.mem_cons_self)]
      exact ih fun srv' h => hfree srv' (List.mem_cons_of_mem srv h)

/-- The loop keeps every server that has another id. -/
theorem mem_evict {srv : Server} (hid : srv.id ≠ id) (old : List Server) (n : ℕ)
    {c : Configuration} (hsrv : srv ∈ c) : srv ∈ (evict faults id addr old n c).1 := by
  have hkept : ∀ (n : ℕ) {c : Configuration}, srv ∈ c →
      srv ∈ (issue (faults n) c (removeServer id c)).1 := by
    intro n c hsrv
    rcases issue_fst (faults n) c (removeServer id c) with hold | hnew
    · rwa [hold]
    · rw [hnew]
      exact mem_removeServer.mpr ⟨hsrv, hid⟩
  induction old generalizing n c with
  | nil => exact hsrv
  | cons srv' rest ih =>
      rw [evict]
      split
      · split
        · exact hsrv
        · rcases hres : issue (faults n) c (removeServer id c) with ⟨c', _ | e⟩ <;>
            have hmem := hkept n hsrv <;> rw [hres] at hmem
          · exact ih (n + 1) hmem
          · exact hmem
      · exact ih n hsrv

/-- The loop finds the node in the cluster only if a server has both its id and its
address. -/
theorem evict_already {old : List Server} {n : ℕ} {c c' : Configuration}
    (h : evict faults id addr old n c = (c', .already)) :
    ∃ srv ∈ old, srv.id = id ∧ srv.address = addr := by
  induction old generalizing n c with
  | nil => simp [evict] at h
  | cons srv rest ih =>
      rw [evict] at h
      split at h
      · split at h
        · exact ⟨srv, List.mem_cons_self, ‹_›⟩
        · split at h
          · simp at h
          · obtain ⟨srv', hmem, hboth⟩ := ih h
            exact ⟨srv', List.mem_cons_of_mem srv hmem, hboth⟩
      · obtain ⟨srv', hmem, hboth⟩ := ih h
        exact ⟨srv', List.mem_cons_of_mem srv hmem, hboth⟩

/-- **The loop over one server that has the id**, at another address: one removal, which
decides. -/
theorem evict_one {c : Configuration} (hc : Valid c) (hrem : Valid (removeServer id c))
    {srv : Server} (hsrv : srv ∈ c) (hid : srv.id = id) (haddr : ∀ srv ∈ c, srv.address ≠ addr) :
    (∀ f, faults 1 = some f → ∃ c' e, evict faults id addr c 1 c = (c', .failed e)) ∧
      (faults 1 = none → evict faults id addr c 1 c = (removeServer id c, .through 2)) := by
  obtain ⟨before, after, hsplit⟩ := List.append_of_mem hsrv
  have hfree : ∀ srv' ∈ c, srv' ≠ srv → ¬(srv'.id = id ∨ srv'.address = addr) := by
    rintro srv' hs' hne (hid' | haddr')
    · exact hne (hc.eq_of_id hs' hsrv (hid'.trans hid.symm))
    · exact haddr srv' hs' haddr'
  have hnodup := hc.nodup
  rw [hsplit] at hnodup
  obtain ⟨-, hafter, hdisjoint⟩ := List.nodup_append.mp hnodup
  have hbefore : ∀ srv' ∈ before, ¬(srv'.id = id ∨ srv'.address = addr) := fun srv' h' =>
    hfree srv' (hsplit ▸ List.mem_append_left _ h') (hdisjoint srv' h' srv List.mem_cons_self)
  have hrest : ∀ srv' ∈ after, ¬(srv'.id = id ∨ srv'.address = addr) := fun srv' h' =>
    hfree srv' (hsplit ▸ List.mem_append_right _ (List.mem_cons_of_mem srv h'))
      fun heq => (List.nodup_cons.mp hafter).1 (heq ▸ h')
  have hloop : evict faults id addr c 1 c = evict faults id addr (srv :: after) 1 c := by
    conv_lhs => arg 4; rw [hsplit]
    exact evict_append_free 1 hbefore _
  rw [hloop, evict, if_pos (.inl hid), if_neg fun hboth => haddr srv hsrv hboth.2]
  constructor
  · intro f hf
    simp [hf, issue]
  · intro hnone
    rw [hnone, issue_of_valid hrem]
    exact evict_free 2 hrest

end Loop

/-! ### Replacing what is in the way -/

section Replace

variable {localID leaderAddr id addr : String} {c : Configuration}

/-- The servers that a join of this id and address leaves alone. -/
def others (id addr : String) (c : Configuration) : Configuration :=
  c.filter fun srv => srv.id ≠ id ∧ srv.address ≠ addr

/-- `Join` **replaces** what is in its way: it succeeds, leaves the other servers and the
joining voter, and changes nothing when it is repeated. -/
structure Replaces (localID id addr : String) (c : Configuration) : Prop where
  succeeds : (Consensus.join (fun _ => none) true localID id addr c).2 = none
  servers : (Consensus.join (fun _ => none) true localID id addr c).1.Perm
    (others id addr c ++ [⟨.voter, id, addr⟩])
  again : Consensus.join (fun _ => none) true localID id addr
      (Consensus.join (fun _ => none) true localID id addr c).1 =
    ((Consensus.join (fun _ => none) true localID id addr c).1, none)

/-- `Join` of a node that is in the cluster changes nothing. -/
theorem join_of_present {faults : ℕ → Option Fault} (h : Valid c) (hself : id ≠ localID)
    (hread : faults 0 = none) {srv : Server} (hs : srv ∈ c) (hid : srv.id = id)
    (haddr : srv.address = addr) : Consensus.join faults true localID id addr c = (c, none) :=
  join_of_already hself hread <| evict_of_present hid haddr c 1 hs fun _ hs' hor =>
    h.eq_of_conflict hs hs' hid haddr hor

/-- The servers of a valid configuration are the one that has both, and the others. -/
theorem perm_others (h : Valid c) {srv : Server} (hs : srv ∈ c) (hid : srv.id = id)
    (haddr : srv.address = addr) : c.Perm (others id addr c ++ [srv]) := by
  have hiff : ∀ x ∈ c, (!decide (x.id ≠ id ∧ x.address ≠ addr)) = decide (x = srv) := by
    intro x hx
    by_cases hxs : x = srv
    · simp [hxs, hid]
    · have hfree : ¬(x.id = id ∨ x.address = addr) := fun hor =>
        hxs (h.eq_of_conflict hs hx hid haddr hor)
      simp [not_or.mp hfree, hxs]
  have hrest : c.filter (fun x => !decide (x.id ≠ id ∧ x.address ≠ addr)) = [srv] := by
    rw [List.filter_congr hiff, List.filter_eq, List.count_eq_one_of_mem h.nodup hs]
    rfl
  have hperm := List.filter_append_perm (fun x => decide (x.id ≠ id ∧ x.address ≠ addr)) c
  rw [hrest] at hperm
  exact hperm.symm

/-- **The loop without failures**, where no server has both: it leaves the configuration
without the joining id. -/
theorem evict_removes (h : Led localID leaderAddr c) (hself : id ≠ localID)
    (hboth : ∀ srv ∈ c, ¬(srv.id = id ∧ srv.address = addr)) :
    ∃ n, evict (fun _ => none) id addr c 1 c = (removeServer id c, .through n) := by
  obtain ⟨n, hevict⟩ := evict_of_differing h.valid (h.valid_removeServer hself) c 1 hboth
  refine ⟨n, hevict.trans ?_⟩
  split
  · rfl
  · rename_i hno
    rw [removeServer_of_absent fun srv hsrv hid => hno ⟨srv, hsrv, .inl hid⟩]

/-- **When `Join` replaces what is in its way**: exactly when the server at the joining
address, if there is one, is a voter with the joining id. -/
theorem join_replaces_iff (h : Led localID leaderAddr c) (hid : id ≠ "") (hself : id ≠ localID)
    (haddr : addr ≠ "") :
    Replaces localID id addr c ↔
      ∀ srv ∈ c, srv.address = addr → srv.id = id ∧ srv.suffrage = .voter := by
  constructor
  · intro hrep srv hsrv hat
    by_cases hsid : srv.id = id
    · -- the server has both, so nothing was changed, and it must be the voter itself
      refine ⟨hsid, ?_⟩
      have hservers := hrep.servers
      rw [join_of_present h.valid hself rfl hsrv hsid hat] at hservers
      have hvoter : (⟨.voter, id, addr⟩ : Server) ∈ c :=
        hservers.mem_iff.mpr (List.mem_append_right _ (List.mem_singleton_self _))
      rw [h.valid.eq_of_id hsrv hvoter hsid]
    · -- it is not removed, and the addition is a duplicate
      have hboth : ∀ srv' ∈ c, ¬(srv'.id = id ∧ srv'.address = addr) := by
        rintro srv' hsrv' ⟨hid', hat'⟩
        rw [h.valid.eq_of_address hsrv' hsrv (hat'.trans hat.symm)] at hid'
        exact hsid hid'
      obtain ⟨n, hevict⟩ := evict_removes h hself hboth
      have hkept : srv ∈ removeServer id c := mem_removeServer.mpr ⟨hsrv, hsid⟩
      have hdup : ¬Valid (addVoter id addr (removeServer id c)) := by
        intro hvalid
        rw [addVoter_of_absent fun srv' h' => (mem_removeServer.mp h').2] at hvalid
        have heq := hvalid.eq_of_address (List.mem_append_left _ hkept)
          (List.mem_append_right _ (List.mem_singleton_self (⟨.voter, id, addr⟩ : Server))) hat
        rw [heq] at hsid
        exact hsid rfl
      have hnil := (join_of_through hself rfl hevict).2.mp hrep.succeeds
      rw [issue_of_not_valid hdup] at hnil
      exact absurd hnil (by simp)
  · intro hat
    by_cases hthere : ∃ srv ∈ c, srv.address = addr
    · obtain ⟨srv, hsrv, haddr'⟩ := hthere
      obtain ⟨hsid, hsuff⟩ := hat srv hsrv haddr'
      have hjoin : Consensus.join (fun _ => none) true localID id addr c = (c, none) :=
        join_of_present h.valid hself rfl hsrv hsid haddr'
      obtain rfl : srv = ⟨.voter, id, addr⟩ := by
        rw [← hsid, ← haddr', ← hsuff]
      refine ⟨by rw [hjoin], ?_, by rw [hjoin, hjoin]⟩
      rw [hjoin]
      exact perm_others h.valid hsrv rfl rfl
    · have hnone : ∀ srv ∈ c, srv.address ≠ addr := fun srv hs ha => hthere ⟨srv, hs, ha⟩
      obtain ⟨n, hevict⟩ := evict_removes h hself fun srv hs hb => hnone srv hs hb.2
      have hnew : ∀ srv ∈ removeServer id c, srv.id ≠ id ∧ srv.address ≠ addr := by
        intro srv hs
        obtain ⟨hmem, hne⟩ := mem_removeServer.mp hs
        exact ⟨hne, hnone srv hmem⟩
      have hvalid : Valid (addVoter id addr (removeServer id c)) :=
        (h.valid_removeServer hself).addVoter hid haddr hnew
      obtain ⟨hservers, hnil⟩ := join_of_through hself rfl hevict
      rw [issue_of_valid hvalid] at hservers hnil
      refine ⟨hnil.mpr rfl, ?_, ?_⟩
      · rw [hservers, addVoter_of_absent fun srv hs => (hnew srv hs).1]
        have hothers : others id addr c = removeServer id c :=
          List.filter_congr fun srv hs => by simp [hnone srv hs]
        rw [hothers]
      · rw [hservers]
        exact join_of_present hvalid hself rfl (mem_addVoter_self id addr _) rfl rfl

/-- The rule at work: a node comes back under another address. -/
theorem join_replaces_moved :
    Replaces "leader" "a" "y" [⟨.voter, "leader", "w"⟩, ⟨.voter, "a", "x"⟩] := by
  refine (@join_replaces_iff "leader" "w" "a" "y" _ ⟨by decide, by decide⟩ (by decide)
    (by decide) (by decide)).mpr ?_
  decide

/-- **A server at the joining address, under another id, is never removed**: raft refuses the
addition, and the node does not join. -/
theorem foreign_address_refused :
    Led "leader" "w" [⟨.voter, "leader", "w"⟩, ⟨.voter, "b", "x"⟩] ∧
      Consensus.join (fun _ => none) true "leader" "a" "x"
          [⟨.voter, "leader", "w"⟩, ⟨.voter, "b", "x"⟩] =
        ([⟨.voter, "leader", "w"⟩, ⟨.voter, "b", "x"⟩], some (.raft .invalid)) ∧
      ¬Replaces "leader" "a" "x" [⟨.voter, "leader", "w"⟩, ⟨.voter, "b", "x"⟩] := by
  refine ⟨⟨by decide, by decide⟩, by decide, fun h => ?_⟩
  exact absurd h.succeeds (by decide)

end Replace

/-! ### Failing without a trace -/

section Failure

variable {localID leaderAddr id addr : String} {c : Configuration} {faults : ℕ → Option Fault}

/-- A failed `Join` is **harmless**: if it returns an error, the servers are the same as
before, with their ids, addresses and voting rights. -/
def FailsHarmlessly (faults : ℕ → Option Fault) (localID id addr : String)
    (c : Configuration) : Prop :=
  (Consensus.join faults true localID id addr c).2 ≠ none →
    ∀ srv, srv ∈ (Consensus.join faults true localID id addr c).1 ↔ srv ∈ c

/-- The id and the address can be **added**: neither is empty, and no server stands at the
address. -/
def Addable (id addr : String) (c : Configuration) : Prop :=
  id ≠ "" ∧ addr ≠ "" ∧ ∀ srv ∈ c, srv.address ≠ addr

instance (id addr : String) (c : Configuration) : Decidable (Addable id addr c) :=
  inferInstanceAs (Decidable (_ ∧ _))

/-- `Join` **comes through**: a server has both the id and the address, or the two can be
added and no change fails, of which there are two where a server has the id. -/
def ComesThrough (faults : ℕ → Option Fault) (id addr : String) (c : Configuration) : Prop :=
  (∃ srv ∈ c, srv.id = id ∧ srv.address = addr) ∨
    (Addable id addr c ∧ faults 1 = none ∧ ((∃ srv ∈ c, srv.id = id) → faults 2 = none))

/-- `Join` fails **early**: the node is asked to join itself, or the configuration cannot be
read, or the first change fails without taking effect, or no server has the id and the voter
cannot be added. -/
def FailsEarly (faults : ℕ → Option Fault) (localID id addr : String) (c : Configuration) :
    Prop :=
  id = localID ∨ faults 0 ≠ none ∨ (∃ f, faults 1 = some f ∧ f.takesEffect = false) ∨
    ((∀ srv ∈ c, srv.id ≠ id) ∧ ¬Addable id addr c)

/-- Where no server has the id, raft refuses exactly what cannot be added. -/
theorem addable_iff (hc : Valid c) (habsent : ∀ srv ∈ c, srv.id ≠ id) :
    Addable id addr c ↔ Valid (addVoter id addr c) :=
  (hc.addVoter_iff habsent).symm

/-- **When `Join` succeeds**, if it is not asked to join itself and can read the
configuration. -/
theorem join_nil_iff (h : Led localID leaderAddr c) (hself : id ≠ localID)
    (hread : faults 0 = none) :
    (Consensus.join faults true localID id addr c).2 = none ↔ ComesThrough faults id addr c := by
  by_cases hboth : ∃ srv ∈ c, srv.id = id ∧ srv.address = addr
  · obtain ⟨srv, hsrv, hid, haddr⟩ := hboth
    rw [join_of_present h.valid hself hread hsrv hid haddr]
    exact iff_of_true rfl (.inl ⟨srv, hsrv, hid, haddr⟩)
  have hthrough : ComesThrough faults id addr c ↔
      Addable id addr c ∧ faults 1 = none ∧ ((∃ srv ∈ c, srv.id = id) → faults 2 = none) :=
    or_iff_right hboth
  rw [hthrough]
  by_cases hat : ∃ srv ∈ c, srv.address = addr
  · -- the server at the address is never removed, and the addition is a duplicate
    obtain ⟨srv, hsrv, haddr⟩ := hat
    refine iff_of_false (fun hnil => ?_) fun hadd => hadd.1.2.2 srv hsrv haddr
    have hid : srv.id ≠ id := fun hid => hboth ⟨srv, hsrv, hid, haddr⟩
    have hkept := @mem_evict faults id addr srv hid c 1 c hsrv
    rcases hevict : evict faults id addr c 1 c with ⟨c', n | _ | e⟩ <;> rw [hevict] at hkept
    · have hvalid := (issue_eq_none_iff.mp ((join_of_through hself hread hevict).2.mp hnil)).2
      have heq := hvalid.eq_of_address (mem_addVoter_of_mem hkept hid)
        (mem_addVoter_self id addr c') haddr
      exact hid (by rw [heq])
    · exact hboth (evict_already hevict)
    · rw [join_of_failed hself hread hevict] at hnil
      exact absurd hnil (by simp)
  have hat' : ∀ srv ∈ c, srv.address ≠ addr := fun srv hs ha => hat ⟨srv, hs, ha⟩
  have hrem := h.valid_removeServer hself
  have hvalid : Valid (addVoter id addr (removeServer id c)) ↔ Addable id addr c := by
    rw [hrem.addVoter_iff fun srv hs => (mem_removeServer.mp hs).2]
    refine ⟨fun ⟨hid, haddr, _⟩ => ⟨hid, haddr, hat'⟩, fun ⟨hid, haddr, _⟩ => ⟨hid, haddr, ?_⟩⟩
    exact fun srv hs => hat' srv (mem_removeServer.mp hs).1
  by_cases hhas : ∃ srv ∈ c, srv.id = id
  · obtain ⟨srv, hsrv, hid⟩ := hhas
    obtain ⟨hfails, hremoves⟩ := @evict_one faults id addr c h.valid hrem srv hsrv hid hat'
    rcases hf : faults 1 with _ | f
    · rw [(join_of_through hself hread (hremoves hf)).2, issue_eq_none_iff, hvalid]
      exact ⟨fun ⟨hnone, hadd⟩ => ⟨hadd, rfl, fun _ => hnone⟩,
        fun ⟨hadd, _, hnone⟩ => ⟨hnone ⟨srv, hsrv, hid⟩, hadd⟩⟩
    · obtain ⟨c', e, hevict⟩ := hfails f hf
      rw [join_of_failed hself hread hevict]
      simp
  · have habsent : ∀ srv ∈ c, srv.id ≠ id := fun srv hs hid => hhas ⟨srv, hs, hid⟩
    have hevict : evict faults id addr c 1 c = (c, .through 1) :=
      evict_free 1 fun srv hs hor => hor.elim (habsent srv hs) (hat' srv hs)
    rw [(join_of_through hself hread hevict).2, issue_eq_none_iff, ← addable_iff h.valid habsent]
    exact ⟨fun ⟨hnone, hadd⟩ => ⟨hadd, hnone, fun hhas' => absurd hhas' hhas⟩,
      fun ⟨hadd, hnone, _⟩ => ⟨hnone, hadd⟩⟩

/-- **Where no server has the id**, `Join` adds the voter, or leaves the servers as they
were. -/
theorem join_absent (hself : id ≠ localID) (hread : faults 0 = none)
    (habsent : ∀ srv ∈ c, srv.id ≠ id) :
    (Consensus.join faults true localID id addr c).1 = c ∨
      ∃ n, (Consensus.join faults true localID id addr c).1 =
        (issue (faults n) c (addVoter id addr c)).1 := by
  rcases hevict : evict faults id addr c 1 c with ⟨c', n | _ | e⟩
  all_goals
    obtain rfl : c' = c := by
      have hfst := @evict_absent faults id addr c habsent c 1
      rwa [hevict] at hfst
  · exact .inr ⟨n, (join_of_through hself hread hevict).1⟩
  · exact .inl (by rw [join_of_already hself hread hevict])
  · exact .inl (by rw [join_of_failed hself hread hevict])

/-- **Where the first change fails without taking effect**, `Join` changes nothing. -/
theorem join_first_ineffective (h : Led localID leaderAddr c) (hself : id ≠ localID)
    (hread : faults 0 = none) {f : Fault} (hf : faults 1 = some f)
    (heffect : f.takesEffect = false) :
    (Consensus.join faults true localID id addr c).1 = c := by
  by_cases hboth : ∃ srv ∈ c, srv.id = id ∧ srv.address = addr
  · obtain ⟨srv, hsrv, hid, haddr⟩ := hboth
    rw [join_of_present h.valid hself hread hsrv hid haddr]
  by_cases hconflict : ∃ srv ∈ c, srv.id = id ∨ srv.address = addr
  · have hevict := (@evict_conflict faults id addr c (h.valid_removeServer hself) c 1
      (fun srv hs hb => hboth ⟨srv, hs, hb⟩) hconflict).1 f hf
    rw [heffect] at hevict
    rw [join_of_failed hself hread hevict]
    rfl
  · have hevict : evict faults id addr c 1 c = (c, .through 1) :=
      evict_free 1 fun srv hs hor => hconflict ⟨srv, hs, hor⟩
    rw [(join_of_through hself hread hevict).1]
    simp [issue, hf, heffect]

/-- **Once the joining id was removed**, a `Join` that fails has lost a server, or moved
it. -/
theorem join_removed_changes (h : Valid c) (hself : id ≠ localID) (hread : faults 0 = none)
    (hfailed : (Consensus.join faults true localID id addr c).2 ≠ none) {srv : Server}
    (hsrv : srv ∈ c) (hid : srv.id = id) (haddr : srv.address ≠ addr)
    (hevict : (evict faults id addr c 1 c).1 = removeServer id c) :
    ¬∀ srv', srv' ∈ (Consensus.join faults true localID id addr c).1 ↔ srv' ∈ c := by
  intro hsame
  have hgone : srv ∉ removeServer id c := fun hmem => (mem_removeServer.mp hmem).2 hid
  rcases hres : evict faults id addr c 1 c with ⟨c', n | _ | e⟩
  all_goals
    obtain rfl : c' = removeServer id c := by
      rw [hres] at hevict
      exact hevict
  · have hfst := (join_of_through hself hread hres).1
    rcases issue_fst (faults n) (removeServer id c) (addVoter id addr (removeServer id c))
      with hold | hnew
    · rw [hfst, hold] at hsame
      exact hgone ((hsame srv).mpr hsrv)
    · -- the voter at the new address was not there before
      rw [hfst, hnew] at hsame
      have hvoter := (hsame ⟨.voter, id, addr⟩).mp (mem_addVoter_self id addr _)
      rw [h.eq_of_id hsrv hvoter hid] at haddr
      exact haddr rfl
  · exact hfailed (by rw [join_of_already hself hread hres])
  · rw [join_of_failed hself hread hres] at hsame
    exact hgone ((hsame srv).mpr hsrv)

/-- **Where no server has the id and raft does not refuse to add it**, a `Join` that fails
has added the voter, if the failed addition took effect. -/
theorem join_added_changes (hself : id ≠ localID) (hread : faults 0 = none)
    (hfailed : (Consensus.join faults true localID id addr c).2 ≠ none)
    (habsent : ∀ srv ∈ c, srv.id ≠ id) (hvalid : Valid (addVoter id addr c))
    (heffect : ∀ f, faults 1 = some f → f.takesEffect = true) :
    ¬∀ srv', srv' ∈ (Consensus.join faults true localID id addr c).1 ↔ srv' ∈ c := by
  intro hsame
  have hvoter := mem_addVoter_self id addr c
  have hfree : ∀ srv ∈ c, ¬(srv.id = id ∨ srv.address = addr) := by
    rintro srv hs (hid | haddr)
    · exact habsent srv hs hid
    · have hmem := @mem_addVoter_of_mem id addr c srv hs (habsent srv hs)
      exact habsent srv hs (by rw [hvalid.eq_of_address hmem hvoter haddr])
  have hevict : evict faults id addr c 1 c = (c, .through 1) := evict_free 1 hfree
  obtain ⟨hfst, hnil⟩ := join_of_through hself hread hevict
  rcases hf : faults 1 with _ | f
  · rw [hf, issue_of_valid hvalid] at hnil
    exact hfailed (hnil.mpr rfl)
  · have hissue : (issue (faults 1) c (addVoter id addr c)).1 = addVoter id addr c := by
      simp [issue, hf, heffect f hf, hvalid]
    rw [hfst, hissue] at hsame
    exact habsent _ ((hsame _).mp hvoter) rfl

/-- **When a failed `Join` is harmless**: exactly when it comes through, or fails early. -/
theorem join_failure_harmless_iff (h : Led localID leaderAddr c) (faults : ℕ → Option Fault)
    (id addr : String) :
    FailsHarmlessly faults localID id addr c ↔
      ComesThrough faults id addr c ∨ FailsEarly faults localID id addr c := by
  by_cases hself : id = localID
  · refine iff_of_true (fun _ srv => ?_) (.inr (.inl hself))
    simp [Consensus.join, hself]
  by_cases hread : faults 0 = none
  swap
  · obtain ⟨f, hf⟩ := Option.ne_none_iff_exists'.mp hread
    refine iff_of_true (fun _ srv => ?_) (.inr (.inr (.inl hread)))
    simp [Consensus.join, hself, hf]
  rw [← @join_nil_iff localID leaderAddr id addr c faults h hself hread]
  by_cases hfailed : (Consensus.join faults true localID id addr c).2 = none
  · exact iff_of_true (fun hne => absurd hfailed hne) (.inl hfailed)
  constructor
  · intro hharmless
    have hsame := hharmless hfailed
    refine .inr (.inr (.inr ?_))
    by_contra hlate
    obtain ⟨heffect, hadd⟩ := not_or.mp hlate
    have heffect' : ∀ f, faults 1 = some f → f.takesEffect = true := fun f hf => by
      by_contra hno
      exact heffect ⟨f, hf, by simpa using hno⟩
    by_cases habsent : ∀ srv ∈ c, srv.id ≠ id
    · have hvalid : Valid (addVoter id addr c) := by
        by_contra hno
        exact hadd ⟨habsent, fun hok => hno ((addable_iff h.valid habsent).mp hok)⟩
      exact join_added_changes hself hread hfailed habsent hvalid heffect' hsame
    · obtain ⟨srv, hsrv, hid⟩ : ∃ srv ∈ c, srv.id = id := by simpa using habsent
      have haddr : srv.address ≠ addr := fun haddr =>
        hfailed (by rw [join_of_present h.valid hself hread hsrv hid haddr])
      -- the server is in the way, and no server has both
      have hboth : ∀ srv' ∈ c, ¬(srv'.id = id ∧ srv'.address = addr) := by
        rintro srv' hsrv' ⟨hid', haddr'⟩
        rw [h.valid.eq_of_id hsrv' hsrv (hid'.trans hid.symm)] at haddr'
        exact haddr haddr'
      obtain ⟨hfault, hnone⟩ := @evict_conflict faults id addr c (h.valid_removeServer hself) c 1
        hboth ⟨srv, hsrv, .inl hid⟩
      refine join_removed_changes h.valid hself hread hfailed hsrv hid haddr ?_ hsame
      rcases hf : faults 1 with _ | f
      · exact hnone hf
      · rw [hfault f hf, heffect' f hf]
        rfl
  · rintro (hnil | heq | hread' | ⟨f, hf, heffect⟩ | ⟨habsent, hinvalid⟩)
    · exact absurd hnil hfailed
    · exact absurd heq hself
    · exact absurd hread hread'
    · intro _ srv
      rw [join_first_ineffective h hself hread hf heffect]
    · intro _ srv
      rcases @join_absent localID id addr c faults hself hread habsent with hsame | ⟨n, hadd⟩
      · rw [hsame]
      · have hrefused : ¬Valid (addVoter id addr c) := fun hvalid =>
          hinvalid ((addable_iff h.valid habsent).mpr hvalid)
        rw [hadd, (issue_fst_of_not_valid hrefused (faults n)).1]

/-- The rule at work: a node that is new asks to join at the leader's address. -/
theorem join_failure_harmless_new :
    FailsHarmlessly (fun _ => none) "leader" "a" "w" [⟨.voter, "leader", "w"⟩] :=
  (@join_failure_harmless_iff "leader" "w" _ ⟨by decide, by decide⟩ (fun _ => none) "a" "w").mpr
    (.inr (.inr (.inr (.inr (by decide)))))

/-- **A refused addition drops a server**: a member comes back at the address of another one.
Its old entry is removed, the new one is refused, and the cluster has lost it. No operation
fails for a reason of its own. -/
theorem refused_addition_drops_server :
    Led "leader" "w" [⟨.voter, "leader", "w"⟩, ⟨.voter, "a", "x"⟩, ⟨.voter, "b", "y"⟩] ∧
      Consensus.join (fun _ => none) true "leader" "a" "y"
          [⟨.voter, "leader", "w"⟩, ⟨.voter, "a", "x"⟩, ⟨.voter, "b", "y"⟩] =
        ([⟨.voter, "leader", "w"⟩, ⟨.voter, "b", "y"⟩], some (.raft .invalid)) ∧
      ¬FailsHarmlessly (fun _ => none) "leader" "a" "y"
        [⟨.voter, "leader", "w"⟩, ⟨.voter, "a", "x"⟩, ⟨.voter, "b", "y"⟩] := by
  refine ⟨⟨by decide, by decide⟩, by decide, fun h => ?_⟩
  have hmem := (h (by decide) ⟨.voter, "a", "x"⟩).mpr (by decide)
  exact absurd hmem (by decide)

end Failure

end DistSql
