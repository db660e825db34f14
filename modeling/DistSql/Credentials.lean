import Mathlib.Data.Finset.Lattice.Lemmas
import Mathlib.Data.List.TakeWhile
import DistSql.Security

/-!
# Whose Credentials

What the store of the package `security` should do for its users, and when it does.

* The credentials of a user should come from that user's own objects in the file.
* A file that is rejected should change nothing.
* Permissions for all users should reach all users.

`Initialize` has one variable for all objects and records it object by object. So what it
records at an object is what the file has **said** up to there (`said`): a field that the
object does not give a value goes on with the last one. The first two hold only for files in
which this makes no difference. `SetForAllUser` writes into the permissions of the
user `*`, which `HasPermisson` reads for nobody else, and which are there only if a file had
such a user.

## Main results

* `initialize_eq`, `loaded_eq`: `Initialize` records what the file has said, object by object.
* `credentials_isolated_iff`: when the credentials of a user come from that user's objects
  alone.
* `rejected_grants_nothing_iff`: when a file that is rejected leaves a store as it was.
* `setForAllUser_reaches_iff`: when permissions for all users reach all users.
* `setForAllUser_others`: they reach nobody but the user `*`.
* `setForAllUser_panics`: along every history without a user `*`, they reach nobody.
-/

open Golang

namespace DistSql

/-! ### What `Initialize` records -/

/-- The values of the variable after each object, as far as the objects can be decoded. -/
def carried : Creds → List Json → List Creds
  | _, [] => []
  | c, j :: docs =>
      match c.decode j with
      | none => []
      | some c' => c' :: carried c' docs

/-- The values that `Initialize` records of a stream. -/
def loaded (r : Feed) : List Creds := if r.first = none then carried {} r.docs else []

/-- The loop records the values of the variable. -/
theorem load_eq (cs : CredentialsStore) (cred : Creds) (stop : Stop) (docs : List Json) :
    (cs.load cred stop docs).1 = (carried cred docs).foldl CredentialsStore.record cs := by
  induction docs generalizing cs cred with
  | nil => rcases stop with m | _ | m <;> rfl
  | cons j docs ih =>
      rcases hd : cred.decode j with _ | cred'
      · simp [CredentialsStore.load, carried, hd]
      · simp only [CredentialsStore.load, carried, hd, List.foldl_cons]
        exact ih (cs.record cred') cred'

/-- **`Initialize` records the values of its variable**, whatever it returns. -/
theorem initialize_eq (cs : CredentialsStore) (r : Feed) :
    (cs.initializeFrom r).1 = (loaded r).foldl CredentialsStore.record cs := by
  rcases hf : r.first with _ | m
  · simp only [CredentialsStore.initializeFrom, loaded, hf, if_true]
    exact load_eq cs {} r.stop r.docs
  · simp [CredentialsStore.initializeFrom, loaded, hf]

/-- What an object says when it is taken alone. -/
def Creds.alone (j : Json) : Option Creds := ({} : Creds).decode j

/-- The loop succeeds exactly when every object can be decoded and the stream ends as it
should. -/
theorem load_eq_none_iff {cs : CredentialsStore} {cred : Creds} {stop : Stop}
    {docs : List Json} :
    (cs.load cred stop docs).2 = none ↔
      (∀ j ∈ docs, (Creds.alone j).isSome) ∧ stop = .ends none := by
  induction docs generalizing cs cred with
  | nil => rcases stop with m | _ | m <;> simp [CredentialsStore.load]
  | cons j docs ih =>
      have halone := Creds.isSome_decode {} cred j
      rcases hd : cred.decode j with _ | cred'
      · simp [CredentialsStore.load, hd, Creds.alone, halone]
      · simp only [CredentialsStore.load, hd, ih, List.forall_mem_cons, Creds.alone, halone]
        simp

/-- The stream is **accepted**: it opens, every object can be decoded, and it ends as it
should. -/
def Accepted (r : Feed) : Prop :=
  r.first = none ∧ (∀ j ∈ r.docs, (Creds.alone j).isSome) ∧ r.stop = .ends none

/-- When `Initialize` returns nil. -/
theorem initialize_eq_none_iff {cs : CredentialsStore} {r : Feed} :
    (cs.initializeFrom r).2 = none ↔ Accepted r := by
  rcases hf : r.first with _ | m
  · simp only [CredentialsStore.initializeFrom, hf, load_eq_none_iff, Accepted, true_and]
  · simp [CredentialsStore.initializeFrom, hf, Accepted]

/-- The last of some credentials with this name. -/
def lastNamed (u : String) (creds : List Creds) : Option Creds :=
  creds.reverse.find? fun c => c.username = u

/-- **The store after some credentials were recorded**: for each user the last ones count. -/
theorem foldl_record (creds : List Creds) (cs : CredentialsStore) (u : String) :
    (creds.foldl CredentialsStore.record cs).passwords u =
        ((lastNamed u creds).map fun c => stringBytes c.password).or (cs.passwords u) ∧
      (creds.foldl CredentialsStore.record cs).permissions u =
        ((lastNamed u creds).map fun c => c.permissions.values.toFinset).or
          (cs.permissions u) := by
  induction creds using List.reverseRecOn with
  | nil => exact ⟨rfl, rfl⟩
  | append_singleton creds c ih =>
      by_cases hu : c.username = u
      · simp [List.foldl_append, lastNamed, CredentialsStore.record, hu]
      · have hu' : u ≠ c.username := fun heq => hu heq.symm
        simp only [List.foldl_append, List.foldl_cons, List.foldl_nil, CredentialsStore.record,
          Function.update_of_ne hu']
        have hlast : lastNamed u (creds ++ [c]) = lastNamed u creds := by
          simp [lastNamed, hu]
        rw [hlast]
        exact ih

/-! ### What a file says -/

/-- The values of a field among some members, in order. -/
def valuesIn (f : Field) (ms : List (String × Json)) : List Json :=
  (ms.filter fun m => Creds.field m.1 = some f).map Prod.snd

/-- The values that some objects have for a field, in order. -/
def valuesAcross (f : Field) (docs : List Json) : List Json :=
  docs.flatMap fun j => valuesIn f j.members

/-- A text after some values: the last one of them that is a text counts. -/
def textAfter (s : String) (vs : List Json) : String :=
  vs.foldl (fun s v => (v.intoText s).getD s) s

/-- A list of texts after some values: the last one of them counts, and a `null` in it stands
for what the array behind the list holds at its place. -/
def textsAfter (ts : Texts) (vs : List Json) : Texts :=
  vs.foldl (fun ts v => (ts.decode v).getD ts) ts

/-- **What objects say, taken together**: each field goes by the values that they have for
it. -/
def said (docs : List Json) : Creds where
  username := textAfter "" (valuesAcross .username docs)
  password := textAfter "" (valuesAcross .password docs)
  permissions := textsAfter {} (valuesAcross .permissions docs)

/-- What a file has said after each of some objects, with those before them. -/
def readings (before : List Json) : List Json → List Creds
  | [] => []
  | j :: docs => said (before ++ [j]) :: readings (before ++ [j]) docs

/-- **Decoding the members of an object** sets each field by its values among them. Induction
on the members; each of them is a value of one field, or of none. -/
theorem Creds.setFields_eq {c d : Creds} {ms : List (String × Json)}
    (h : c.setFields ms = some d) :
    d = ⟨textAfter c.username (valuesIn .username ms),
      textAfter c.password (valuesIn .password ms),
      textsAfter c.permissions (valuesIn .permissions ms)⟩ := by
  induction ms generalizing c with
  | nil => exact (Option.some.inj h).symm
  | cons m rest ih =>
      obtain ⟨e, he, hrest⟩ := Option.bind_eq_some_iff.mp h
      rw [ih hrest]
      rcases hf : Creds.field m.1 with _ | _ | _ | _
      · simp only [Creds.setField, hf, Option.some.injEq] at he
        simp [valuesIn, hf, he]
      · simp only [Creds.setField, hf, Option.map_eq_some_iff] at he
        obtain ⟨s, hs, rfl⟩ := he
        simp [valuesIn, hf, textAfter, hs]
      · simp only [Creds.setField, hf, Option.map_eq_some_iff] at he
        obtain ⟨s, hs, rfl⟩ := he
        simp [valuesIn, hf, textAfter, hs]
      · simp only [Creds.setField, hf, Option.map_eq_some_iff] at he
        obtain ⟨ts, hts, rfl⟩ := he
        simp [valuesIn, hf, textsAfter, hts]

/-- **Decoding one more object** makes of what was said what is said with it. -/
theorem decode_said {before : List Json} {j : Json} {d : Creds}
    (h : (said before).decode j = some d) : d = said (before ++ [j]) := by
  have hfields : (said before).setFields j.members = some d := by
    cases j with
    | obj ms => exact h
    | null => exact h
    | bool | num | str | arr => exact absurd h (by simp [Creds.decode])
  rw [Creds.setFields_eq hfields]
  simp [said, valuesAcross, textAfter, textsAfter]

/-- **The variable holds what the file has said**, as far as the objects can be decoded. -/
theorem carried_eq (before docs : List Json) :
    carried (said before) docs =
      readings before (docs.takeWhile fun j => (Creds.alone j).isSome) := by
  induction docs generalizing before with
  | nil => rfl
  | cons j docs ih =>
      have halone := Creds.isSome_decode {} (said before) j
      rcases hd : (said before).decode j with _ | d
      · have hstop : (Creds.alone j).isSome = false := by
          rw [Creds.alone, halone, hd]
          rfl
        simp [carried, hd, readings, hstop]
      · have hgo : (Creds.alone j).isSome = true := by
          rw [Creds.alone, halone, hd]
          rfl
        obtain rfl := decode_said hd
        simp only [carried, hd, List.takeWhile_cons, hgo, if_true, readings, ih]

/-- What a stream has said after each object that is recorded: those before the first one that
cannot be decoded. -/
def spoken (r : Feed) : List Creds :=
  if r.first = none then readings [] (r.docs.takeWhile fun j => (Creds.alone j).isSome) else []

/-- **`Initialize` records what the stream has said.** -/
theorem loaded_eq (r : Feed) : loaded r = spoken r := by
  rw [loaded, spoken, ← carried_eq]
  rfl

/-! ### Credentials of one's own -/

/-- The last object with this username, taken alone. -/
def lastOf (u : String) (docs : List Json) : Option Creds :=
  lastNamed u (docs.filterMap Creds.alone)

/-- The credentials of every user are those of the user's last object, taken alone. -/
structure Isolated (docs : List Json) (cs : CredentialsStore) : Prop where
  passwords : ∀ u, cs.passwords u = (lastOf u docs).map fun c => stringBytes c.password
  permissions : ∀ u, cs.permissions u =
    (lastOf u docs).map fun c => c.permissions.values.toFinset

/-- The objects are **steady**: once an object has given a field a value, every later one
does, and no permission is `null`. -/
structure Steady (docs : List Json) : Prop where
  gives : docs.Pairwise fun j j' => ∀ f, Gives f j → Gives f j'
  noNulls : ∀ j ∈ docs, NoNulls j

/-- The same values in all fields. -/
def SameValues (c d : Creds) : Prop := ∀ f, c.get f = d.get f

/-- Only the values are recorded. -/
theorem record_congr {c d : Creds} (h : SameValues c d) (cs : CredentialsStore) :
    cs.record c = cs.record d := by
  have hname : c.username = d.username := List.singleton_injective (h .username)
  have hpass : c.password = d.password := List.singleton_injective (h .password)
  have hperms : c.permissions.values = d.permissions.values := h .permissions
  rw [CredentialsStore.record, CredentialsStore.record, hname, hpass, hperms]

/-- The same values, one after the other, make the same store. -/
theorem foldl_record_congr {creds creds' : List Creds} (h : List.Forall₂ SameValues creds creds')
    (cs : CredentialsStore) :
    creds.foldl CredentialsStore.record cs = creds'.foldl CredentialsStore.record cs := by
  induction h generalizing cs with
  | nil => rfl
  | cons hcd _ ih => rw [List.foldl_cons, List.foldl_cons, record_congr hcd, ih]

/-- **Steady objects are decoded as if each were alone.** Induction on the objects: a field of
the variable is still empty, or every object to come gives it a value. -/
theorem carried_alone {c : Creds} {docs : List Json} (hsteady : Steady docs)
    (hinv : ∀ f, c.get f = ({} : Creds).get f ∨ ∀ j ∈ docs, Gives f j)
    (hall : ∀ j ∈ docs, (c.decode j).isSome) :
    List.Forall₂ SameValues (carried c docs) (docs.filterMap Creds.alone) := by
  induction docs generalizing c with
  | nil => exact .nil
  | cons j docs ih =>
      obtain ⟨d, hd⟩ := Option.isSome_iff_exists.mp (hall j List.mem_cons_self)
      obtain ⟨a, ha⟩ : ∃ a, Creds.alone j = some a := by
        refine Option.isSome_iff_exists.mp ?_
        rw [Creds.alone, Creds.isSome_decode {} c]
        exact hall j List.mem_cons_self
      obtain ⟨hlater, hrest⟩ := List.pairwise_cons.mp hsteady.gives
      simp only [carried, hd, List.filterMap_cons, ha]
      refine .cons (fun f => ?_) (ih ⟨hrest, ?_⟩ (fun f => ?_) ?_)
      · refine Creds.decode_congr hd ha (hsteady.noNulls j List.mem_cons_self) ?_
        rcases hinv f with hempty | hgives
        · exact .inl hempty
        · exact .inr (hgives j List.mem_cons_self)
      · exact fun j' hj' => hsteady.noNulls j' (List.mem_cons_of_mem j hj')
      · by_cases hgives : Gives f j
        · exact .inr fun j' hj' => hlater j' hj' f hgives
        · rcases hinv f with hempty | hall'
          · exact .inl ((Creds.decode_keeps hd hgives).trans hempty)
          · exact absurd (hall' j List.mem_cons_self) hgives
      · intro j' hj'
        rw [Creds.isSome_decode d c]
        exact hall j' (List.mem_cons_of_mem j hj')

/-- A store that was empty, after steady objects. -/
theorem initialize_isolated {r : Feed} (hsteady : Steady r.docs)
    (hok : (newAuthStore.initializeFrom r).2 = none) :
    Isolated r.docs (newAuthStore.initializeFrom r).1 := by
  obtain ⟨hfirst, hall, -⟩ := initialize_eq_none_iff.mp hok
  have hstore : (newAuthStore.initializeFrom r).1 =
      (r.docs.filterMap Creds.alone).foldl CredentialsStore.record newAuthStore := by
    rw [initialize_eq, loaded, if_pos hfirst]
    exact foldl_record_congr (carried_alone hsteady (fun f => .inl rfl) hall) newAuthStore
  rw [hstore]
  refine ⟨fun u => ?_, fun u => ?_⟩
  · rw [(foldl_record _ newAuthStore u).1]
    exact Option.or_none
  · rw [(foldl_record _ newAuthStore u).2]
    exact Option.or_none

/-- What is stored of credentials: the password, and the set of permissions. -/
def Creds.rights (c : Creds) : List UInt8 × Finset String :=
  (stringBytes c.password, c.permissions.values.toFinset)

/-- The object of a user with all three fields. -/
def fullObject (username password : String) (perms : List String) : Json :=
  .obj [("username", .str username), ("password", .str password),
    ("perms", .arr (perms.map Json.str))]

/-- It gives every field a value. -/
theorem gives_fullObject (f : Field) (username password : String) (perms : List String) :
    Gives f (fullObject username password perms) := by
  have hname : Creds.field "username" = some .username := by decide
  have hpass : Creds.field "password" = some .password := by decide
  have hperms : Creds.field "perms" = some .permissions := by decide
  cases f with
  | username => exact ⟨_, List.mem_cons_self, hname, rfl⟩
  | password => exact ⟨_, List.mem_cons_of_mem _ List.mem_cons_self, hpass, rfl⟩
  | permissions =>
      exact ⟨_, List.mem_cons_of_mem _ (List.mem_cons_of_mem _ List.mem_cons_self), hperms, rfl⟩

/-- It has no `null`. -/
theorem noNulls_fullObject (username password : String) (perms : List String) :
    NoNulls (fullObject username password perms) := by
  intro m hm f _
  simp only [fullObject, Json.members, List.mem_cons, List.not_mem_nil, or_false] at hm
  rcases hm with rfl | rfl | rfl
  · cases f <;> rfl
  · cases f <;> rfl
  · cases f <;> simp [isPlain, Json.isNull]

/-- A file with two users, all of whose fields are there. -/
def twoUsers : Feed where
  docs := [fullObject "a" "h" ["read"], fullObject "b" "g" []]

/-- Its objects are steady. -/
theorem steady_twoUsers : Steady twoUsers.docs := by
  refine ⟨List.pairwise_pair.mpr fun f _ => gives_fullObject f _ _ _, fun j hj => ?_⟩
  simp only [twoUsers, List.mem_cons, List.not_mem_nil, or_false] at hj
  rcases hj with rfl | rfl
  · exact noNulls_fullObject _ _ _
  · exact noNulls_fullObject _ _ _

/-- The store **answers as before**: its maps are the same, and so is what it says of a request
and of a permission. -/
structure AnswersAsBefore (cs cs' : CredentialsStore) : Prop where
  passwords : cs'.passwords = cs.passwords
  permissions : cs'.permissions = cs.permissions
  checkReq : ∀ bcrypt auth, cs'.checkReq bcrypt auth = cs.checkReq bcrypt auth
  hasPermisson : ∀ u perm, cs'.hasPermisson u perm = cs.hasPermisson u perm

/-- A stream **grants nothing if it is rejected**: the store answers as before. -/
def RejectedGrantsNothing (cs : CredentialsStore) (r : Feed) : Prop :=
  (cs.initializeFrom r).2 ≠ none → AnswersAsBefore cs (cs.initializeFrom r).1

/-- The store **has it all already**: for every user of whom the stream speaks before it breaks
off, the password and the permissions that it said last. -/
def HasAlready (cs : CredentialsStore) (r : Feed) : Prop :=
  ∀ u c, lastNamed u (spoken r) = some c →
    cs.passwords u = some c.rights.1 ∧ cs.permissions u = some c.rights.2

/-- Recording what the store has already changes nothing. -/
theorem HasAlready.initialize {cs : CredentialsStore} {r : Feed} (h : HasAlready cs r) :
    (cs.initializeFrom r).1.passwords = cs.passwords ∧
      (cs.initializeFrom r).1.permissions = cs.permissions := by
  rw [initialize_eq, loaded_eq]
  refine ⟨funext fun u => ?_, funext fun u => ?_⟩
  · rw [(foldl_record _ cs u).1]
    rcases hlast : lastNamed u (spoken r) with _ | c
    · rfl
    · exact (h u c hlast).1.symm
  · rw [(foldl_record _ cs u).2]
    rcases hlast : lastNamed u (spoken r) with _ | c
    · rfl
    · exact (h u c hlast).2.symm

/-- **When a rejected file grants nothing**: exactly when the file is accepted, or what it says
before it breaks off is in the store already. -/
theorem rejected_grants_nothing_iff (cs : CredentialsStore) (r : Feed) :
    RejectedGrantsNothing cs r ↔ Accepted r ∨ HasAlready cs r := by
  rw [RejectedGrantsNothing, Ne, initialize_eq_none_iff]
  constructor
  · intro h
    by_cases haccepted : Accepted r
    · exact .inl haccepted
    refine .inr fun u c hlast => ?_
    obtain ⟨hpass, hperms, -, -⟩ := h haccepted
    rw [← hpass, ← hperms, initialize_eq, loaded_eq, (foldl_record _ cs u).1,
      (foldl_record _ cs u).2, hlast]
    exact ⟨rfl, rfl⟩
  · rintro (haccepted | halready) hrejected
    · exact absurd haccepted hrejected
    · obtain ⟨hpass, hperms⟩ := halready.initialize
      refine ⟨hpass, hperms, fun bcrypt auth => ?_, fun u perm => ?_⟩
      · simp only [CredentialsStore.checkReq, CredentialsStore.validatePassword, hpass]
      · simp only [CredentialsStore.hasPermisson, hperms]

/-- A file that breaks off after its first object. -/
def brokenOff : Feed where
  docs := [fullObject "eve" "h" ["admin"]]
  stop := .malformed "unexpected EOF"

/-- **A rejected file grants permissions**: the file breaks off, `Initialize` returns an error,
and the user of its first object has what the object says. -/
theorem rejected_file_grants :
    (newAuthStore.initializeFrom brokenOff).2 = some (.stream "unexpected EOF") ∧
      newAuthStore.hasPermisson "eve" "admin" = false ∧
      (newAuthStore.initializeFrom brokenOff).1.hasPermisson "eve" "admin" = true ∧
      ¬RejectedGrantsNothing newAuthStore brokenOff := by
  have hperm : (newAuthStore.initializeFrom brokenOff).1.hasPermisson "eve" "admin" = true := by
    decide
  refine ⟨by decide, rfl, hperm, fun h => ?_⟩
  rw [(h (by decide)).hasPermisson] at hperm
  exact absurd hperm (by decide)

/-! ### Permissions for all users -/

section AllUsers

variable {cs : CredentialsStore}

/-- Permissions for all users **reach all users**: `SetForAllUser` returns, every user of the
store then has them, nobody has lost a permission, and nobody has gained any other. -/
def ReachesAll (cs : CredentialsStore) (perms : List String) : Prop :=
  ∃ cs', cs.setForAllUser perms = .ret cs' ∧
    (∀ u, cs'.passwords u ≠ none → ∀ p ∈ perms, cs'.hasPermisson u p = true) ∧
    (∀ u p, cs.hasPermisson u p = true → cs'.hasPermisson u p = true) ∧
    ∀ u p, cs'.hasPermisson u p = true → cs.hasPermisson u p = true ∨ p ∈ perms

/-- The loop panics at its first permission, if the user `*` has no permissions yet. -/
theorem setPerms_of_none (h : cs.permissions allUser = none) {perms : List String}
    (hperms : perms ≠ []) : cs.setPerms perms = .panic nilMap := by
  rcases perms with _ | ⟨p, perms⟩
  · exact absurd rfl hperms
  · simp [CredentialsStore.setPerms, CredentialsStore.setPerm, h]

/-- The store with other permissions for the user `*`. -/
def CredentialsStore.withAll (cs : CredentialsStore) (ps : Finset String) : CredentialsStore :=
  { cs with permissions := Function.update cs.permissions allUser (some ps) }

@[simp] theorem CredentialsStore.withAll_self (cs : CredentialsStore) (ps : Finset String) :
    (cs.withAll ps).permissions allUser = some ps := by
  simp only [CredentialsStore.withAll, Function.update_self]

@[simp] theorem CredentialsStore.withAll_withAll (cs : CredentialsStore) (ps ps' : Finset String) :
    (cs.withAll ps).withAll ps' = cs.withAll ps' := by
  simp only [CredentialsStore.withAll, Function.update_idem]

/-- If the user `*` has permissions, the loop adds to them. -/
theorem setPerms_of_some {ps : Finset String} (h : cs.permissions allUser = some ps)
    (perms : List String) : cs.setPerms perms = .ret (cs.withAll (perms.toFinset ∪ ps)) := by
  induction perms generalizing cs ps with
  | nil =>
      have hsame : cs.withAll ps = cs := by
        rw [CredentialsStore.withAll, ← h, Function.update_eq_self]
      rw [List.toFinset_nil, Finset.empty_union, hsame]
      rfl
  | cons p perms ih =>
      have hunion : perms.toFinset ∪ insert p ps = (p :: perms).toFinset ∪ ps := by
        rw [List.toFinset_cons, Finset.union_insert, Finset.insert_union]
      have hfirst : cs.setPerm p = .ret (cs.withAll (insert p ps)) := by
        simp only [CredentialsStore.setPerm, h]
        rfl
      rw [CredentialsStore.setPerms, hfirst, Outcome.ret_bind, ih (cs.withAll_self _), hunion,
        cs.withAll_withAll]

/-- Other permissions for the user `*` are nothing to anybody else. -/
theorem hasPermisson_withAll_ne {u : String} (hu : u ≠ allUser) (ps : Finset String)
    (p : String) : (cs.withAll ps).hasPermisson u p = cs.hasPermisson u p := by
  simp only [CredentialsStore.hasPermisson, CredentialsStore.withAll, Function.update_of_ne hu]

/-- What the user `*` then has. -/
theorem hasPermisson_withAll_self (ps : Finset String) (p : String) :
    (cs.withAll ps).hasPermisson allUser p = true ↔ p ∈ ps := by
  simp [CredentialsStore.hasPermisson]

/-- `SetForAllUser` panics, if the user `*` has no permissions yet. -/
theorem setForAllUser_of_none (h : cs.permissions allUser = none) {perms : List String}
    (hperms : perms ≠ []) : cs.setForAllUser perms = .panic nilMap := by
  refine setPerms_of_none ?_ hperms
  exact h

/-- If the user `*` has permissions, `SetForAllUser` adds to them. -/
theorem setForAllUser_of_some {ps : Finset String} (h : cs.permissions allUser = some ps)
    (perms : List String) :
    cs.setForAllUser perms = .ret (CredentialsStore.withAll
      { cs with passwords := Function.update cs.passwords allUser (some []) }
      (perms.toFinset ∪ ps)) := by
  refine setPerms_of_some ?_ perms
  exact h

/-- **Permissions for all users reach nobody but the user `*`**: nobody else is answered
differently. -/
theorem setForAllUser_others {cs' : CredentialsStore} {perms : List String}
    (h : cs.setForAllUser perms = .ret cs') {u : String} (hu : u ≠ allUser) (p : String) :
    cs'.hasPermisson u p = cs.hasPermisson u p := by
  rcases hstar : cs.permissions allUser with _ | ps
  · by_cases hperms : perms = []
    · subst hperms
      obtain rfl := Outcome.ret.inj h
      rfl
    · rw [setForAllUser_of_none hstar hperms] at h
      simp at h
  · rw [setForAllUser_of_some hstar perms] at h
    obtain rfl := Outcome.ret.inj h
    exact hasPermisson_withAll_ne hu _ p

/-- **When permissions for all users reach all users**: exactly when there are none to set, or
the user `*` has permissions and every other user has these already. -/
theorem setForAllUser_reaches_iff (cs : CredentialsStore) (perms : List String) :
    ReachesAll cs perms ↔
      perms = [] ∨ (cs.permissions allUser ≠ none ∧
        ∀ u, u ≠ allUser → cs.passwords u ≠ none → ∀ p ∈ perms, cs.hasPermisson u p = true) := by
  by_cases hperms : perms = []
  · subst hperms
    exact iff_of_true ⟨_, rfl, fun u _ p hp => absurd hp List.not_mem_nil, fun u p h => h,
      fun u p h => .inl h⟩ (.inl rfl)
  rw [or_iff_right hperms]
  rcases hstar : cs.permissions allUser with _ | ps
  · refine iff_of_false (fun h => ?_) (fun h => h.1 rfl)
    obtain ⟨cs', hret, -⟩ := h
    rw [setForAllUser_of_none hstar hperms] at hret
    simp at hret
  -- the store afterwards: only the permissions of the user `*` have changed
  have hret := setForAllUser_of_some hstar perms
  constructor
  · rintro ⟨cs', hret', hreach, -, -⟩
    obtain rfl := Outcome.ret.inj (hret.symm.trans hret')
    refine ⟨Option.some_ne_none ps, fun u hu hthere p hp => ?_⟩
    have hin := hreach u (by rwa [← Function.update_of_ne hu (some []) cs.passwords] at hthere) p hp
    rwa [hasPermisson_withAll_ne hu] at hin
  · rintro ⟨-, hall⟩
    refine ⟨_, hret, fun u hthere p hp => ?_, fun u p h => ?_, fun u p h => ?_⟩
    · by_cases hu : u = allUser
      · rw [hu, hasPermisson_withAll_self]
        exact Finset.mem_union_left ps (List.mem_toFinset.mpr hp)
      · rw [hasPermisson_withAll_ne hu]
        exact hall u hu (by rwa [← Function.update_of_ne hu (some []) cs.passwords]) p hp
    · by_cases hu : u = allUser
      · rw [hu, CredentialsStore.hasPermisson, hstar] at h
        rw [hu, hasPermisson_withAll_self]
        exact Finset.mem_union_right _ (of_decide_eq_true h)
      · rwa [hasPermisson_withAll_ne hu]
    · by_cases hu : u = allUser
      · rw [hu, hasPermisson_withAll_self] at h
        rw [hu, CredentialsStore.hasPermisson, hstar]
        rcases Finset.mem_union.mp h with hnew | hold
        · exact .inr (List.mem_toFinset.mp hnew)
        · exact .inl (decide_eq_true hold)
      · rw [hasPermisson_withAll_ne hu] at h
        exact .inl h

/-- The stores that successful calls make of a new one, with the streams that were read. -/
inductive History : List Feed → CredentialsStore → Prop
  | new : History [] newAuthStore
  | initialized {rs : List Feed} {cs : CredentialsStore} {r : Feed} (h : History rs cs)
      (hok : (cs.initializeFrom r).2 = none) : History (r :: rs) (cs.initializeFrom r).1
  | setForAll {rs : List Feed} {cs cs' : CredentialsStore} {perms : List String}
      (h : History rs cs) (hret : cs.setForAllUser perms = .ret cs') : History rs cs'

/-- **Without an object for the user `*`**, a history leaves that user without permissions. -/
theorem History.permissions_allUser {rs : List Feed} (h : History rs cs)
    (hnone : ∀ r ∈ rs, ∀ c ∈ loaded r, c.username ≠ allUser) :
    cs.permissions allUser = none := by
  induction h with
  | new => rfl
  | @initialized rs cs r h hok ih =>
      have hlast : lastNamed allUser (loaded r) = none := by
        refine List.find?_eq_none.mpr fun c hc => ?_
        simpa using hnone r List.mem_cons_self c (List.mem_reverse.mp hc)
      rw [initialize_eq, (foldl_record _ cs allUser).2, hlast]
      simpa using ih fun r' hr' => hnone r' (List.mem_cons_of_mem r hr')
  | @setForAll rs cs cs' perms h hret ih =>
      have hstar : cs.permissions allUser = none := ih hnone
      by_cases hperms : perms = []
      · subst hperms
        obtain rfl := Outcome.ret.inj hret
        exact hstar
      · rw [setForAllUser_of_none hstar hperms] at hret
        simp at hret

/-- **Along every history without an object for the user `*`, permissions for all users reach
nobody**: `SetForAllUser` panics. -/
theorem setForAllUser_panics {rs : List Feed} (h : History rs cs)
    (hnone : ∀ r ∈ rs, ∀ c ∈ loaded r, c.username ≠ allUser) {perms : List String}
    (hperms : perms ≠ []) : cs.setForAllUser perms = .panic nilMap :=
  setForAllUser_of_none (h.permissions_allUser hnone) hperms

/-- **Permissions for all users of a new store**: `SetForAllUser` panics. -/
theorem new_store_panics :
    History [] newAuthStore ∧ newAuthStore.setForAllUser ["read"] = .panic nilMap ∧
      ¬ReachesAll newAuthStore ["read"] := by
  refine ⟨.new, rfl, fun h => ?_⟩
  obtain ⟨cs', hret, -⟩ := h
  exact absurd hret (by simp [CredentialsStore.setForAllUser, CredentialsStore.setPerms,
    CredentialsStore.setPerm, newAuthStore])

end AllUsers

end DistSql
