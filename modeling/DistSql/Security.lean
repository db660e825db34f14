import Mathlib.Data.Finset.Insert
import Mathlib.Logic.Function.Basic
import DistSql.Json
import DistSql.Outcome

/-!
# The Credentials Store

The package `security`: a store of passwords and permissions that is filled from a JSON file
(`Initialize`), can be given permissions for all users (`SetForAllUser`), and is asked for
passwords and permissions.

`Initialize` decodes the objects of the file one after the other into **one** variable, and
records that variable in the store after each of them. The rules of `encoding/json` decide
what that means: a field that an object does not give a value keeps the one that it has.

## Main results

* `Creds.decode_keeps`: an object that does not give a field a value hands on the one before
  it.
* `Creds.decode_congr`: an object that does gives it the same one whatever came before.
-/

open Golang

namespace DistSql

/-! ### Decoding credentials -/

/-- The fields of `Creds`. -/
inductive Field
  | username
  | password
  | permissions
  deriving DecidableEq, Repr

/-- `Creds`. -/
structure Creds where
  username : String := ""
  password : String := ""
  permissions : Texts := {}
  deriving DecidableEq, Repr

/-- The least character that `encoding/json` takes for the same one in a key, as far as it
can occur in the name of a field. -/
def foldRune (c : Char) : Char :=
  if c.toNat = 0x17F then 's' else if c.toNat = 0x212A then 'k' else c.toLower

/-- A key, up to case. -/
def foldName (key : String) : List Char := key.toList.map foldRune

/-- The field that a key of an object stands for. -/
def Creds.field (key : String) : Option Field :=
  if foldName key = "username".toList then some .username
  else if foldName key = "password".toList then some .password
  else if foldName key = "perms".toList then some .permissions
  else none

/-- One member of an object is decoded; other keys are skipped. -/
def Creds.setField (c : Creds) (key : String) (v : Json) : Option Creds :=
  match Creds.field key with
  | some .username => (v.intoText c.username).map fun s => { c with username := s }
  | some .password => (v.intoText c.password).map fun s => { c with password := s }
  | some .permissions => (c.permissions.decode v).map fun ts => { c with permissions := ts }
  | none => some c

/-- The members of an object are decoded in order. -/
def Creds.setFields (c : Creds) : List (String × Json) → Option Creds
  | [] => some c
  | (key, v) :: rest => (c.setField key v).bind fun c' => c'.setFields rest

/-- `Decode` into a variable of type `Creds`; without a result there was an error. -/
def Creds.decode (c : Creds) : Json → Option Creds
  | .null => some c
  | .obj members => c.setFields members
  | _ => none

/-! ### The store -/

/-- The bytes of a string. -/
def stringBytes (s : String) : List UInt8 := s.toUTF8.data.toList

/-- `CredentialsStore`: two maps. -/
structure CredentialsStore where
  passwords : String → Option (List UInt8)
  permissions : String → Option (Finset String)

/-- `NewAuthStore`. -/
def newAuthStore : CredentialsStore := ⟨fun _ => none, fun _ => none⟩

/-- What `Initialize` does after each object. -/
def CredentialsStore.record (cs : CredentialsStore) (cred : Creds) : CredentialsStore where
  passwords := Function.update cs.passwords cred.username (some (stringBytes cred.password))
  permissions :=
    Function.update cs.permissions cred.username (some cred.permissions.values.toFinset)

/-- The errors of `Initialize`: those of the stream, and a value of the wrong type. -/
inductive InitError
  | stream (msg : String)
  | mistyped
  deriving DecidableEq, Repr

/-- The loop of `Initialize`, and the closing token. -/
def CredentialsStore.load (cs : CredentialsStore) (cred : Creds) (stop : Stop) :
    List Json → CredentialsStore × Option InitError
  | [] =>
      match stop with
      | .malformed m => (cs, some (.stream m))
      | .ends (some m) => (cs, some (.stream m))
      | .ends none => (cs, none)
  | j :: docs =>
      match cred.decode j with
      | none => (cs, some .mistyped)
      | some cred' => (cs.record cred').load cred' stop docs

/-- `Initialize`. -/
def CredentialsStore.initializeFrom (cs : CredentialsStore) (r : Feed) :
    CredentialsStore × Option InitError :=
  match r.first with
  | some m => (cs, some (.stream m))
  | none => cs.load {} r.stop r.docs

/-- `AllUser`. -/
def allUser : String := "*"

/-- The panic of a write to a map that was never made. -/
def nilMap : String := "assignment to entry in nil map"

/-- One permission of `SetForAllUser`. -/
def CredentialsStore.setPerm (cs : CredentialsStore) (perm : String) : Outcome CredentialsStore :=
  match cs.permissions allUser with
  | none => .panic nilMap
  | some ps =>
      .ret { cs with permissions := Function.update cs.permissions allUser (some (insert perm ps)) }

/-- The loop of `SetForAllUser`. -/
def CredentialsStore.setPerms (cs : CredentialsStore) : List String → Outcome CredentialsStore
  | [] => .ret cs
  | perm :: perms => cs.setPerm perm >>= fun cs' => cs'.setPerms perms

/-- `SetForAllUser`. -/
def CredentialsStore.setForAllUser (cs : CredentialsStore) (perms : List String) :
    Outcome CredentialsStore :=
  CredentialsStore.setPerms
    { cs with passwords := Function.update cs.passwords allUser (some []) } perms

/-- `ValidatePassword`, with the comparison of the bcrypt library. -/
def CredentialsStore.validatePassword (bcrypt : List UInt8 → List UInt8 → Bool)
    (cs : CredentialsStore) (username : String) (password : List UInt8) : Bool :=
  match cs.passwords username with
  | none => false
  | some pass => bcrypt pass password

/-- `CheckReq`, with what `BasicAuth` finds in the request. -/
def CredentialsStore.checkReq (bcrypt : List UInt8 → List UInt8 → Bool)
    (cs : CredentialsStore) (auth : Option (String × String)) : Bool :=
  match auth with
  | none => false
  | some (username, password) => cs.validatePassword bcrypt username (stringBytes password)

/-- `HasPermisson`. -/
def CredentialsStore.hasPermisson (cs : CredentialsStore) (username permission : String) : Bool :=
  match cs.permissions username with
  | none => false
  | some ps => permission ∈ ps

/-! ### What a decode takes over -/

/-- The value of a field. -/
def Creds.get (c : Creds) : Field → List String
  | .username => [c.username]
  | .password => [c.password]
  | .permissions => c.permissions.values

/-- A value **gives** a field one of its own: a text for a name or a password, a list or
`null` for permissions. -/
def givesValue : Field → Json → Bool
  | .username, .str _ | .password, .str _ => true
  | .permissions, .arr _ | .permissions, .null => true
  | _, _ => false

/-- A value has no `null` where a permission should be. -/
def isPlain : Field → Json → Bool
  | .permissions, .arr elems => elems.all fun j => !j.isNull
  | _, _ => true

/-- An object gives a field a value. -/
def Gives (f : Field) (j : Json) : Prop :=
  ∃ m ∈ j.members, Creds.field m.1 = some f ∧ givesValue f m.2 = true

/-- No permission in an object is `null`. -/
def NoNulls (j : Json) : Prop :=
  ∀ m ∈ j.members, ∀ f, Creds.field m.1 = some f → isPlain f m.2 = true

/-- Whether a list of permissions can be decoded does not depend on the variable. -/
theorem Texts.isSome_decode (ts ts' : Texts) (v : Json) :
    (ts.decode v).isSome = (ts'.decode v).isSome := by
  rcases v with _ | _ | _ | _ | elems | _
  case arr =>
    rcases elems with _ | ⟨j, js⟩
    · rfl
    · simp only [Texts.decode, Option.isSome_map]
      exact Json.isSome_intoArray _ _ _
  all_goals rfl

/-- A list of permissions without `null` does not depend on the variable either. -/
theorem Texts.decode_values {ts ts' t t' : Texts} {v : Json} (h : ts.decode v = some t)
    (h' : ts'.decode v = some t') (hplain : isPlain .permissions v = true) :
    t.values = t'.values := by
  rcases v with _ | _ | _ | _ | elems | _
  case arr =>
    rcases elems with _ | ⟨j, js⟩
    · simp only [Texts.decode, Option.some.injEq] at h h'
      rw [← h, ← h']
    · simp only [Texts.decode, Option.map_eq_some_iff] at h h'
      obtain ⟨a, ha, rfl⟩ := h
      obtain ⟨a', ha', rfl⟩ := h'
      refine Json.intoArray_congr ha ha' fun j' hj' => ?_
      simpa using List.all_eq_true.mp hplain j' hj'
  case null =>
    simp only [Texts.decode, Option.some.injEq] at h h'
    rw [← h, ← h']
  all_goals simp [Texts.decode] at h

section Decode

variable {c c' d d' : Creds} {key : String} {v j : Json} {f : Field}

/-- Whether a member can be decoded does not depend on the variable. -/
theorem Creds.isSome_setField (c c' : Creds) (key : String) (v : Json) :
    (c.setField key v).isSome = (c'.setField key v).isSome := by
  rcases hf : Creds.field key with _ | _ | _ | _
  · simp [Creds.setField, hf]
  · simp only [Creds.setField, hf, Option.isSome_map]
    exact Json.isSome_intoText _ _ v
  · simp only [Creds.setField, hf, Option.isSome_map]
    exact Json.isSome_intoText _ _ v
  · simp only [Creds.setField, hf, Option.isSome_map]
    exact Texts.isSome_decode _ _ v

/-- **A member that does not give a field a value** leaves it alone. -/
theorem Creds.setField_keeps (h : c.setField key v = some d)
    (hgives : ¬(Creds.field key = some f ∧ givesValue f v = true)) : d.get f = c.get f := by
  rcases hf : Creds.field key with _ | _ | _ | _
  · simp only [Creds.setField, hf, Option.some.injEq] at h
    rw [h]
  · simp only [Creds.setField, hf, Option.map_eq_some_iff] at h
    obtain ⟨s, hs, rfl⟩ := h
    cases f with
    | username =>
        rcases Json.intoText_cases hs with ⟨-, rfl⟩ | rfl
        · rfl
        · exact absurd ⟨hf, rfl⟩ hgives
    | password | permissions => rfl
  · simp only [Creds.setField, hf, Option.map_eq_some_iff] at h
    obtain ⟨s, hs, rfl⟩ := h
    cases f with
    | password =>
        rcases Json.intoText_cases hs with ⟨-, rfl⟩ | rfl
        · rfl
        · exact absurd ⟨hf, rfl⟩ hgives
    | username | permissions => rfl
  · simp only [Creds.setField, hf, Option.map_eq_some_iff] at h
    obtain ⟨ts, hts, rfl⟩ := h
    cases f with
    | permissions => cases v <;> simp_all [Texts.decode, givesValue]
    | username | password => rfl

/-- **A member that gives a field a value** gives it the same one whatever the variable
was. -/
theorem Creds.setField_congr (h : c.setField key v = some d) (h' : c'.setField key v = some d')
    (hf : Creds.field key = some f) (hgives : givesValue f v = true)
    (hplain : isPlain f v = true) : d.get f = d'.get f := by
  cases f with
  | username =>
      simp only [Creds.setField, hf, Option.map_eq_some_iff] at h h'
      obtain ⟨s, hs, rfl⟩ := h
      obtain ⟨s', hs', rfl⟩ := h'
      cases v <;> simp_all [Json.intoText, givesValue, Creds.get]
  | password =>
      simp only [Creds.setField, hf, Option.map_eq_some_iff] at h h'
      obtain ⟨s, hs, rfl⟩ := h
      obtain ⟨s', hs', rfl⟩ := h'
      cases v <;> simp_all [Json.intoText, givesValue, Creds.get]
  | permissions =>
      simp only [Creds.setField, hf, Option.map_eq_some_iff] at h h'
      obtain ⟨ts, hts, rfl⟩ := h
      obtain ⟨ts', hts', rfl⟩ := h'
      exact Texts.decode_values hts hts' hplain

/-- Whether an object can be decoded does not depend on the variable. -/
theorem Creds.isSome_setFields (c c' : Creds) (ms : List (String × Json)) :
    (c.setFields ms).isSome = (c'.setFields ms).isSome := by
  induction ms generalizing c c' with
  | nil => rfl
  | cons m rest ih =>
      have hsome := Creds.isSome_setField c c' m.1 m.2
      rcases hd : c.setField m.1 m.2 with _ | d <;> rcases hd' : c'.setField m.1 m.2 with _ | d' <;>
        simp_all [Creds.setFields]
      exact ih d d'

/-- Whether a document can be decoded does not depend on the variable. -/
theorem Creds.isSome_decode (c c' : Creds) (j : Json) :
    (c.decode j).isSome = (c'.decode j).isSome := by
  cases j with
  | obj ms => exact Creds.isSome_setFields c c' ms
  | null | bool | num | str | arr => rfl

/-- Members that do not give a field a value leave it alone. -/
theorem Creds.setFields_keeps {ms : List (String × Json)} (h : c.setFields ms = some d)
    (hgives : ¬∃ m ∈ ms, Creds.field m.1 = some f ∧ givesValue f m.2 = true) :
    d.get f = c.get f := by
  induction ms generalizing c with
  | nil => rw [Option.some.inj h]
  | cons m rest ih =>
      obtain ⟨e, he, hrest⟩ := Option.bind_eq_some_iff.mp h
      have hfirst := Creds.setField_keeps (f := f) he fun hm =>
        hgives ⟨m, List.mem_cons_self, hm⟩
      rw [ih hrest fun ⟨m', hm', hg⟩ => hgives ⟨m', List.mem_cons_of_mem m hm', hg⟩, hfirst]

/-- **An object that does not give a field a value hands on the one before it.** -/
theorem Creds.decode_keeps (h : c.decode j = some d) (hgives : ¬Gives f j) :
    d.get f = c.get f := by
  cases j with
  | null => rw [Option.some.inj h]
  | obj ms => exact Creds.setFields_keeps h hgives
  | bool | num | str | arr => exact absurd h (by simp [Creds.decode])

/-- Members that give a field a value, or find the same one, leave the same one. -/
theorem Creds.setFields_congr {ms : List (String × Json)} (h : c.setFields ms = some d)
    (h' : c'.setFields ms = some d')
    (hplain : ∀ m ∈ ms, ∀ f, Creds.field m.1 = some f → isPlain f m.2 = true)
    (hsame : c.get f = c'.get f ∨
      ∃ m ∈ ms, Creds.field m.1 = some f ∧ givesValue f m.2 = true) : d.get f = d'.get f := by
  induction ms generalizing c c' with
  | nil =>
      rcases hsame with hsame | ⟨m, hm, -⟩
      · rw [← Option.some.inj h, ← Option.some.inj h', hsame]
      · exact absurd hm List.not_mem_nil
  | cons m rest ih =>
      obtain ⟨e, he, hrest⟩ := Option.bind_eq_some_iff.mp h
      obtain ⟨e', he', hrest'⟩ := Option.bind_eq_some_iff.mp h'
      refine ih hrest hrest' (fun m' hm' => hplain m' (List.mem_cons_of_mem m hm')) ?_
      by_cases hgives : Creds.field m.1 = some f ∧ givesValue f m.2 = true
      · exact .inl (Creds.setField_congr he he' hgives.1 hgives.2
          (hplain m List.mem_cons_self f hgives.1))
      · rcases hsame with hsame | ⟨m', hm', hg⟩
        · left
          rw [Creds.setField_keeps he hgives, Creds.setField_keeps he' hgives, hsame]
        · rcases List.mem_cons.mp hm' with rfl | hm'
          · exact absurd hg hgives
          · exact .inr ⟨m', hm', hg⟩

/-- **An object that gives a field a value, or finds the same one, leaves the same one.** -/
theorem Creds.decode_congr (h : c.decode j = some d) (h' : c'.decode j = some d')
    (hplain : NoNulls j) (hsame : c.get f = c'.get f ∨ Gives f j) : d.get f = d'.get f := by
  cases j with
  | null =>
      rw [← Option.some.inj h, ← Option.some.inj h']
      rcases hsame with hsame | ⟨m, hm, -⟩
      · exact hsame
      · exact absurd hm List.not_mem_nil
  | obj ms => exact Creds.setFields_congr h h' hplain hsame
  | bool | num | str | arr => exact absurd h (by simp [Creds.decode])

end Decode

end DistSql
