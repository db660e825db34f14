import DistSql.BasicAuth
import DistSql.Credentials
import DistSql.Utf8

/-!
# From a Credentials File to a Request

What the two checks of the package `security` say of a request, from the file that the store was
filled from to the header of the request. `CheckReq` compares the password of the header with
the hash in the file. `HasPermissionReq` looks up the name in the header, and **does not look at
the password**. A name ends at its first colon, so a user whose name has one cannot be named.

## Main results

* `checkRequest_iff`, `hasPermissionReq_iff`: what the checks say of a request with any headers.
* `requests_authorized`: **what they say of it after a file** whose objects are steady.
-/

open Golang

namespace DistSql

/-- `r.BasicAuth()`, with the values of the header `Authorization`: the first one counts. -/
def readBasicAuth (authorization : List (List Char)) : Option (List UInt8 × List UInt8) :=
  if authorization.headD [] = [] then none else parseBasicAuth (authorization.headD [])

/-- `CheckReq`. The names in the store are texts, as they were read from a JSON file; other bytes
name nobody. -/
def CredentialsStore.checkRequest (bcrypt : List UInt8 → List UInt8 → Bool)
    (cs : CredentialsStore) (authorization : List (List Char)) : Bool :=
  match readBasicAuth authorization with
  | none => false
  | some (username, password) =>
      (ofUtf8 username).any fun u => cs.validatePassword bcrypt u password

/-- `HasPermissionReq`. -/
def CredentialsStore.hasPermissionReq (cs : CredentialsStore)
    (authorization : List (List Char)) (perm : String) : Bool :=
  match readBasicAuth authorization with
  | none => false
  | some (username, _) => (ofUtf8 username).any fun u => cs.hasPermisson u perm

/-! ### One request -/

section

variable {cs : CredentialsStore} {authorization : List (List Char)}

/-- A request **names** a user and a password in its first header. -/
def Names (authorization : List (List Char)) (user : String) (password : List UInt8) : Prop :=
  Carries (authorization.headD []) (utf8 user) password

theorem readBasicAuth_eq_some_iff {user password : List UInt8} :
    readBasicAuth authorization = some (user, password) ↔
      Carries (authorization.headD []) user password := by
  rw [readBasicAuth]
  split
  · rename_i hempty
    refine ⟨fun h => absurd h (by simp), fun h => absurd h.scheme ?_⟩
    rw [hempty]
    decide
  · exact parseBasicAuth_iff

/-- Both checks ask the store about the user that is named. -/
theorem asks_named {answer : String → List UInt8 → Bool} :
    (match readBasicAuth authorization with
      | none => false
      | some (username, password) => (ofUtf8 username).any fun u => answer u password) = true ↔
      ∃ user password, Names authorization user password ∧ answer user password = true := by
  constructor
  · intro h
    rcases hauth : readBasicAuth authorization with _ | ⟨username, password⟩
    · simp [hauth] at h
    simp only [hauth, Option.any_eq_true] at h
    obtain ⟨user, huser, hanswer⟩ := h
    refine ⟨user, password, ?_, hanswer⟩
    rw [Names, utf8_of_ofUtf8 huser]
    exact readBasicAuth_eq_some_iff.mp hauth
  · rintro ⟨user, password, hnames, hanswer⟩
    simp [readBasicAuth_eq_some_iff.mpr hnames, hanswer]

/-- **What `CheckReq` says of a request.** -/
theorem checkRequest_iff {bcrypt : List UInt8 → List UInt8 → Bool} :
    cs.checkRequest bcrypt authorization = true ↔
      ∃ user password, Names authorization user password ∧
        cs.validatePassword bcrypt user password = true :=
  asks_named

/-- **What `HasPermissionReq` says of a request.** -/
theorem hasPermissionReq_iff {perm : String} :
    cs.hasPermissionReq authorization perm = true ↔
      ∃ user password, Names authorization user password ∧ cs.hasPermisson user perm = true :=
  asks_named

/-- `CheckReq` of texts is the one of the store. -/
theorem checkRequest_eq_checkReq (bcrypt : List UInt8 → List UInt8 → Bool)
    {auth : Option (String × String)}
    (h : readBasicAuth authorization = auth.map fun a => (utf8 a.1, utf8 a.2)) :
    cs.checkRequest bcrypt authorization = cs.checkReq bcrypt auth := by
  rcases auth with _ | ⟨user, password⟩
  · simp [CredentialsStore.checkRequest, CredentialsStore.checkReq, h]
  · simp only [CredentialsStore.checkRequest, CredentialsStore.checkReq, h, Option.map_some,
      ofUtf8_utf8, Option.any_some]
    rfl

end

/-! ### What a client writes -/

/-- **A client names its user**, if the name has no colon. -/
theorem names_basicAuth_iff {user : String} {password : List UInt8} {more : List (List Char)} :
    Names (basicAuth (utf8 user) password :: more) user password ↔ ':' ∉ user.toList := by
  have hcolon : colonByte ∈ utf8 user ↔ ':' ∈ user.toList :=
    ascii_mem_utf8 (d := ':') (by decide)
  rw [Names, List.headD_cons, ← parseBasicAuth_iff, parseBasicAuth_basicAuth, cutColon_eq_some_iff,
    hcolon]
  exact and_iff_right rfl

/-- A request names one user. -/
theorem Names.unique {authorization : List (List Char)} {user user' : String}
    {password password' : List UInt8} (h : Names authorization user password)
    (h' : Names authorization user' password') : user = user' ∧ password = password' := by
  have heq := (parseBasicAuth_iff.mpr h).symm.trans (parseBasicAuth_iff.mpr h')
  simp only [Option.some.injEq, Prod.mk.injEq] at heq
  exact ⟨utf8_inj.mp heq.1, heq.2⟩

/-- The name that a request has does not depend on the password that a client gives. -/
theorem names_basicAuth_congr {user u : String} {password p : List UInt8}
    {more : List (List Char)} (h : Names (basicAuth (utf8 user) password :: more) u p)
    (password' : List UInt8) : ∃ p', Names (basicAuth (utf8 user) password' :: more) u p' := by
  rw [Names, List.headD_cons, ← parseBasicAuth_iff, parseBasicAuth_basicAuth,
    cutColon_eq_some_iff] at h
  obtain ⟨hcut, hnot⟩ := h
  simp only [Names, List.headD_cons, ← parseBasicAuth_iff, parseBasicAuth_basicAuth,
    cutColon_eq_some_iff]
  rcases List.append_eq_append_iff.mp hcut with ⟨_ | ⟨b, a⟩, hu, hrest⟩ | ⟨_ | ⟨b, a⟩, huser, hrest⟩
  · exact ⟨password', by rw [hu, List.append_nil], hnot⟩
  · -- the name would go on behind the colon
    obtain ⟨rfl, -⟩ := List.cons.inj hrest
    exact absurd (by simp [hu]) hnot
  · exact ⟨password', by rw [huser, List.append_nil], hnot⟩
  · obtain ⟨rfl, -⟩ := List.cons.inj hrest
    exact ⟨a ++ colonByte :: password', by rw [huser, List.append_assoc, List.cons_append], hnot⟩

/-! ### From the file -/

/-- **What the checks say of a request**, after a file whose objects are steady.

* `CheckReq` accepts it if it names a user whose last object has the hash of its password.
* `HasPermissionReq` accepts it if it names a user whose last object has the permission, **with
  whatever password**.
* A client names the user that it gives exactly if the name has no colon. -/
theorem requests_authorized {r : Feed} (hsteady : Steady r.docs)
    (hok : (newAuthStore.initializeFrom r).2 = none) (bcrypt : List UInt8 → List UInt8 → Bool) :
    (∀ authorization, (newAuthStore.initializeFrom r).1.checkRequest bcrypt authorization = true ↔
      ∃ user password c, Names authorization user password ∧ lastOf user r.docs = some c ∧
        bcrypt (stringBytes c.password) password = true) ∧
    (∀ authorization perm,
      (newAuthStore.initializeFrom r).1.hasPermissionReq authorization perm = true ↔
        ∃ user password c, Names authorization user password ∧ lastOf user r.docs = some c ∧
          perm ∈ c.permissions.values) ∧
    (∀ user password more,
      Names (basicAuth (utf8 user) password :: more) user password ↔ ':' ∉ user.toList) ∧
    ∀ user password password' more perm,
      (newAuthStore.initializeFrom r).1.hasPermissionReq
          (basicAuth (utf8 user) password :: more) perm =
        (newAuthStore.initializeFrom r).1.hasPermissionReq
          (basicAuth (utf8 user) password' :: more) perm := by
  have hown := initialize_isolated hsteady hok
  have hvalid : ∀ user password,
      (newAuthStore.initializeFrom r).1.validatePassword bcrypt user password = true ↔
        ∃ c, lastOf user r.docs = some c ∧ bcrypt (stringBytes c.password) password = true := by
    intro user password
    rw [CredentialsStore.validatePassword, hown.passwords]
    rcases lastOf user r.docs with _ | c <;> simp
  have hperms : ∀ user perm,
      (newAuthStore.initializeFrom r).1.hasPermisson user perm = true ↔
        ∃ c, lastOf user r.docs = some c ∧ perm ∈ c.permissions.values := by
    intro user perm
    rw [CredentialsStore.hasPermisson, hown.permissions]
    rcases lastOf user r.docs with _ | c <;> simp
  refine ⟨fun authorization => ?_, fun authorization perm => ?_, fun user password more =>
    names_basicAuth_iff, fun user password password' more perm => ?_⟩
  · rw [checkRequest_iff]
    simp only [hvalid, exists_and_left]
  · rw [hasPermissionReq_iff]
    simp only [hperms, exists_and_left]
  · rw [Bool.eq_iff_iff, hasPermissionReq_iff, hasPermissionReq_iff]
    constructor
    · rintro ⟨u, p, hnames, hperm⟩
      obtain ⟨p', hnames'⟩ := names_basicAuth_congr hnames password'
      exact ⟨u, p', hnames', hperm⟩
    · rintro ⟨u, p, hnames, hperm⟩
      obtain ⟨p', hnames'⟩ := names_basicAuth_congr hnames password
      exact ⟨u, p', hnames', hperm⟩

/-- A comparison of hashes for which every hash is that of itself. -/
def sameBytes (hash password : List UInt8) : Bool := hash = password

/-- The user `a` of a file has the permission `read` with a password that `CheckReq` refuses. -/
theorem twoUsers_authorized :
    (newAuthStore.initializeFrom twoUsers).1.checkRequest sameBytes
        [basicAuth (utf8 "a") (utf8 "guess")] = false ∧
      (newAuthStore.initializeFrom twoUsers).1.hasPermissionReq
        [basicAuth (utf8 "a") (utf8 "guess")] "read" = true := by
  obtain ⟨hcheck, hperm, hnames, -⟩ :=
    requests_authorized steady_twoUsers (by decide) sameBytes
  have hlast : lastOf "a" twoUsers.docs =
      some ⟨"a", "h", (lastOf "a" twoUsers.docs).elim {} (·.permissions)⟩ := by decide
  have hnamed := (hnames "a" (utf8 "guess") []).mpr (by decide)
  refine ⟨?_, (hperm _ _).mpr ⟨"a", _, _, hnamed, hlast, by decide⟩⟩
  refine Bool.eq_false_iff.mpr fun h => ?_
  obtain ⟨user, password, c, hother, hc, hmatch⟩ := (hcheck _).mp h
  obtain ⟨rfl, rfl⟩ := hnamed.unique hother
  obtain rfl := Option.some.inj (hlast.symm.trans hc)
  exact absurd hmatch (by decide)

end DistSql
