import DistSql.Service

/-!
# Redirects to the Leader

A follower answers a request that needs the leader with a redirect, and relies on the client
to bring the request there. What this is for is **transparency** (`SameAtLeader`): the leader
receives the request that the follower received, and so answers what it would have answered
to the client in the first place.

The redirect is a 301, on which a client sends a `GET` without a body whatever it had sent
before. So every `POST` and every request with a body arrives as another one: no join, no
leave and no execute survives, and of the queries only those in a `GET`. The URL of the
redirect is printed from the decoded path, so a path with a percent sign, a question mark, a
number sign, a control byte or a dot segment arrives as another one too, and so does a query
with a number sign or a byte beyond ASCII.

## Main results

* `redirect_transparent_iff`: exactly which redirected requests reach the leader as they
  were.
* `execute_redirect_loses_statements`: a write that does not.
-/

open Golang Url Http

namespace DistSql

/-- The leader is asked what the follower was asked: **the same method, path, query and body**,
and so the same answer from every leader. -/
structure SameAtLeader (lib : Library) (r r' : Http.Request) : Prop where
  method : r'.method = r.method
  target : r'.target = r.target
  body : r'.body = r.body
  answer : ∀ leader : Store, Service.serveHTTP ⟨lib, leader⟩ r' = Service.serveHTTP ⟨lib, leader⟩ r

/-- A client that follows the redirect **brings the request to the leader**. -/
def Transparent (lib : Library) (parseAuthority : Bytes → Option Bytes) (url : Bytes) (code : ℕ)
    (r : Http.Request) : Prop :=
  ∃ r', follow parseAuthority code (location url) r = some r' ∧ SameAtLeader lib r r'

/-- After a 301 the next request is a `GET` or a `HEAD`, and has no body. -/
theorem follow_moved {parseAuthority : Bytes → Option Bytes} {loc : Bytes} {r r' : Http.Request}
    (h : follow parseAuthority 301 loc r = some r') :
    (r'.method = "GET" ∨ r'.method = "HEAD") ∧ r'.body = .ok [] ∧
      received parseAuthority loc = some r'.target := by
  obtain ⟨target, htarget, rfl⟩ := Option.map_eq_some_iff.mp h
  refine ⟨?_, rfl, htarget⟩
  show (if r.method = "GET" ∨ r.method = "HEAD" then r.method else "GET") = "GET" ∨
    (if r.method = "GET" ∨ r.method = "HEAD" then r.method else "GET") = "HEAD"
  split
  · assumption
  · exact .inl rfl

/-- After a 301 a `GET` without a body is sent as it was, to the target of the redirect. -/
theorem follow_get {parseAuthority : Bytes → Option Bytes} {loc : Bytes} {r : Http.Request}
    (hmethod : r.method = "GET") (hbody : r.body = .ok [])
    (h : received parseAuthority loc = some r.target) :
    follow parseAuthority 301 loc r = some r := by
  obtain ⟨method, target, contentType, body⟩ := r
  obtain rfl : method = "GET" := hmethod
  obtain rfl : body = .ok [] := hbody
  rw [follow, h]
  rfl

/-- **Exactly which redirected requests reach the leader as they were**: those that are a
`GET` without a body, and whose path and query survive being printed into a URL. -/
theorem redirect_transparent_iff {s : Service} {r : Http.Request} {url : Bytes} {code : ℕ}
    {parseAuthority : Bytes → Option Bytes}
    (hredirect : s.serveHTTP r = some (.ret (.redirect url code)))
    (hhost : ∀ b ∈ s.store.leaderAddr, HostByte b)
    (hauth : parseAuthority s.store.leaderAddr = some s.store.leaderAddr) :
    Transparent s.lib parseAuthority url code r ↔
      r.method = "GET" ∧ r.body = .ok [] ∧ Survives r.target.path r.target.rawQuery := by
  obtain ⟨⟨-, rfl, rfl⟩, ⟨p, hp⟩, hbodyless⟩ := Service.redirect_cases hredirect
  have hprint : r.target.rawQuery ≠ [] → Service.redirectAddr r s.store.leaderAddr =
      printURL s.store.leaderAddr r.target.path r.target.rawQuery := by
    intro hq
    rw [Service.redirectAddr, if_neg hq, printURL]
  constructor
  · rintro ⟨r', hfollow, hsame⟩
    obtain ⟨hmethod, hbody, hreceived⟩ := follow_moved hfollow
    rw [hsame.method] at hmethod
    rw [hsame.body] at hbody
    rw [hsame.target] at hreceived
    rcases hbodyless hbody with hpost | ⟨hget, hq⟩
    · rw [hpost] at hmethod
      exact absurd hmethod (by decide)
    · rw [hprint hq] at hreceived
      exact ⟨hget, hbody, (received_iff hhost hauth hp hq).mp hreceived⟩
  · rintro ⟨hget, hbody, hsurvives⟩
    rcases hbodyless hbody with hpost | ⟨-, hq⟩
    · exact absurd (hpost.symm.trans hget) (by decide)
    · refine ⟨r, follow_get hget hbody ?_, ⟨rfl, rfl, rfl, fun _ => rfl⟩⟩
      rw [hprint hq]
      exact (received_iff hhost hauth hp hq).mpr hsurvives

/-! ### A cluster of two -/

/-- A follower that knows its leader. -/
def followerStore : Store where
  exec _ := .error .notLeader
  query _ := .error .notLeader
  leaderAddr := ascii "127.0.0.1:8080"
  join _ _ := .error .notLeader
  leave _ := .error .notLeader

/-- A leader that runs what it is given. -/
def leaderStore : Store where
  exec _ := .ok [{ rowsAffected := 1 }]
  query _ := .ok []
  leaderAddr := ascii "127.0.0.1:8080"
  join _ _ := .ok ()
  leave _ := .ok ()

/-- A strong read in a `GET`. -/
def strongRead : Http.Request where
  method := "GET"
  target := ⟨ascii "/query", ascii "q=x&consistency=strong", by decide +kernel⟩
  contentType := ⟨false, true⟩
  body := .ok []

/-- A strong read in a `GET` reaches the leader. -/
theorem redirect_transparent_read :
    Transparent deleteLibrary some (Service.redirectAddr strongRead followerStore.leaderAddr) 301
      strongRead :=
  (@redirect_transparent_iff ⟨deleteLibrary, followerStore⟩ strongRead
    (Service.redirectAddr strongRead followerStore.leaderAddr) 301 some
    (by decide +kernel) (by decide +kernel) rfl).mpr
    ⟨rfl, rfl, by decide +kernel, by decide +kernel, by decide +kernel⟩

/-- What becomes of the write on its way. -/
def followedWrite : Http.Request := { writeRequest with method := "GET", body := .ok [] }

/-- **A write that is redirected loses its statements**: the leader receives a `GET` without
a body, and refuses it, though it would have run the write. -/
theorem execute_redirect_loses_statements :
    Service.serveHTTP ⟨deleteLibrary, followerStore⟩ writeRequest =
        some (.ret (.redirect (ascii "http://127.0.0.1:8080/execute") 301)) ∧
      follow some 301 (location (ascii "http://127.0.0.1:8080/execute")) writeRequest =
        some followedWrite ∧
      ¬Transparent deleteLibrary some (ascii "http://127.0.0.1:8080/execute") 301 writeRequest ∧
      Service.serveHTTP ⟨deleteLibrary, leaderStore⟩ followedWrite =
        some (.ret (.error errBadJson 400)) ∧
      Service.serveHTTP ⟨deleteLibrary, leaderStore⟩ writeRequest =
        some (.ret (.data { results := { execRes := some [{ rowsAffected := 1 }] } })) := by
  have hfollow : follow some 301 (location (ascii "http://127.0.0.1:8080/execute")) writeRequest =
      some followedWrite := by decide +kernel
  refine ⟨by decide +kernel, hfollow, ?_, by decide +kernel, by decide +kernel⟩
  rintro ⟨r', hr', hsame⟩
  obtain rfl := Option.some.inj (hfollow.symm.trans hr')
  exact absurd hsame.method (by decide)

end DistSql
