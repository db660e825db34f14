import DistSql.Bodies
import DistSql.Joining
import DistSql.QueryString
import DistSql.Redirect

/-!
# Asking With a `GET`

A query in the URL: the statement is the parameter `q`, and the parameters `transaction` and
`consistency` say how it is read. A client prints its parameters with `url.Values.Encode`. Such a
query needs no escapes on any way that it goes, so it is the one kind of request that a follower's
redirect brings to the leader as it was.

## Main results

* `queryCall_get`: what is read from the parameters.
* `asked_anywhere`: **a query can be asked at any node**. The node asks its store what the client
  has written, and so does the leader if the node redirects.
-/

open Golang Url

namespace DistSql

/-- The values of parameters. -/
def valuesOf (params : List (String × String)) : Url.Values :=
  params.map fun v => (utf8 v.1, utf8 v.2)

/-- The query string of parameters, as a client prints it. -/
def queryOf (params : List (String × String)) : Bytes := printQuery (valuesOf params)

/-- **What the parameters of a `GET` ask**: the first `q`, in a transaction if there is a
`transaction`, and from the log if the first `consistency` is strong. -/
def queryAsked (params : List (String × String)) : Except Reply QueryReq :=
  let stmt := trimSpace ((params.lookup "q").getD "")
  if stmt = "" then .error (.error (Service.errBadQuery "GET") 400)
  else
    .ok ⟨some ⟨params.any (·.1 = "transaction"), [⟨stmt, []⟩]⟩,
      toLower (trimSpace ((params.lookup "consistency").getD "")) = "strong"⟩

/-- What a node answers to them. -/
def queryAnswered (store : Store) (r : Http.Request) (params : List (String × String)) : Reply :=
  match queryAsked params with
  | .error reply => reply
  | .ok req => Service.queryReply store.leaderAddr r (store.query req)

section

variable {rg : MapOrder} {params : List (String × String)} {r : Http.Request}

/-- The first value of a key is read. -/
theorem text_get (key : String) (params : List (String × String)) :
    (goLibrary rg).text ((valuesOf params).get (utf8 key)) = (params.lookup key).getD "" := by
  induction params with
  | nil => rfl
  | cons v rest ih =>
      obtain ⟨k, s⟩ := v
      rw [valuesOf, Values.get] at ih ⊢
      simp only [List.map_cons, List.lookup_cons, beq_eq_decide, utf8_inj]
      by_cases hkey : key = k
      · simp [hkey, goLibrary]
      · simpa [hkey] using ih

/-- A key is there. -/
theorem any_valuesOf (key : String) (params : List (String × String)) :
    ((valuesOf params).any fun v => v.1 = utf8 key) = params.any fun v => v.1 = key := by
  rw [valuesOf, List.any_map]
  simp only [Function.comp_def, utf8_inj]

/-- **What is read from the parameters.** -/
theorem queryCall_get {s : Service} (hlib : s.lib = goLibrary rg) (hmethod : r.method = "GET")
    (hquery : r.target.rawQuery = queryOf params) : s.queryCall r = queryAsked params := by
  have hparse : parseQuery r.target.rawQuery = (valuesOf params, true) := by
    rw [hquery, queryOf, parseQuery_printQuery]
  have hform : Http.parseForm r = some (valuesOf params, r) := by
    simp [Http.parseForm, hmethod, hparse]
  have hflag : Service.checkBoolParam r (ascii "transaction") =
      some (params.any fun v => v.1 = "transaction", r) := by
    have hkey : ascii "transaction" = utf8 "transaction" := by decide +kernel
    rw [Service.checkBoolParam, hform, Option.map_some, hkey, ← any_valuesOf]
  have hstmt : s.lib.text ((parseQuery r.target.rawQuery).1.get (ascii "q")) =
      (params.lookup "q").getD "" := by
    have hkey : ascii "q" = utf8 "q" := by decide +kernel
    rw [hlib, hparse, hkey, text_get]
  have hconsistency : s.lib.text ((parseQuery r.target.rawQuery).1.get (ascii "consistency")) =
      (params.lookup "consistency").getD "" := by
    have hkey : ascii "consistency" = utf8 "consistency" := by decide +kernel
    rw [hlib, hparse, hkey, text_get]
  simp only [Service.queryCall, hmethod, hflag, Service.getReqQueries, hstmt,
    Service.determineConsistency, hconsistency, queryAsked]
  by_cases hempty : trimSpace ((params.lookup "q").getD "") = ""
  · simp [hempty]
  · simp [hempty]

end

/-- **A query can be asked at any node.** The node asks its store what the client has written;
and if it redirects, the request arrives at the leader as it was, and the leader's store is asked
the same. -/
theorem asked_anywhere (rg : MapOrder) (params : List (String × String)) {r : Http.Request}
    (hmethod : r.method = "GET") (hbody : r.body = .ok []) (hpath : r.target.path = ascii "/query")
    (hquery : r.target.rawQuery = queryOf params) {parseAuthority : Bytes → Option Bytes}
    {node : Store} (hhost : ProperHost parseAuthority node.leaderAddr) :
    Service.serveHTTP ⟨goLibrary rg, node⟩ r = some (.ret (queryAnswered node r params)) ∧
      ∀ url code, queryAnswered node r params = .redirect url code →
        ∃ r', Http.follow parseAuthority code (Http.location url) r = some r' ∧
          ∀ leader : Store, Service.serveHTTP ⟨goLibrary rg, leader⟩ r' =
            some (.ret (queryAnswered leader r' params)) := by
  have hserve : ∀ store : Store, Service.serveHTTP ⟨goLibrary rg, store⟩ r =
      some (.ret (queryAnswered store r params)) := by
    intro store
    have hroute : Service.serveHTTP ⟨goLibrary rg, store⟩ r =
        some (.ret (Service.queryHandler ⟨goLibrary rg, store⟩ r)) := by
      rw [Service.serveHTTP, hpath]
      rfl
    rw [hroute, Service.queryHandler_eq,
      @queryCall_get rg params r ⟨goLibrary rg, store⟩ rfl hmethod hquery]
    rfl
  refine ⟨hserve node, fun url code hredirect => ⟨r, ?_, hserve⟩⟩
  have hnode := hserve node
  rw [hredirect] at hnode
  obtain ⟨⟨-, rfl, rfl⟩, ⟨p, hp⟩, hbodyless⟩ := Service.redirect_cases hnode
  have hne : r.target.rawQuery ≠ [] := by
    rcases hbodyless hbody with hpost | ⟨-, hne⟩
    · exact absurd (hpost.symm.trans hmethod) (by decide)
    · exact hne
  -- nothing of the path and the query is changed by printing it
  have hsurvives : Http.Survives r.target.path r.target.rawQuery := by
    refine ⟨?_, ?_, ?_⟩
    · rw [hpath]
      decide +kernel
    · rw [hpath]
      decide +kernel
    · intro b hb
      rw [hquery] at hb
      obtain ⟨hhash, -, hascii⟩ := plain_printQuery _ b hb
      exact ⟨hhash, hascii⟩
  refine follow_get hmethod hbody ?_
  rw [Service.redirectAddr, if_neg hne]
  exact (Http.received_iff hhost.bytes hhost.parsed hp hne).mpr hsurvives

/-- A strong query in a `GET`, with signs that are escaped. -/
def strongQuery : List (String × String) := [("q", "SELECT 1 + 1 & 2"), ("consistency", " Strong")]

/-- The request for it. -/
def strongGet : Http.Request :=
  ⟨"GET", ⟨ascii "/query", queryOf strongQuery, by decide +kernel⟩, ⟨false, true⟩, .ok []⟩

/-- Asked at a follower, the query comes to the leader. -/
theorem strongGet_asked :
    queryAnswered followerStore strongGet strongQuery =
        .redirect (Service.redirectAddr strongGet followerStore.leaderAddr) 301 ∧
      ∃ r', Http.follow some 301
          (Http.location (Service.redirectAddr strongGet followerStore.leaderAddr)) strongGet =
            some r' ∧
        Service.serveHTTP ⟨goLibrary asGiven, leaderStore⟩ r' =
          some (.ret (queryAnswered leaderStore r' strongQuery)) := by
  have hredirect : queryAnswered followerStore strongGet strongQuery =
      .redirect (Service.redirectAddr strongGet followerStore.leaderAddr) 301 := by decide +kernel
  have hhost : ProperHost some followerStore.leaderAddr := ⟨by decide +kernel, rfl⟩
  obtain ⟨r', hfollow, hleader⟩ :=
    (asked_anywhere asGiven strongQuery rfl rfl rfl rfl hhost).2 _ _ hredirect
  exact ⟨hredirect, r', hfollow, hleader leaderStore⟩

end DistSql
