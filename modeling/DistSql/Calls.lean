import DistSql.Service

/-!
# What the Handlers Ask the Store

Each handler of the service reads its request first and then calls the store once, or answers
without a call. This module takes the two halves apart: what a handler calls the store with, or
the answer that it gives instead.

`queryHandler` reads its request three times, and not from the same place: `determineConsistency`
looks at the URL, `checkBoolParam` calls `ParseForm`, which also reads the body of a form, and
`getReqQueries` reads what is left of the body.

## Main results

* `queryHandler_eq`, `join_eq`, `leave_eq`: a handler is its call, and the answer to what the
  store returns.
* `posted_query_parsed_iff`: **a posted body is parsed as it is** exactly when it cannot be
  parsed at all, or when the request is no form and its `Content-Type` and query are valid.
-/

open Golang Url

namespace DistSql

namespace Service

variable (s : Service)

/-! ### Membership -/

/-- What `join` calls `store.Join` with, or its answer without a call. -/
def joinCall (r : Http.Request) : Outcome (Except Reply (String × String)) :=
  match s.readMembers r with
  | .error reply => .ret (.error reply)
  | .ok m =>
      match m.lookup "id", m.lookup "addr" with
      | some id, some addr => do
          let id ← assertString id
          let addr ← assertString addr
          return .ok (id, addr)
      | _, _ => .ret (.error (.status 400))

/-- What `leave` calls `store.Leave` with, or its answer without a call. -/
def leaveCall (r : Http.Request) : Outcome (Except Reply String) :=
  match s.readMembers r with
  | .error reply => .ret (.error reply)
  | .ok m =>
      match m.lookup "id" with
      | some id => do
          let id ← assertString id
          return .ok id
      | none => .ret (.error (.status 400))

/-- How `join` ends. -/
def joinReply (leaderAddr : Bytes) (r : Http.Request) : Except RaftError Unit → Reply
  | .error e => answerError leaderAddr r e (.error e.text 500)
  | .ok _ => .status 200

/-- How `leave` ends. -/
def leaveReply (leaderAddr : Bytes) (r : Http.Request) : Except RaftError Unit → Reply
  | .error e => answerError leaderAddr r e (.status 500)
  | .ok _ => .status 200

/-- **`join` is its call**, and the answer to it. -/
theorem join_eq (r : Http.Request) :
    s.join r = s.joinCall r >>= fun
      | .error reply => .ret reply
      | .ok (id, addr) => .ret (joinReply s.store.leaderAddr r (s.store.join id addr)) := by
  rw [join, joinCall]
  rcases s.readMembers r with reply | m
  · rfl
  simp only
  rcases m.lookup "id" with _ | id
  · rfl
  rcases m.lookup "addr" with _ | addr
  · rfl
  simp only
  rcases assertString id with id | msg | _
  · rcases assertString addr with addr | msg | _
    · simp only [Outcome.ret_bind, Outcome.pure_eq_ret]
      rcases s.store.join id addr with e | _ <;> rfl
    · rfl
    · rfl
  · rfl
  · rfl

/-- **`leave` is its call**, and the answer to it. -/
theorem leave_eq (r : Http.Request) :
    s.leave r = s.leaveCall r >>= fun
      | .error reply => .ret reply
      | .ok id => .ret (leaveReply s.store.leaderAddr r (s.store.leave id)) := by
  rw [leave, leaveCall]
  rcases s.readMembers r with reply | m
  · rfl
  simp only
  rcases m.lookup "id" with _ | id
  · rfl
  simp only
  rcases assertString id with id | msg | _
  · simp only [Outcome.ret_bind, Outcome.pure_eq_ret]
    rcases s.store.leave id with e | _ <;> rfl
  · rfl
  · rfl

/-! ### Queries -/

/-- What `queryHandler` calls `store.Query` with, or its answer without a call. -/
def queryCall (r : Http.Request) : Except Reply QueryReq :=
  if r.method ≠ "GET" ∧ r.method ≠ "POST" then .error (.status 405)
  else
    match checkBoolParam r (ascii "transaction") with
    | none => .error (.status 400)
    | some (isTransaction, r') =>
        match s.getReqQueries r' with
        | .error e => .error (.error e 400)
        | .ok queries => .ok ⟨some ⟨isTransaction, queries⟩, s.determineConsistency r⟩

/-- How `queryHandler` ends: the answer to what `Query` returned. -/
def queryReply (leaderAddr : Bytes) (r : Http.Request) : Except RaftError (List QueryRes) → Reply
  | .error e => answerError leaderAddr r e (.data { error := e.text })
  | .ok results => .data { results := { queryRes := some results } }

/-- An error is answered by the target of the request alone. -/
theorem answerError_congr {r r' : Http.Request} (h : r'.target = r.target) (leaderAddr : Bytes)
    (e : RaftError) (other : Reply) :
    answerError leaderAddr r' e other = answerError leaderAddr r e other := by
  simp only [answerError, redirectAddr, h]

/-- **`queryHandler` is its call**, and the answer to it. -/
theorem queryHandler_eq (r : Http.Request) :
    s.queryHandler r =
      match s.queryCall r with
      | .error reply => reply
      | .ok req => queryReply s.store.leaderAddr r (s.store.query req) := by
  rw [queryHandler, queryCall]
  split
  · rfl
  rcases hparam : checkBoolParam r (ascii "transaction") with _ | ⟨isTransaction, r'⟩
  · rfl
  obtain ⟨-, htarget⟩ := checkBoolParam_keeps hparam
  simp only
  rcases hqueries : s.getReqQueries r' with e | queries
  · rfl
  simp only
  split
  · rename_i e herror
    rw [answerError_congr htarget, herror]
    rfl
  · rename_i results hok
    rw [hok]
    rfl

/-- **The body was parsed as it is**: the store is asked with the statements of the whole body
and with the flag of the URL's query, or the request is rejected because the body cannot be
parsed. -/
def ParsedWhole (r : Http.Request) (b : Bytes) : Prop :=
  match parseStatements s.lib b with
  | .error _ => ∃ reply, s.queryCall r = .error reply
  | .ok statements =>
      s.queryCall r = .ok
        ⟨some ⟨(parseQuery r.target.rawQuery).1.any (·.1 = ascii "transaction"), statements⟩,
          s.determineConsistency r⟩

variable {s} {r : Http.Request} {b : Bytes}

/-- What `ParseForm` leaves of a `POST`: the body of a form is read, any other body stays. -/
theorem parseForm_post (hpost : r.method = "POST") (hbody : r.body = .ok b) {values : Url.Values}
    {r' : Http.Request} (h : Http.parseForm r = some (values, r')) :
    r.contentType.valid = true ∧ (parseQuery r.target.rawQuery).2 = true ∧
      if r.contentType.form then r'.body = .ok []
      else r' = r ∧ values = (parseQuery r.target.rawQuery).1 := by
  simp only [Http.parseForm, hpost, true_or, if_true] at h
  obtain ⟨⟨post, r''⟩, hread, h⟩ := Option.bind_eq_some_iff.mp h
  simp only at h
  split at h
  · rename_i hquery
    obtain ⟨hvalues, rfl⟩ := Prod.mk.inj (Option.some.inj h)
    split at hread
    · rename_i hvalid
      refine ⟨hvalid, hquery, ?_⟩
      simp only [Http.parsePostForm, hbody] at hread
      split
      · rename_i hform
        rw [if_pos hform] at hread
        split at hread
        · cases hread
        split at hread
        · rw [← (Prod.mk.inj (Option.some.inj hread)).2]
        · cases hread
      · rename_i hform
        rw [if_neg hform] at hread
        obtain ⟨rfl, rfl⟩ := Prod.mk.inj (Option.some.inj hread)
        exact ⟨rfl, hvalues.symm⟩
    · cases hread
  · cases h

/-- A body that is no form reaches the parser, if `ParseForm` has nothing to complain of. -/
theorem parseForm_of_other (hform : r.contentType.form = false)
    (hvalid : r.contentType.valid = true) (hquery : (parseQuery r.target.rawQuery).2 = true) :
    Http.parseForm r = some ((parseQuery r.target.rawQuery).1, r) := by
  simp [Http.parseForm, Http.parsePostForm, hform, hvalid, hquery]

/-- The statements of a `POST` are those of its body. -/
theorem getReqQueries_post (hpost : r.method = "POST") (hbody : r.body = .ok b) :
    s.getReqQueries r = parseStatements s.lib b := by
  rw [getReqQueries, if_neg (by rw [hpost]; decide), hbody]

/-- What a `POST` that reaches the store is asked with: the request is no form, and its body
was parsed. -/
theorem queryCall_post (hpost : r.method = "POST") (hbody : r.body = .ok b) {req : QueryReq}
    (h : s.queryCall r = .ok req) :
    r.contentType.valid = true ∧ r.contentType.form = false ∧
      (parseQuery r.target.rawQuery).2 = true ∧ ∃ statements,
        parseStatements s.lib b = .ok statements := by
  rw [queryCall, if_neg (by rw [hpost]; decide)] at h
  split at h
  · cases h
  rename_i isTransaction r' hparam
  obtain ⟨⟨values, r''⟩, hread, heq⟩ := Option.map_eq_some_iff.mp hparam
  obtain rfl : r'' = r' := congrArg Prod.snd heq
  obtain ⟨hvalid, hquery, hrest⟩ := parseForm_post hpost hbody hread
  have hmethod := (checkBoolParam_keeps hparam).1.trans hpost
  split at h
  · cases h
  rename_i queries hqueries
  by_cases hform : r.contentType.form = true
  · rw [if_pos hform] at hrest
    rw [getReqQueries_post hmethod hrest, parseStatements_nil] at hqueries
    cases hqueries
  · rw [if_neg hform] at hrest
    obtain ⟨rfl, -⟩ := hrest
    rw [getReqQueries_post hpost hbody] at hqueries
    exact ⟨hvalid, (Bool.not_eq_true _).mp hform, hquery, queries, hqueries⟩

/-- **A posted body is parsed as it is** exactly when it cannot be parsed at all, or when the
request is no form and its `Content-Type` and query are valid. -/
theorem posted_query_parsed_iff (hpost : r.method = "POST") (hbody : r.body = .ok b) :
    s.ParsedWhole r b ↔
      (∃ e, parseStatements s.lib b = .error e) ∨
        (r.contentType.form = false ∧ r.contentType.valid = true ∧
          (parseQuery r.target.rawQuery).2 = true) := by
  rcases hparse : parseStatements s.lib b with e | statements
  · -- a body that cannot be parsed never reaches the store
    refine iff_of_true ?_ (.inl ⟨e, rfl⟩)
    rw [ParsedWhole, hparse]
    rcases hcall : s.queryCall r with reply | req
    · exact ⟨reply, rfl⟩
    · obtain ⟨-, -, -, statements, hok⟩ := queryCall_post hpost hbody hcall
      rw [hparse] at hok
      cases hok
  · rw [ParsedWhole, hparse]
    constructor
    · intro hcall
      obtain ⟨hvalid, hform, hquery, -⟩ := queryCall_post hpost hbody hcall
      exact .inr ⟨hform, hvalid, hquery⟩
    · rintro (⟨e, he⟩ | ⟨hform, hvalid, hquery⟩)
      · cases he
      · rw [queryCall, if_neg (by rw [hpost]; decide), checkBoolParam,
          parseForm_of_other hform hvalid hquery]
        simp only [Option.map_some, getReqQueries_post hpost hbody, hparse]

end Service

/-! ### A posted query -/

/-- A body with one query. -/
def selectBody : Bytes := ascii "[\"SELECT 1\"]"

/-- The library for that body. -/
def selectLibrary : Library := oneDocument selectBody (by decide) (.arr [.str "SELECT 1"])

/-- The query in a transaction, as a `POST` with the given `Content-Type`. -/
def postedQuery (contentType : Http.Media) : Http.Request where
  method := "POST"
  target := ⟨ascii "/query", ascii "transaction", by decide +kernel⟩
  contentType := contentType
  body := .ok selectBody

/-- A store that answers everything. -/
def quietStore : Store where
  exec _ := .ok []
  query _ := .ok []
  leaderAddr := []
  join _ _ := .ok ()
  leave _ := .ok ()

/-- With `application/json` the query reaches the store, in a transaction. -/
theorem posted_json_parsed :
    Service.ParsedWhole ⟨selectLibrary, quietStore⟩ (postedQuery ⟨false, true⟩) selectBody ∧
      Service.queryCall ⟨selectLibrary, quietStore⟩ (postedQuery ⟨false, true⟩) =
        .ok ⟨some ⟨true, [⟨"SELECT 1", []⟩]⟩, false⟩ := by
  refine ⟨(@Service.posted_query_parsed_iff ⟨selectLibrary, quietStore⟩
    (postedQuery ⟨false, true⟩) selectBody rfl rfl).mpr (.inr ⟨rfl, rfl, ?_⟩), ?_⟩
  · decide +kernel
  · decide +kernel

/-- **With the `Content-Type` of a form the body is lost**: `ParseForm` has read it, and the
query is rejected as if there were none, while `execHandler` finds its statement. -/
theorem posted_form_rejected :
    parseStatements selectLibrary selectBody = .ok [⟨"SELECT 1", []⟩] ∧
      Service.readStatements selectLibrary (postedQuery ⟨true, true⟩) =
        .ok [⟨"SELECT 1", []⟩] ∧
      Service.queryHandler ⟨selectLibrary, quietStore⟩ (postedQuery ⟨true, true⟩) =
        .error errBadJson 400 ∧
      ¬Service.ParsedWhole ⟨selectLibrary, quietStore⟩ (postedQuery ⟨true, true⟩)
        selectBody := by
  have hparse : parseStatements selectLibrary selectBody = .ok [⟨"SELECT 1", []⟩] := by
    decide +kernel
  have hcall : Service.queryCall ⟨selectLibrary, quietStore⟩ (postedQuery ⟨true, true⟩) =
      .error (.error errBadJson 400) := by decide +kernel
  refine ⟨hparse, ?_, ?_, ?_⟩
  · simp only [Service.readStatements, postedQuery, hparse]
  · rw [Service.queryHandler_eq, hcall]
  · rw [Service.ParsedWhole]
    simp only [hparse, hcall]
    intro h
    cases h

end DistSql
