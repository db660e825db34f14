import DistSql.Fsm
import DistSql.Http
import DistSql.Json

/-!
# The HTTP Front

The four handlers of the service that reach the store: `join`, `leave`, `execHandler` and
`queryHandler`. Each of them reads what it needs from the request, calls the store once, and
turns the result into an answer. A store that is not the leader answers `ErrNotLeader`, and
the handlers turn that into a redirect to the address that the store knows for the leader,
or into a refusal if it knows none.

What the handlers call in Go's own library is `Library`: the scanner of `encoding/json`, the
reading of numbers as `float64`, the order in which a map is ranged over, and the texts of
byte strings.

## Main results

* `redirect_cases`: **the requests that are redirected**. The answer is always a 301 to the
  leader's address with the request's own path and query, and a request without a body is
  redirected only as a `POST`, or as a `GET` with a query.
-/

open Golang Url

namespace DistSql

/-! ### Go's library -/

/-- What the handlers call in Go's own library. -/
structure Library where
  text : Bytes → String
  text_nil : text [] = ""
  json : Bytes → Option Json
  json_nil : json [] = none
  float : Number → Option UInt64
  order : ℕ → ℕ → List (String × Any) → List (String × Any)
  order_perm : ∀ i j m, (order i j m).Perm m

/-- The bytes of an ASCII text. -/
def ascii (s : String) : Bytes := s.toList.map Char.toUInt8

/-- `unicode.IsSpace`. -/
def isSpace (c : Char) : Bool :=
  c.toNat ∈ [0x09, 0x0A, 0x0B, 0x0C, 0x0D, 0x20, 0x85, 0xA0, 0x1680, 0x2028, 0x2029, 0x202F, 0x205F,
    0x3000] || (0x2000 ≤ c.toNat && c.toNat ≤ 0x200A)

/-- `strings.TrimSpace`. -/
def trimSpace (s : String) : String :=
  .ofList ((s.toList.dropWhile isSpace).reverse.dropWhile isSpace).reverse

/-! ### The statements of a request -/

/-- `ErrBadJson`. -/
def errBadJson : String := "bad json couldn't be parsed properly"

/-- `ErrEmpty`. -/
def errEmpty : String := "no statements were provided"

/-- The error of `constructParam`. -/
def errParamType : String := "unrecognized type. Valid types: int, float, byte, string, bool"

/-- `constructParam`. The case of an `int` has no body, so it ends like an unknown type. -/
def constructParam (name : String) : Any → Except String Parameter
  | .int64 i => .ok ⟨some (.i i), name⟩
  | .float64 d => .ok ⟨some (.d d), name⟩
  | .bool b => .ok ⟨some (.b b), name⟩
  | .bytes y => .ok ⟨some (.y y), name⟩
  | .string s => .ok ⟨some (.s s), name⟩
  | _ => .error errParamType

/-- The parameters of item `j` of statement `i`: those of an object by name, in the order in
which Go ranges over it, and any other value without one. -/
def itemParams (lib : Library) (i j : ℕ) : Any → Except String (List Parameter)
  | .map m => (lib.order i j m).mapM fun (k, v) => constructParam k v
  | v => (constructParam "" v).map fun p => [p]

/-- Statement `i` of a request with parameters. -/
def parseStatement (lib : Library) (i : ℕ) : List Any → Except String Statement
  | [] => .error errEmpty
  | .string sql :: items =>
      (items.zipIdx.mapM fun (v, j) => itemParams lib i j v).map fun ps => ⟨sql, List.flatten ps⟩
  | _ => .error errBadJson

/-- `parseStatements`: a list of texts, or a list of statements with their parameters. -/
def parseStatements (lib : Library) (b : Bytes) : Except String (List Statement) :=
  match (lib.json b).bind Json.toTexts with
  | some statements =>
      if statements = [] then .error errEmpty else .ok (statements.map fun s => ⟨s, []⟩)
  | none =>
      match (lib.json b).bind (Json.toSlices lib.float) with
      | some withParams => withParams.zipIdx.mapM fun (items, i) => parseStatement lib i items
      | none => .error errBadJson

/-- No statements are read from an empty body. -/
theorem parseStatements_nil (lib : Library) : parseStatements lib [] = .error errBadJson := by
  simp [parseStatements, lib.json_nil]

/-! ### Answers -/

/-- `DBResponse`. -/
structure DBResponse where
  execRes : Option (List ExecRes) := none
  queryRes : Option (List QueryRes) := none
  deriving DecidableEq, Repr

/-- `DataResponse`. -/
structure DataResponse where
  results : DBResponse := {}
  error : String := ""
  deriving DecidableEq, Repr

/-- What a handler answers: a bare status, an error text, a redirect, or data. -/
inductive Reply
  | status (code : ℕ)
  | error (msg : String) (code : ℕ)
  | redirect (url : Bytes) (code : ℕ)
  | data (resp : DataResponse)
  deriving DecidableEq, Repr

/-- `Store`: what the store answers while a request is handled. -/
structure Store where
  exec : Request → Except RaftError (List ExecRes)
  query : QueryReq → Except RaftError (List QueryRes)
  leaderAddr : Bytes
  join : String → String → Except RaftError Unit
  leave : String → Except RaftError Unit

/-- `Service`. -/
structure Service where
  lib : Library
  store : Store

namespace Service

variable (s : Service)

/-- `redirectAddr`: the URL of a request at another address. -/
def redirectAddr (r : Http.Request) (url : Bytes) : Bytes :=
  http ++ (slash :: slash :: (url ++ (r.target.path ++
    if r.target.rawQuery = [] then [] else question :: r.target.rawQuery)))

/-- What every handler makes of an error of the store, given what the store then knows for
the leader's address: an error that is not `ErrNotLeader` it answers in its own way. -/
def answerError (leaderAddr : Bytes) (r : Http.Request) (e : RaftError) (other : Reply) : Reply :=
  match e with
  | .notLeader =>
      if leaderAddr = [] then .error errNotLeader 503
      else .redirect (redirectAddr r leaderAddr) 301
  | .other _ => other

/-- The type assertion of `join` and `leave`. -/
def assertString : Any → Outcome String
  | .string v => .ret v
  | _ => .panic interfaceConversion

/-- How `join` and `leave` begin: the members of the JSON object in the body of a `POST`, or
the answer to any other request. -/
def readMembers (r : Http.Request) : Except Reply (List (String × Any)) :=
  if r.method ≠ "POST" then .error (.status 405)
  else
    match r.body with
    | .error _ => .error (.status 400)
    | .ok b =>
        match (s.lib.json b).bind (Json.toMap s.lib.float) with
        | none => .error (.status 400)
        | some m => .ok m

/-- `join`. -/
def join (r : Http.Request) : Outcome Reply :=
  match s.readMembers r with
  | .error reply => .ret reply
  | .ok m =>
      match m.lookup "id", m.lookup "addr" with
      | some id, some addr => do
          let id ← assertString id
          let addr ← assertString addr
          match s.store.join id addr with
          | .error e => return answerError s.store.leaderAddr r e (.error e.text 500)
          | .ok _ => return .status 200
      | _, _ => .ret (.status 400)

/-- `leave`. -/
def leave (r : Http.Request) : Outcome Reply :=
  match s.readMembers r with
  | .error reply => .ret reply
  | .ok m =>
      match m.lookup "id" with
      | some id => do
          let id ← assertString id
          match s.store.leave id with
          | .error e => return answerError s.store.leaderAddr r e (.status 500)
          | .ok _ => return .status 200
      | none => .ret (.status 400)

/-- How `execHandler` begins: the statements in the body, or the answer to a body that has
none. -/
def readStatements (lib : Library) (r : Http.Request) : Except Reply (List Statement) :=
  match r.body with
  | .error e => .error (.error e 400)
  | .ok b =>
      match parseStatements lib b with
      | .error e => .error (.error e 400)
      | .ok statements => .ok statements

/-- How `execHandler` ends: the answer to what `Exec` returned. -/
def execReply (leaderAddr : Bytes) (r : Http.Request) : Except RaftError (List ExecRes) → Reply
  | .error e => answerError leaderAddr r e (.data { error := e.text })
  | .ok res => .data { results := { execRes := some res } }

/-- `execHandler`. -/
def execHandler (r : Http.Request) : Reply :=
  match readStatements s.lib r with
  | .error reply => reply
  | .ok statements => execReply s.store.leaderAddr r (s.store.exec { statements := statements })

/-- `determineConsistency`. -/
def determineConsistency (r : Http.Request) : Bool :=
  toLower (trimSpace (s.lib.text ((parseQuery r.target.rawQuery).1.get (ascii "consistency"))))
    = "strong"

/-- `checkBoolParam`: whether a key is there, and the request with what was read of it.
Without a result it failed. -/
def checkBoolParam (r : Http.Request) (param : Bytes) : Option (Bool × Http.Request) :=
  (Http.parseForm r).map fun (values, r') => (values.any (·.1 = param), r')

/-- The errors of `getReqQueries`. -/
def errBadQuery (method : String) : String := "bad query " ++ method ++ " request"

/-- `getReqQueries`: the parameter `q` of a `GET`, or the body of any other request. -/
def getReqQueries (r : Http.Request) : Except String (List Statement) :=
  if r.method = "GET" then
    let stmt := trimSpace (s.lib.text ((parseQuery r.target.rawQuery).1.get (ascii "q")))
    if stmt = "" then .error (errBadQuery "GET") else .ok [⟨stmt, []⟩]
  else
    match r.body with
    | .error _ => .error (errBadQuery "POST")
    | .ok b => parseStatements s.lib b

/-- `queryHandler`. -/
def queryHandler (r : Http.Request) : Reply :=
  if r.method ≠ "GET" ∧ r.method ≠ "POST" then .status 405
  else
    match checkBoolParam r (ascii "transaction") with
    | none => .status 400
    | some (isTransaction, r') =>
        match s.getReqQueries r' with
        | .error e => .error e 400
        | .ok queries =>
            match s.store.query ⟨some ⟨isTransaction, queries⟩, s.determineConsistency r⟩ with
            | .error e => answerError s.store.leaderAddr r' e (.data { error := e.text })
            | .ok results => .data { results := { queryRes := some results } }

/-- `ServeHTTP`, for the paths of the four handlers. -/
def serveHTTP (r : Http.Request) : Option (Outcome Reply) :=
  if (ascii "/join").isPrefixOf r.target.path then some (s.join r)
  else if (ascii "/leave").isPrefixOf r.target.path then some (s.leave r)
  else if (ascii "/execute").isPrefixOf r.target.path then some (.ret (s.execHandler r))
  else if (ascii "/query").isPrefixOf r.target.path then some (.ret (s.queryHandler r))
  else none

/-! ### Redirects -/

variable {s} {r : Http.Request} {url : Bytes} {code : ℕ}

/-- A redirect comes from `ErrNotLeader`: it is a 301 to the leader's address, with the
request's own path and query. -/
theorem answerError_redirect {leaderAddr : Bytes} {e : RaftError} {other : Reply}
    (hother : ∀ url code, other ≠ .redirect url code)
    (h : answerError leaderAddr r e other = .redirect url code) :
    e = .notLeader ∧ leaderAddr ≠ [] ∧ url = redirectAddr r leaderAddr ∧ code = 301 := by
  unfold answerError at h
  split at h
  · split at h
    · exact absurd h (by simp)
    · rename_i hleader
      obtain ⟨hurl, hcode⟩ := Reply.redirect.inj h
      exact ⟨rfl, hleader, hurl.symm, hcode.symm⟩
  · exact absurd h (hother url code)

/-- `execHandler` redirects on `ErrNotLeader` only. -/
theorem execReply_redirect {leaderAddr : Bytes} {res : Except RaftError (List ExecRes)}
    (h : execReply leaderAddr r res = .redirect url code) :
    res = .error .notLeader ∧ leaderAddr ≠ [] ∧ url = redirectAddr r leaderAddr ∧ code = 301 := by
  unfold execReply at h
  split at h
  · obtain ⟨rfl, hleader⟩ := answerError_redirect (by simp) h
    exact ⟨rfl, hleader⟩
  · exact absurd h (by simp)

/-- A **redirect to the leader**: a 301 to its address, with the request's own path and
query. -/
def ToLeader (s : Service) (r : Http.Request) (url : Bytes) (code : ℕ) : Prop :=
  s.store.leaderAddr ≠ [] ∧ url = redirectAddr r s.store.leaderAddr ∧ code = 301

/-- The members are those of a `POST`. -/
theorem readMembers_post {m : List (String × Any)} (h : s.readMembers r = .ok m) :
    r.method = "POST" := by
  by_contra hmethod
  rw [readMembers, if_pos hmethod] at h
  exact absurd h (by simp)

/-- A request whose members are not read is not redirected. -/
theorem readMembers_error {reply : Reply} (h : s.readMembers r = .error reply) :
    reply = .status 405 ∨ reply = .status 400 := by
  unfold readMembers at h
  split at h
  · exact .inl (Except.error.inj h).symm
  split at h
  · exact .inr (Except.error.inj h).symm
  split at h
  · exact .inr (Except.error.inj h).symm
  · exact absurd h (by simp)

/-- `join` redirects `POST` requests only. -/
theorem join_redirect (h : s.join r = .ret (.redirect url code)) :
    r.method = "POST" ∧ s.ToLeader r url code := by
  unfold join at h
  split at h
  · rename_i reply hread
    obtain rfl := Outcome.ret.inj h
    exact absurd (readMembers_error hread) (by simp)
  rename_i m hread
  refine ⟨readMembers_post hread, ?_⟩
  split at h
  · obtain ⟨id, -, h⟩ := Outcome.bind_eq_ret_iff.mp h
    obtain ⟨addr, -, h⟩ := Outcome.bind_eq_ret_iff.mp h
    split at h
    · exact (answerError_redirect (by simp) (Outcome.ret.inj h)).2
    · exact absurd h (by simp)
  · exact absurd h (by simp)

/-- `leave` redirects `POST` requests only. -/
theorem leave_redirect (h : s.leave r = .ret (.redirect url code)) :
    r.method = "POST" ∧ s.ToLeader r url code := by
  unfold leave at h
  split at h
  · rename_i reply hread
    obtain rfl := Outcome.ret.inj h
    exact absurd (readMembers_error hread) (by simp)
  rename_i m hread
  refine ⟨readMembers_post hread, ?_⟩
  split at h
  · obtain ⟨id, -, h⟩ := Outcome.bind_eq_ret_iff.mp h
    split at h
    · exact (answerError_redirect (by simp) (Outcome.ret.inj h)).2
    · exact absurd h (by simp)
  · exact absurd h (by simp)

/-- No statements are read from a request without a body. -/
theorem readStatements_bodyless {lib : Library} (h : r.body = .ok []) :
    readStatements lib r = .error (.error errBadJson 400) := by
  rw [readStatements, h]
  simp only [parseStatements_nil]

/-- A request whose statements are not read is answered with an error. -/
theorem readStatements_error {lib : Library} {reply : Reply}
    (h : readStatements lib r = .error reply) : ∃ msg, reply = .error msg 400 := by
  unfold readStatements at h
  split at h
  · exact ⟨_, (Except.error.inj h).symm⟩
  split at h
  · exact ⟨_, (Except.error.inj h).symm⟩
  · exact absurd h (by simp)

/-- `execHandler` redirects requests with a body only. -/
theorem execHandler_redirect (h : s.execHandler r = .redirect url code) :
    r.body ≠ .ok [] ∧ s.ToLeader r url code := by
  unfold execHandler at h
  split at h
  · rename_i reply hread
    obtain ⟨msg, rfl⟩ := readStatements_error hread
    exact absurd h (by simp)
  · rename_i statements hread
    refine ⟨fun hnil => ?_, (execReply_redirect h).2⟩
    rw [readStatements_bodyless hnil] at hread
    exact absurd hread (by simp)

/-- Reading a form leaves the method and the target alone. -/
theorem checkBoolParam_keeps {param : Bytes} {set : Bool} {r' : Http.Request}
    (h : checkBoolParam r param = some (set, r')) :
    r'.method = r.method ∧ r'.target = r.target := by
  obtain ⟨⟨values, r''⟩, hform, heq⟩ := Option.map_eq_some_iff.mp h
  obtain rfl : r'' = r' := congrArg Prod.snd heq
  exact Http.parseForm_keeps hform

/-- A `GET` needs a query to ask. -/
theorem getReqQueries_get {queries : List Statement} (hmethod : r.method = "GET")
    (h : s.getReqQueries r = .ok queries) : r.target.rawQuery ≠ [] := by
  intro hnil
  have hget : (parseQuery r.target.rawQuery).1.get (ascii "q") = [] := by
    rw [hnil, parseQuery_nil]
    rfl
  rw [getReqQueries, if_pos hmethod, hget, s.lib.text_nil] at h
  exact absurd h (by simp [trimSpace])

/-- `queryHandler` redirects `POST` requests, and `GET` requests with a query. -/
theorem queryHandler_redirect (h : s.queryHandler r = .redirect url code) :
    (r.method = "POST" ∨ r.method = "GET" ∧ r.target.rawQuery ≠ []) ∧ s.ToLeader r url code := by
  unfold queryHandler at h
  split at h
  · exact absurd h (by simp)
  rename_i hmethod
  split at h
  · exact absurd h (by simp)
  rename_i set r' hparam
  obtain ⟨hkeep, htarget⟩ := checkBoolParam_keeps hparam
  split at h
  · exact absurd h (by simp)
  rename_i queries hqueries
  refine ⟨?_, ?_⟩
  · by_cases hget : r.method = "GET"
    · exact .inr ⟨hget, htarget ▸ getReqQueries_get (hkeep.trans hget) hqueries⟩
    · exact .inl (by_contra fun hpost => hmethod ⟨hget, hpost⟩)
  · split at h
    · obtain ⟨-, hleader, hurl, hcode⟩ := answerError_redirect (by simp) h
      refine ⟨hleader, ?_, hcode⟩
      rw [hurl, redirectAddr, redirectAddr, htarget]
    · exact absurd h (by simp)

/-- **The requests that are redirected.** A request without a body is one only as a `POST`,
or as a `GET` with a query. -/
theorem redirect_cases (h : s.serveHTTP r = some (.ret (.redirect url code))) :
    s.ToLeader r url code ∧ (∃ p, r.target.path = slash :: p) ∧
      (r.body = .ok [] → r.method = "POST" ∨ r.method = "GET" ∧ r.target.rawQuery ≠ []) := by
  have hslash : ∀ {cs : Bytes}, (slash :: cs).isPrefixOf r.target.path = true →
      ∃ p, r.target.path = slash :: p := by
    intro cs hcs
    obtain ⟨p, hp⟩ := List.isPrefixOf_iff_prefix.mp hcs
    exact ⟨cs ++ p, hp.symm⟩
  unfold serveHTTP at h
  split at h
  · rename_i hpath
    obtain ⟨hmethod, hleader⟩ := join_redirect (Option.some.inj h)
    exact ⟨hleader, hslash hpath, fun _ => .inl hmethod⟩
  split at h
  · rename_i hpath
    obtain ⟨hmethod, hleader⟩ := leave_redirect (Option.some.inj h)
    exact ⟨hleader, hslash hpath, fun _ => .inl hmethod⟩
  split at h
  · rename_i hpath
    obtain ⟨hbody, hleader⟩ := execHandler_redirect (Outcome.ret.inj (Option.some.inj h))
    exact ⟨hleader, hslash hpath, fun hnil => absurd hnil hbody⟩
  split at h
  · rename_i hpath
    obtain ⟨hmethod, hleader⟩ := queryHandler_redirect (Outcome.ret.inj (Option.some.inj h))
    exact ⟨hleader, hslash hpath, fun _ => hmethod⟩
  · exact absurd h (by simp)

end Service

/-! ### A write -/

/-- A library that knows one document. -/
def oneDocument (b : Bytes) (hb : b ≠ []) (doc : Json) : Library where
  text bytes := .ofList (bytes.map fun b => Char.ofNat b.toNat)
  text_nil := rfl
  json bytes := if bytes = b then some doc else none
  json_nil := if_neg hb.symm
  float _ := none
  order _ _ m := m
  order_perm _ _ m := .refl m

/-- It knows the document. -/
theorem oneDocument_json (b : Bytes) (hb : b ≠ []) (doc : Json) :
    (oneDocument b hb doc).json b = some doc :=
  if_pos rfl

/-- A body with one statement. -/
def deleteBody : Bytes := ascii "[\"DELETE FROM test\"]"

/-- The library for that body. -/
def deleteLibrary : Library := oneDocument deleteBody (by decide) (.arr [.str "DELETE FROM test"])

/-- A write, as a `POST`. -/
def writeRequest : Http.Request where
  method := "POST"
  target := ⟨ascii "/execute", [], by simp⟩
  contentType := ⟨false, true⟩
  body := .ok deleteBody

end DistSql
