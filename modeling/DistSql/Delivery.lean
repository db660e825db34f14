import DistSql.ByteTable
import DistSql.Calls
import DistSql.Encoding
import DistSql.Query

/-!
# Delivering an Answer

What a client receives. The results of the store are pointers, any of which may be nil, and
they are encoded only when the answer is written: `writeResponse` calls `json.Marshal`, which
calls `DBResponse.MarshalJSON`, which calls `ProtoToJSON`. An answer whose encoding fails is
replaced by an error 500, and one with a nil result panics.

The handlers of this module are those of `DistSql.Service` over a store that may return nil
results (`serve_raw`).

## Main results

* `answer_deliverable_iff`: **a query answer is delivered** exactly when all its numbers are
  finite.
* `handled_safely_iff`: **no handler panics** exactly when the members that `join` and `leave`
  assert are texts, and the store returns no nil result.
-/

open Golang Url

namespace DistSql

/-! ### Writing a response -/

/-- `DBResponse`, with pointers as Go holds them. -/
structure RawDBResponse where
  execRes : Option (List (Option ExecRes)) := none
  queryRes : Option (List (Option RawQueryRes)) := none
  deriving DecidableEq, Repr

/-- `DataResponse`, with pointers as Go holds them. -/
structure RawDataResponse where
  results : RawDBResponse := {}
  error : String := ""
  deriving DecidableEq, Repr

/-- A response without nil results. -/
def DataResponse.raw (resp : DataResponse) : RawDataResponse where
  results :=
    { execRes := resp.results.execRes.map (List.map some)
      queryRes := resp.results.queryRes.map (List.map fun q => some q.raw) }
  error := resp.error

/-- What a client receives: a bare status, an error text, a redirect, or a body. -/
inductive HttpAnswer
  | status (code : ℕ)
  | error (msg : String) (code : ℕ)
  | redirect (url : Bytes) (code : ℕ)
  | body (text : String)
  deriving DecidableEq, Repr

section Write

variable (float : UInt64 → Number)

/-- `DBResponse.MarshalJSON`. -/
def RawDBResponse.marshalJSON (d : RawDBResponse) : Outcome (Except String String) :=
  match d.execRes with
  | some res => Encoding.protoToJSON float (.execResults res)
  | none =>
      match d.queryRes with
      | some res => Encoding.protoToJSON float (.queryResults res)
      | none => .ret (.ok "[]")

/-- The text of a `DataResponse`, given that of its results, which is escaped for HTML. -/
def responseText (results error : String) : String :=
  .ofList ('\x7b' :: quote true "results" ++ ':' :: compactHTML results.toList ++
    (if error = "" then [] else ',' :: quote true "error" ++ ':' :: quote true error) ++ ['\x7d'])

/-- How `json.Marshal` wraps the error of a `MarshalJSON` method. -/
def marshalerError (m : String) : String :=
  "json: error calling MarshalJSON for type *service.DBResponse: " ++ m

/-- `json.Marshal` of a `DataResponse`. -/
def RawDataResponse.marshal (resp : RawDataResponse) : Outcome (Except String String) := do
  match ← resp.results.marshalJSON float with
  | .error m => return .error (marshalerError m)
  | .ok text => return .ok (responseText text resp.error)

/-- `writeResponse`. -/
def writeResponse (resp : RawDataResponse) : Outcome HttpAnswer := do
  match ← resp.marshal float with
  | .error m => return .error m 500
  | .ok text => return .body text

/-- What becomes of a reply. -/
def deliver : Reply → Outcome HttpAnswer
  | .status code => .ret (.status code)
  | .error msg code => .ret (.error msg code)
  | .redirect url code => .ret (.redirect url code)
  | .data resp => writeResponse float resp.raw

end Write

/-! ### The handlers -/

/-- The four handlers. -/
inductive Route
  | join
  | leave
  | execute
  | query
  deriving DecidableEq, Repr

/-- The switch of `ServeHTTP`. -/
def Route.of (r : Http.Request) : Option Route :=
  if (ascii "/join").isPrefixOf r.target.path then some .join
  else if (ascii "/leave").isPrefixOf r.target.path then some .leave
  else if (ascii "/execute").isPrefixOf r.target.path then some .execute
  else if (ascii "/query").isPrefixOf r.target.path then some .query
  else none

/-- `Store`, with results as Go holds them. -/
structure RawStore where
  exec : Request → Except RaftError (Option (List (Option ExecRes)))
  query : QueryReq → Except RaftError (Option (List (Option RawQueryRes)))
  leaderAddr : Bytes
  join : String → String → Except RaftError Unit
  leave : String → Except RaftError Unit

/-- `Service`, over such a store. -/
structure RawService where
  lib : Library
  float : UInt64 → Number
  store : RawStore

namespace RawService

/-- The part of a service that no result goes through: its requests, and its membership. -/
def front (s : RawService) : Service where
  lib := s.lib
  store :=
    { exec := fun _ => .ok []
      query := fun _ => .ok []
      leaderAddr := s.store.leaderAddr
      join := s.store.join
      leave := s.store.leave }

/-- `execHandler`. -/
def execHandler (s : RawService) (r : Http.Request) : Outcome HttpAnswer :=
  match Service.readStatements s.lib r with
  | .error reply => deliver s.float reply
  | .ok statements =>
      match s.store.exec { statements := statements } with
      | .error e =>
          deliver s.float (Service.answerError s.store.leaderAddr r e (.data { error := e.text }))
      | .ok res => writeResponse s.float { results := { execRes := res } }

/-- `queryHandler`. -/
def queryHandler (s : RawService) (r : Http.Request) : Outcome HttpAnswer :=
  match s.front.queryCall r with
  | .error reply => deliver s.float reply
  | .ok req =>
      match s.store.query req with
      | .error e =>
          deliver s.float (Service.answerError s.store.leaderAddr r e (.data { error := e.text }))
      | .ok res => writeResponse s.float { results := { queryRes := res } }

/-- A request to one of the four handlers. -/
def handler (s : RawService) (r : Http.Request) : Route → Outcome HttpAnswer
  | .join => s.front.join r >>= deliver s.float
  | .leave => s.front.leave r >>= deliver s.float
  | .execute => s.execHandler r
  | .query => s.queryHandler r

/-- `ServeHTTP`, for the paths of the four handlers. -/
def serveHTTP (s : RawService) (r : Http.Request) : Option (Outcome HttpAnswer) :=
  (Route.of r).map (s.handler r)

end RawService

/-- A service whose store returns no nil result. -/
def Service.raw (float : UInt64 → Number) (s : Service) : RawService where
  lib := s.lib
  float := float
  store :=
    { exec := fun req => (s.store.exec req).map fun res => some (res.map some)
      query := fun req => (s.store.query req).map fun res => some (res.map fun q => some q.raw)
      leaderAddr := s.store.leaderAddr
      join := s.store.join
      leave := s.store.leave }

/-- **The handlers are those of `DistSql.Service`**, with the reply delivered. -/
theorem serve_raw (float : UInt64 → Number) (s : Service) (r : Http.Request) :
    (s.raw float).serveHTTP r = (s.serveHTTP r).map (· >>= deliver float) := by
  have hexec : (s.raw float).execHandler r = deliver float (s.execHandler r) := by
    rw [RawService.execHandler, Service.execHandler]
    have hread : Service.readStatements (s.raw float).lib r = Service.readStatements s.lib r := rfl
    rw [hread]
    rcases Service.readStatements s.lib r with reply | statements
    · rfl
    simp only [Service.raw]
    rcases s.store.exec { statements := statements } with e | res <;> rfl
  have hquery : (s.raw float).queryHandler r = deliver float (s.queryHandler r) := by
    rw [RawService.queryHandler, Service.queryHandler_eq]
    have hcall : (s.raw float).front.queryCall r = s.queryCall r := rfl
    rw [hcall]
    rcases s.queryCall r with reply | req
    · rfl
    simp only [Service.raw]
    rcases s.store.query req with e | res <;> rfl
  rw [RawService.serveHTTP, Service.serveHTTP, Route.of]
  split
  · rfl
  split
  · rfl
  split
  · exact congrArg some hexec
  split
  · exact congrArg some hquery
  · rfl

/-! ### When an answer is delivered -/

section Deliverable

variable {float : UInt64 → Number}

/-- The answer to results that could be marshalled, or not. -/
def writtenAnswer (error : String) : Except String String → HttpAnswer
  | .error m => .error (marshalerError m) 500
  | .ok text => .body (responseText text error)

/-- What is written once the results are marshalled. -/
theorem writeResponse_eq {resp : RawDataResponse} {res : Except String String}
    (h : resp.results.marshalJSON float = .ret res) :
    writeResponse float resp = .ret (writtenAnswer resp.error res) := by
  rw [writeResponse, RawDataResponse.marshal, h]
  cases res <;> rfl

/-- The cells of the engine's results that are numbers are finite. -/
def FiniteCells (results : List QueryRes) : Prop :=
  ∀ q ∈ results, ∀ row ∈ q.values, ∀ p ∈ row.params, ∀ d,
    Encoding.cellValue p = some (.d d) → Binary64.Finite d

/-- The rows of a result are not nil. -/
theorem allFinite_raw (q : QueryRes) : Encoding.AllFinite q.raw ↔
    ∀ row ∈ q.values, ∀ p ∈ row.params, ∀ d,
      Encoding.cellValue p = some (.d d) → Binary64.Finite d := by
  rw [Encoding.AllFinite, QueryRes.raw, List.forall_mem_map]
  refine forall₂_congr fun row _ => ?_
  exact ⟨fun h => h row.params rfl, fun h cells hcells => Option.some.inj hcells ▸ h⟩

/-- **A query answer is delivered** exactly when all its numbers are finite: then `ProtoToJSON`
succeeds and `writeResponse` writes its text, and else every answer is replaced by an error
500. -/
theorem answer_deliverable_iff (float : UInt64 → Number) (results : List QueryRes) :
    let sent := results.map fun q => some q.raw
    let answer := writeResponse float { results := { queryRes := some sent } }
    ((∃ text, Encoding.protoToJSON float (.queryResults sent) = .ret (.ok text)) ↔
        FiniteCells results) ∧
      ((∃ body, answer = .ret (.body body)) ↔ FiniteCells results) ∧
      (¬FiniteCells results → ∃ msg, answer = .ret (.error msg 500)) := by
  intro sent answer
  have hsent : sent = (results.map QueryRes.raw).map some := by
    rw [List.map_map]
    rfl
  have hfinite : (∀ q ∈ results.map QueryRes.raw, Encoding.AllFinite q) ↔
      FiniteCells results := by
    rw [List.forall_mem_map]
    exact forall₂_congr fun q _ => allFinite_raw q
  have hproto := (@Encoding.protoToJSON_ok_iff float (results.map QueryRes.raw)).trans hfinite
  rw [← hsent] at hproto
  refine ⟨hproto, ?_⟩
  rw [← hproto]
  have hsome : ∃ res, Encoding.protoToJSON float (.queryResults sent) = .ret res := by
    rw [hsent, Encoding.protoToJSON_queryResults]
    exact ⟨_, rfl⟩
  obtain ⟨res, hres⟩ := hsome
  have hanswer : answer = .ret (writtenAnswer "" res) :=
    @writeResponse_eq float { results := { queryRes := some sent } } res hres
  rw [hres, hanswer]
  cases res <;> simp [writtenAnswer]

end Deliverable

/-- The one-table driver with a text whose answer is an infinity. -/
def realTable : Sqlite.Driver (List UInt8) UInt8 :=
  { Sqlite.byteTable with
    compile := fun sql own d =>
      if sql = "SELECT 9e999" then .ok (own, true) else Sqlite.byteTable.compile sql own d
    query := fun e sql args own d =>
      if sql = "SELECT 9e999" then
        { columnTypes := .ok [""], columns := .ok ["9e999"],
          rows := [.ok [.float64 0x7FF0000000000000]], err := none, own := own }
      else Sqlite.byteTable.query e sql args own d }

/-- What the engine answers to an honest query and to one whose answer is an infinity. -/
def infiniteResults : List QueryRes :=
  [{ columns := ["1"], types := [""], values := [⟨[some ⟨some (.i 1), ""⟩]⟩] },
    { columns := ["9e999"], types := [""],
      values := [⟨[some ⟨some (.d 0x7FF0000000000000), ""⟩]⟩] }]

/-- **An infinity takes the other answers with it**: `SELECT 9e999` has an answer, which cannot
be encoded, and the client receives an error 500 in place of both answers. -/
theorem infinity_replaces_answers :
    (query realTable (.ofEntropy fun _ _ => 0)
        ⟨false, [⟨"SELECT 1", []⟩, ⟨"SELECT 9e999", []⟩]⟩ ⟨[], .fresh true⟩).2 =
        .ret (infiniteResults, none) ∧
      Encoding.protoToJSON (fun _ => ⟨false, 0, 0⟩)
          (.queryResults (infiniteResults.map fun q => some q.raw)) =
        .ret (.error "json: unsupported value: +Inf") ∧
      writeResponse (fun _ => ⟨false, 0, 0⟩)
          { results := { queryRes := some (infiniteResults.map fun q => some q.raw) } } =
        .ret (.error (marshalerError "json: unsupported value: +Inf") 500) ∧
      ¬FiniteCells infiniteResults := by
  refine ⟨rfl, ?_, ?_, fun h => ?_⟩
  · decide +kernel
  · decide +kernel
  · have hbad := h _ (List.mem_cons_of_mem _ List.mem_cons_self) _ List.mem_cons_self _
      List.mem_cons_self _ rfl
    exact absurd hbad (by decide +kernel)

/-! ### When no handler panics -/

namespace RawDBResponse

/-- The results that are encoded have **no nil** among them. -/
def NoNil (d : RawDBResponse) : Prop :=
  match d.execRes with
  | some res => none ∉ res
  | none => ∀ res, d.queryRes = some res → none ∉ res

end RawDBResponse

section Returns

variable {float : UInt64 → Number}

/-- A loop over pointers returns when none of them is nil. -/
theorem returns_mapM_pointers {α β : Type} (f : Option α → Outcome β)
    (hnone : ¬(f none).Returns) (hsome : ∀ a, (f (some a)).Returns) (xs : List (Option α)) :
    (xs.mapM f).Returns ↔ none ∉ xs := by
  rw [returns_mapM_iff]
  constructor
  · intro h hmem
    exact hnone (h none hmem)
  · rintro h (_ | a) hx
    · exact absurd hx h
    · exact hsome a

/-- **A response is written** when its results have no nil among them. -/
theorem writeResponse_returns_iff (resp : RawDataResponse) :
    (writeResponse float resp).Returns ↔ resp.results.NoNil := by
  have hmarshal : (writeResponse float resp).Returns ↔
      (resp.results.marshalJSON float).Returns := by
    rcases hres : resp.results.marshalJSON float with res | m | _
    · rw [writeResponse_eq hres]
      simp
    · rw [writeResponse, RawDataResponse.marshal, hres]
      rfl
    · rw [writeResponse, RawDataResponse.marshal, hres]
      rfl
  have hexec : ∀ res, (Encoding.protoToJSON float (.execResults res)).Returns ↔ none ∉ res :=
    fun res => (Outcome.returns_bind_iff fun _ => Outcome.returns_ret _).trans
      (returns_mapM_pointers Encoding.convertExecuteResult id (fun _ => trivial) res)
  have hquery : ∀ res, (Encoding.protoToJSON float (.queryResults res)).Returns ↔ none ∉ res :=
    fun res => (Outcome.returns_bind_iff fun _ => Outcome.returns_ret _).trans
      (returns_mapM_pointers Encoding.convertQueryRes id (fun _ => trivial) res)
  rw [hmarshal, RawDBResponse.marshalJSON, RawDBResponse.NoNil]
  rcases resp.results.execRes with _ | res
  · rcases resp.results.queryRes with _ | res
    · simp
    · simp [hquery]
  · exact hexec res

/-- A reply without nil results is delivered. -/
theorem deliver_returns (reply : Reply) : (deliver float reply).Returns := by
  cases reply with
  | status code => trivial
  | error msg code => trivial
  | redirect url code => trivial
  | data resp =>
      rw [deliver, writeResponse_returns_iff, RawDBResponse.NoNil, DataResponse.raw]
      rcases resp.results.execRes with _ | res
      · rcases resp.results.queryRes with _ | res <;> simp
      · simp

/-- `execHandler` returns unless the store has returned a nil result. -/
theorem execHandler_returns_iff (s : RawService) (r : Http.Request) :
    (s.execHandler r).Returns ↔
      ∀ statements, Service.readStatements s.lib r = .ok statements →
        ∀ res, s.store.exec { statements := statements } = .ok (some res) → none ∉ res := by
  rw [RawService.execHandler]
  rcases Service.readStatements s.lib r with reply | statements
  · exact iff_of_true (deliver_returns reply) fun _ h => (nomatch h)
  simp only [Except.ok.injEq, forall_eq']
  rcases s.store.exec { statements := statements } with e | res
  · exact iff_of_true (deliver_returns _) fun _ h => (nomatch h)
  simp only [writeResponse_returns_iff, RawDBResponse.NoNil, Except.ok.injEq]
  rcases res with _ | res <;> simp

/-- `queryHandler` returns unless the store has returned a nil result. -/
theorem queryHandler_returns_iff (s : RawService) (r : Http.Request) :
    (s.queryHandler r).Returns ↔
      ∀ req, s.front.queryCall r = .ok req →
        ∀ res, s.store.query req = .ok (some res) → none ∉ res := by
  rw [RawService.queryHandler]
  rcases s.front.queryCall r with reply | req
  · exact iff_of_true (deliver_returns reply) fun _ h => (nomatch h)
  simp only [Except.ok.injEq, forall_eq']
  rcases s.store.query req with e | res
  · exact iff_of_true (deliver_returns _) fun _ h => (nomatch h)
  simp only [writeResponse_returns_iff, RawDBResponse.NoNil, Except.ok.injEq]

end Returns

/-! ### Members that are asserted -/

/-- The value is a text. -/
def IsText (v : Any) : Prop := ∃ s, v = .string s

/-- An assertion returns exactly on a text. -/
theorem assertString_returns_iff (v : Any) : (Service.assertString v).Returns ↔ IsText v := by
  cases v <;> simp [Service.assertString, IsText]

namespace Service

variable (s : Service) (r : Http.Request)

/-- The members that `join` asserts are texts. -/
def JoinsTexts : Prop :=
  ∀ m, s.readMembers r = .ok m → ∀ id, m.lookup "id" = some id →
    ∀ addr, m.lookup "addr" = some addr → IsText id ∧ IsText addr

/-- The member that `leave` asserts is a text. -/
def LeavesText : Prop :=
  ∀ m, s.readMembers r = .ok m → ∀ id, m.lookup "id" = some id → IsText id

/-- `join` gets to its call, or answers without one, when the members are texts. -/
theorem joinCall_returns_iff : (s.joinCall r).Returns ↔ s.JoinsTexts r := by
  rw [joinCall, JoinsTexts]
  rcases s.readMembers r with reply | m
  · simp
  simp only [Except.ok.injEq, forall_eq']
  rcases m.lookup "id" with _ | id
  · simp
  rcases m.lookup "addr" with _ | addr
  · simp
  simp only [Option.some.injEq, forall_eq', ← assertString_returns_iff]
  rcases assertString id with id | msg | _
  · rcases assertString addr with addr | msg | _ <;> simp
  · simp
  · simp

/-- `leave` gets to its call, or answers without one, when the member is a text. -/
theorem leaveCall_returns_iff : (s.leaveCall r).Returns ↔ s.LeavesText r := by
  rw [leaveCall, LeavesText]
  rcases s.readMembers r with reply | m
  · simp
  simp only [Except.ok.injEq, forall_eq']
  rcases m.lookup "id" with _ | id
  · simp
  simp only [Option.some.injEq, forall_eq', ← assertString_returns_iff]
  rcases assertString id with id | msg | _ <;> simp

/-- The body is an object in which each of these keys has a text. -/
def HasTexts (keys : List String) : Prop :=
  ∃ m, s.readMembers r = .ok m ∧ ∀ key ∈ keys, ∃ v, m.lookup key = some v ∧ IsText v

/-- A `POST` whose members are not read is answered with 400. -/
theorem readMembers_post_error {reply : Reply} (hpost : r.method = "POST")
    (h : s.readMembers r = .error reply) : reply = .status 400 := by
  rw [readMembers, if_neg (by simp [hpost])] at h
  split at h
  · exact (Except.error.inj h).symm
  split at h
  · exact (Except.error.inj h).symm
  · cases h

/-- Where a text is missing, `join` does not call the store. -/
theorem joinCall_refused (hpost : r.method = "POST") (htexts : s.JoinsTexts r)
    (hmissing : ¬s.HasTexts r ["id", "addr"]) : s.joinCall r = .ret (.error (.status 400)) := by
  rw [joinCall]
  rcases hread : s.readMembers r with reply | m
  · rw [s.readMembers_post_error r hpost hread]
  simp only
  rcases hid : m.lookup "id" with _ | id
  · rfl
  rcases haddr : m.lookup "addr" with _ | addr
  · rfl
  -- both are there, so both are texts
  obtain ⟨hidText, haddrText⟩ := htexts m hread id hid addr haddr
  refine absurd ⟨m, hread, fun key hkey => ?_⟩ hmissing
  rcases List.mem_cons.mp hkey with rfl | hkey
  · exact ⟨id, hid, hidText⟩
  · obtain rfl := List.mem_singleton.mp hkey
    exact ⟨addr, haddr, haddrText⟩

/-- Where the text is missing, `leave` does not call the store. -/
theorem leaveCall_refused (hpost : r.method = "POST") (htext : s.LeavesText r)
    (hmissing : ¬s.HasTexts r ["id"]) : s.leaveCall r = .ret (.error (.status 400)) := by
  rw [leaveCall]
  rcases hread : s.readMembers r with reply | m
  · rw [s.readMembers_post_error r hpost hread]
  simp only
  rcases hid : m.lookup "id" with _ | id
  · rfl
  refine absurd ⟨m, hread, fun key hkey => ?_⟩ hmissing
  obtain rfl := List.mem_singleton.mp hkey
  exact ⟨id, hid, htext m hread id hid⟩

end Service

namespace RawService

variable (s : RawService) (r : Http.Request)

/-- The request is **handled safely**: its handler returns, and a `POST` to `join` or `leave`
without the texts that it needs is answered with 400 and does not reach the store. -/
def HandledSafely : Prop :=
  ∀ route, Route.of r = some route →
    (s.handler r route).Returns ∧
    (route = .join → r.method = "POST" → ¬s.front.HasTexts r ["id", "addr"] →
      s.front.joinCall r = .ret (.error (.status 400)) ∧
        s.handler r route = .ret (.status 400)) ∧
    (route = .leave → r.method = "POST" → ¬s.front.HasTexts r ["id"] →
      s.front.leaveCall r = .ret (.error (.status 400)) ∧
        s.handler r route = .ret (.status 400))

/-- What the handlers rely on: the members that are asserted are texts, and no result of the
store is nil. -/
def ReliesRightly : Route → Prop
  | .join => s.front.JoinsTexts r
  | .leave => s.front.LeavesText r
  | .execute => ∀ statements, Service.readStatements s.lib r = .ok statements →
      ∀ res, s.store.exec { statements := statements } = .ok (some res) → none ∉ res
  | .query => ∀ req, s.front.queryCall r = .ok req →
      ∀ res, s.store.query req = .ok (some res) → none ∉ res

/-- **A handler returns** exactly when what it relies on is right. -/
theorem handler_returns_iff (route : Route) :
    (s.handler r route).Returns ↔ s.ReliesRightly r route := by
  cases route with
  | join =>
      rw [ReliesRightly, ← s.front.joinCall_returns_iff r, handler,
        Outcome.returns_bind_iff deliver_returns, Service.join_eq]
      refine Outcome.returns_bind_iff fun call => ?_
      rcases call with reply | ⟨id, addr⟩ <;> trivial
  | leave =>
      rw [ReliesRightly, ← s.front.leaveCall_returns_iff r, handler,
        Outcome.returns_bind_iff deliver_returns, Service.leave_eq]
      refine Outcome.returns_bind_iff fun call => ?_
      rcases call with reply | id <;> trivial
  | execute => exact execHandler_returns_iff s r
  | query => exact queryHandler_returns_iff s r

/-- **No handler panics** exactly when what it relies on is right; then a request without the
texts that it needs is answered with 400 as well. The results of the store may be nil wherever Go
allows a nil pointer to a message or a nil slice; the wrapper of a value is there or not, so a
typed nil pointer in its place is not among them. -/
theorem handled_safely_iff :
    s.HandledSafely r ↔ ∀ route, Route.of r = some route → s.ReliesRightly r route := by
  constructor
  · intro h route hroute
    exact (s.handler_returns_iff r route).mp (h route hroute).1
  · intro h route hroute
    have hrelies := h route hroute
    refine ⟨(s.handler_returns_iff r route).mpr hrelies, ?_, ?_⟩
    · rintro rfl hpost hmissing
      have hcall := s.front.joinCall_refused r hpost hrelies hmissing
      refine ⟨hcall, ?_⟩
      rw [handler, Service.join_eq, hcall]
      rfl
    · rintro rfl hpost hmissing
      have hcall := s.front.leaveCall_refused r hpost hrelies hmissing
      refine ⟨hcall, ?_⟩
      rw [handler, Service.leave_eq, hcall]
      rfl

end RawService

/-- A body with a number for an id. -/
def numberedBody : Bytes := ascii "\x7b\"id\": 1, \"addr\": \"x\"\x7d"

/-- The library for it, which reads the number as a `float64`. -/
def numberedLibrary : Library :=
  { oneDocument numberedBody (by decide +kernel)
      (.obj [("id", .num ⟨false, 1, 0⟩), ("addr", .str "x")]) with
    float := fun _ => some 0x3FF0000000000000 }

/-- A request to join with that body. -/
def numberedJoin : Http.Request where
  method := "POST"
  target := ⟨ascii "/join", [], List.forall_mem_nil _⟩
  contentType := ⟨false, true⟩
  body := .ok numberedBody

/-- The service that receives it, with a store that answers everything. -/
def numberedService : RawService :=
  Service.raw (fun _ => ⟨false, 0, 0⟩) ⟨numberedLibrary, quietStore⟩

/-- **A number for an id makes `join` panic.** The store is not asked. -/
theorem numbered_id_panics :
    numberedService.serveHTTP numberedJoin = some (.panic interfaceConversion) ∧
      ¬numberedService.HandledSafely numberedJoin := by
  have hroute : Route.of numberedJoin = some .join := by decide +kernel
  have hpanic : numberedService.handler numberedJoin .join = .panic interfaceConversion := rfl
  refine ⟨?_, fun h => ?_⟩
  · rw [RawService.serveHTTP, hroute, Option.map_some, hpanic]
  · have hreturns := (h .join hroute).1
    rw [hpanic] at hreturns
    exact hreturns

end DistSql
