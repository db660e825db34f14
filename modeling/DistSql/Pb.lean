import DistSql.Session

/-!
# The Messages of the Store

The protobuf messages that travel through the replicated log and back to the client,
with the fields of `store.proto`. A Go pointer that may be nil is an `Option`: the
`oneof` of a parameter, the request inside a `QueryReq`, and the cells of a result
row (a SQL `NULL` is a nil parameter).

The wire format belongs to the protobuf library; `Proto` takes its two functions for
the three messages that are encoded here, and `Proto.Lawful` says that `Unmarshal`
undoes `Marshal`.
-/

open Sqlite

namespace DistSql

/-- The `oneof value` of a parameter. -/
inductive ParamValue
  | i (i : Int64)
  | d (d : Float64)
  | b (b : Bool)
  | y (y : List UInt8)
  | s (s : String)
  deriving DecidableEq, Repr

/-- `pb.Parameter`: a value, possibly unset, and a name, possibly empty. -/
structure Parameter where
  value : Option ParamValue
  name : String := ""
  deriving DecidableEq, Repr

/-- `pb.Statement`: a SQL text and its parameters. -/
structure Statement where
  sql : String
  params : List Parameter := []
  deriving DecidableEq, Repr

/-- `pb.Request`: statements, run in one transaction or each on its own. -/
structure Request where
  transaction : Bool := false
  statements : List Statement
  deriving DecidableEq, Repr

/-- `pb.QueryReq`: a request and the consistency it asks for. -/
structure QueryReq where
  request : Option Request
  strongConsistency : Bool
  deriving DecidableEq, Repr

/-- `pb.Values`: one result row; a nil entry is a SQL `NULL`. -/
structure Values where
  params : List (Option Parameter)
  deriving DecidableEq, Repr

/-- `pb.QueryRes`: the answer to one statement of a query. -/
structure QueryRes where
  columns : List String := []
  types : List String := []
  values : List Values := []
  error : String := ""
  deriving DecidableEq, Repr

/-- `pb.ExecRes`: the result of one executed statement. -/
structure ExecRes where
  lastInsertId : Int64 := 0
  rowsAffected : Int64 := 0
  error : String := ""
  deriving DecidableEq, Repr

/-- `pb.Action_Type`; the last case stands for the numbers it does not name. -/
inductive ActionType
  | query
  | execute
  | no
  | other (number : Int32)
  deriving DecidableEq, Repr

/-- `pb.Action`: the entry of the replicated log. -/
structure Action where
  type : ActionType
  body : List UInt8
  deriving DecidableEq, Repr

/-- The two functions of the protobuf library for one message. -/
structure Codec (α : Type) where
  marshal : α → Except String (List UInt8)
  unmarshal : List UInt8 → Except String α

/-- `Unmarshal` undoes `Marshal`. -/
def Codec.Lawful {α : Type} (c : Codec α) : Prop :=
  ∀ m b, c.marshal m = .ok b → c.unmarshal b = .ok m

/-- The protobuf library for the messages that are encoded. -/
structure Proto where
  request : Codec Request
  queryReq : Codec QueryReq
  action : Codec Action

/-- `Unmarshal` undoes `Marshal` for every message that is encoded. -/
structure Proto.Lawful (pr : Proto) : Prop where
  request : pr.request.Lawful
  queryReq : pr.queryReq.Lawful
  action : pr.action.Lawful

end DistSql
