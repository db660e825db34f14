import DistSql.Query

/-!
# The Replicated State Machine

What raft replicates is a log of encoded actions, and what every replica does with it
is `applyAction`: decode the action, decode the request inside it, and hand it to the
engine. The two proposing paths (`Consensus.Exec` and the strong path of
`Consensus.Query`) encode their requests separately, and assert the type of the
response that comes back.

Local failures reach neither the encoding nor the dispatch: an entry that was proposed
decodes on every replica to what was proposed, and applying it is the same as handing
the request to the engine.

## Main results

* `applySwitch_cases`: what the switch of `applyAction` does with an entry.
* `decodesTo_encode`: an encoded proposal decodes to what was proposed.
* `applyAction_of_decodesTo`: applying an entry hands the engine what it decodes to.
-/

open Golang Sqlite

namespace DistSql

variable {D E : Type}

/-! ### The engine -/

/-- `engine.Engine`: the published database, the write connection, and the read
connection. -/
structure Engine (D : Type) where
  db : D
  write : Conn D
  read : Conn D

/-- An engine whose connections were just opened. -/
def Engine.fresh (db : D) : Engine D := ⟨db, .fresh false, .fresh true⟩

/-- `Engine.Exec`. -/
def Engine.exec (drv : Driver D E) (loc : Local E) (req : Request) (eng : Engine D) :
    Engine D × Outcome (List ExecRes × Option String) :=
  let p := DistSql.exec drv loc req ⟨eng.db, eng.write⟩
  ({ eng with db := p.1.db, write := p.1.conn }, p.2)

/-- `Engine.Query`. A nil request is looked into after the connection was obtained. -/
def Engine.query (drv : Driver D E) (loc : Local E) (req : Option Request)
    (eng : Engine D) : Engine D × Outcome (List QueryRes × Option String) :=
  match req with
  | some req =>
      let p := DistSql.query drv loc req ⟨eng.db, eng.read⟩
      ({ eng with db := p.1.db, read := p.1.conn }, p.2)
  | none =>
      match loc.conn with
      | some m => (eng, .ret ([], some m))
      | none => (eng, .panic nilDereference)

/-! ### Applying an entry -/

/-- What `applyAction` returns: an `execResponse`, a `queryResponse`, or nil. -/
inductive Response
  | exec (res : List ExecRes) (error : Option String)
  | query (res : List QueryRes) (error : Option String)
  | nil
  deriving DecidableEq, Repr

/-- The switch of `applyAction`, over whatever `db.Exec` and `db.Query` do to a state. -/
def applySwitch {σ : Type} (pr : Proto)
    (onExec : Request → σ × Outcome (List ExecRes × Option String))
    (onQuery : Option Request → σ × Outcome (List QueryRes × Option String))
    (data : List UInt8) (s : σ) : σ × Outcome Response :=
  match pr.action.unmarshal data with
  | .error _ => (s, .panic "failed to unmarshal cluster command")
  | .ok ac =>
      match ac.type with
      | .execute =>
          match pr.request.unmarshal ac.body with
          | .error _ => (s, .panic "failed to unmarshal execute request")
          | .ok execAc =>
              let p := onExec execAc
              (p.1, p.2 >>= fun r => .ret (.exec r.1 r.2))
      | .query =>
          match pr.queryReq.unmarshal ac.body with
          | .error _ => (s, .panic "failed to unmarshal execute request")
          | .ok execAc =>
              let p := onQuery execAc.request
              (p.1, p.2 >>= fun r => .ret (.query r.1 r.2))
      | .no => (s, .ret .nil)
      | .other _ => (s, .ret .nil)

/-- A proposal: a request to `Consensus.Exec`, or one to the strong path of
`Consensus.Query`. -/
inductive Proposal
  | exec (req : Request)
  | query (q : QueryReq)
  deriving DecidableEq, Repr

/-- The bytes decode to the proposal: the action to its kind, its body to its
request. -/
def DecodesTo (pr : Proto) (b : List UInt8) : Proposal → Prop
  | .exec req => ∃ body, pr.action.unmarshal b = .ok ⟨.execute, body⟩ ∧
      pr.request.unmarshal body = .ok req
  | .query q => ∃ body, pr.action.unmarshal b = .ok ⟨.query, body⟩ ∧
      pr.queryReq.unmarshal body = .ok q

/-- **What the switch does with an entry**, whatever `db.Exec` and `db.Query` do: it hands a
request to one of them, or it leaves the state alone and panics or answers nil. -/
theorem applySwitch_cases (pr : Proto) (data : List UInt8) :
    (∃ req, DecodesTo pr data (.exec req) ∧
      ∀ (σ : Type) onExec onQuery (s : σ), applySwitch pr onExec onQuery data s =
        ((onExec req).1, (onExec req).2 >>= fun r => .ret (.exec r.1 r.2))) ∨
    (∃ q, DecodesTo pr data (.query q) ∧
      ∀ (σ : Type) onExec onQuery (s : σ), applySwitch pr onExec onQuery data s =
        ((onQuery q.request).1, (onQuery q.request).2 >>= fun r => .ret (.query r.1 r.2))) ∨
    ((∀ p, ¬DecodesTo pr data p) ∧ ∃ out : Outcome Response,
      (out = .ret .nil ∨ ∃ m, out = .panic m) ∧
      ∀ (σ : Type) onExec onQuery (s : σ), applySwitch pr onExec onQuery data s = (s, out)) := by
  rcases hac : pr.action.unmarshal data with m | ⟨ty, body⟩
  · refine .inr (.inr ⟨fun p h => ?_, _, .inr ⟨"failed to unmarshal cluster command", rfl⟩,
      fun σ onExec onQuery s => by simp only [applySwitch, hac]⟩)
    cases p <;> simp [DecodesTo, hac] at h
  cases ty with
  | execute =>
      rcases hreq : pr.request.unmarshal body with m | req
      · refine .inr (.inr ⟨fun p h => ?_, _, .inr ⟨"failed to unmarshal execute request", rfl⟩,
          fun σ onExec onQuery s => by simp only [applySwitch, hac, hreq]⟩)
        cases p <;> simp [DecodesTo, hac, hreq] at h
      · exact .inl ⟨req, ⟨body, hac, hreq⟩, fun σ onExec onQuery s => by
          simp only [applySwitch, hac, hreq]⟩
  | query =>
      rcases hreq : pr.queryReq.unmarshal body with m | q
      · refine .inr (.inr ⟨fun p h => ?_, _, .inr ⟨"failed to unmarshal execute request", rfl⟩,
          fun σ onExec onQuery s => by simp only [applySwitch, hac, hreq]⟩)
        cases p <;> simp [DecodesTo, hac, hreq] at h
      · exact .inr (.inl ⟨q, ⟨body, hac, hreq⟩, fun σ onExec onQuery s => by
          simp only [applySwitch, hac, hreq]⟩)
  | no | other _ =>
      refine .inr (.inr ⟨fun p h => ?_, _, .inl rfl, fun σ onExec onQuery s => by
        simp only [applySwitch, hac]⟩)
      cases p <;> simp [DecodesTo, hac] at h

/-- **The switch keeps two sides related** when executing and querying do, with the same
answers. -/
theorem applySwitch_related {σ τ : Type} {R : σ → τ → Prop} (pr : Proto)
    {onExec : Request → σ × Outcome (List ExecRes × Option String)}
    {onExec' : Request → τ × Outcome (List ExecRes × Option String)}
    {onQuery : Option Request → σ × Outcome (List QueryRes × Option String)}
    {onQuery' : Option Request → τ × Outcome (List QueryRes × Option String)} {s : σ} {t : τ}
    (hexec : ∀ req, R (onExec req).1 (onExec' req).1 ∧ (onExec req).2 = (onExec' req).2)
    (hquery : ∀ req, R (onQuery req).1 (onQuery' req).1 ∧ (onQuery req).2 = (onQuery' req).2)
    (h : R s t) (data : List UInt8) :
    R (applySwitch pr onExec onQuery data s).1 (applySwitch pr onExec' onQuery' data t).1 ∧
      (applySwitch pr onExec onQuery data s).2 =
        (applySwitch pr onExec' onQuery' data t).2 := by
  rcases applySwitch_cases pr data with ⟨req, -, hrun⟩ | ⟨q, -, hrun⟩ | ⟨-, out, -, hrun⟩
  · rw [hrun, hrun, (hexec req).2]
    exact ⟨(hexec req).1, rfl⟩
  · rw [hrun, hrun, (hquery q.request).2]
    exact ⟨(hquery q.request).1, rfl⟩
  · rw [hrun, hrun]
    exact ⟨h, rfl⟩

/-- `applyAction`. -/
def applyAction (pr : Proto) (drv : Driver D E) (loc : Local E) (data : List UInt8)
    (eng : Engine D) : Engine D × Outcome Response :=
  applySwitch pr (fun req => eng.exec drv loc req) (fun req => eng.query drv loc req) data eng

/-! ### Proposing an entry -/

/-- The errors of the `ErrNotLeader` check and of raft's futures. -/
inductive RaftError
  | notLeader
  | other (msg : String)
  deriving DecidableEq, Repr

/-- `ErrNotLeader`. -/
def errNotLeader : String := "not raft leader"

/-- The text that a caller sees for an error of a future. -/
def RaftError.text : RaftError → String
  | .notLeader => errNotLeader
  | .other m => m

/-- The panic of a failed type assertion. -/
def interfaceConversion : String := "interface conversion"

/-- The entry that `Consensus.Exec` proposes through `apply`. -/
def encodeExec (pr : Proto) (req : Request) : Except String (List UInt8) :=
  match pr.request.marshal req with
  | .error m => .error m
  | .ok body => pr.action.marshal ⟨.execute, body⟩

/-- The entry that the strong path of `Consensus.Query` proposes. -/
def encodeQuery (pr : Proto) (q : QueryReq) : Except String (List UInt8) :=
  match pr.queryReq.marshal q with
  | .error m => .error m
  | .ok body => pr.action.marshal ⟨.query, body⟩

/-- The end of `Consensus.Exec`: the answer to the caller when the future resolved. -/
def answerExec : Except RaftError Response → Outcome (List ExecRes × Option String)
  | .error e => .ret ([], some e.text)
  | .ok (.exec res err) => .ret (res, err)
  | .ok _ => .panic interfaceConversion

/-- The end of the strong path of `Consensus.Query`. -/
def answerQuery : Except RaftError Response → Outcome (List QueryRes × Option String)
  | .error e => .ret ([], some e.text)
  | .ok (.query res err) => .ret (res, err)
  | .ok _ => .panic interfaceConversion

/-- The entry of a proposal. -/
def Proposal.encode (pr : Proto) : Proposal → Except String (List UInt8)
  | .exec req => encodeExec pr req
  | .query q => encodeQuery pr q

/-- The engine takes a proposal as it is, without an encoding in between. -/
def Engine.take (drv : Driver D E) (loc : Local E) (eng : Engine D) :
    Proposal → Engine D × Outcome Response
  | .exec req =>
      let p := eng.exec drv loc req
      (p.1, p.2 >>= fun r => .ret (.exec r.1 r.2))
  | .query q =>
      let p := eng.query drv loc q.request
      (p.1, p.2 >>= fun r => .ret (.query r.1 r.2))

/-- **An encoded proposal decodes** to what was proposed. -/
theorem decodesTo_encode {pr : Proto} (hpr : pr.Lawful) {p : Proposal} {b : List UInt8}
    (h : p.encode pr = .ok b) : DecodesTo pr b p := by
  cases p with
  | exec req =>
      rcases hm : pr.request.marshal req with m | body
      · simp [Proposal.encode, encodeExec, hm] at h
      · simp only [Proposal.encode, encodeExec, hm] at h
        exact ⟨body, hpr.action _ _ h, hpr.request _ _ hm⟩
  | query q =>
      rcases hm : pr.queryReq.marshal q with m | body
      · simp [Proposal.encode, encodeQuery, hm] at h
      · simp only [Proposal.encode, encodeQuery, hm] at h
        exact ⟨body, hpr.action _ _ h, hpr.queryReq _ _ hm⟩

/-- **Applying an entry** hands the engine what it decodes to. -/
theorem applyAction_of_decodesTo {pr : Proto} {p : Proposal} {b : List UInt8}
    (h : DecodesTo pr b p) (drv : Driver D E) (loc : Local E) (eng : Engine D) :
    applyAction pr drv loc b eng = eng.take drv loc p := by
  cases p with
  | exec req =>
      obtain ⟨body, hac, hreq⟩ := h
      simp only [applyAction, applySwitch, hac, hreq, Engine.take]
  | query q =>
      obtain ⟨body, hac, hreq⟩ := h
      simp only [applyAction, applySwitch, hac, hreq, Engine.take]

end DistSql
