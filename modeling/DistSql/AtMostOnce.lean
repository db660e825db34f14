import DistSql.Machine
import DistSql.Proposals
import DistSql.Service

/-!
# At Most One Application per Write

A client sends a write to some node. The handler there calls `Consensus.Exec`, which looks
whether its node is the leader, hands the write to raft, and waits. Leadership and what the
nodes know about it change at any time, and so does the state of the write inside raft. The
client follows a redirect to any node, as often as it gets one, and does not try again after
any other answer.

What this is for: **the write is in the replicated log at most once**, however often the
client is sent on. It rests on one distinction. An attempt that ends in `ErrNotLeader`
surely never happens, and only such an attempt sends the client on. An attempt that ends in
any other error may still happen, and the client hears of that error.

## Main results

* `execReturn_text`: `Exec` reports every error of a future under its own text.
* `run_handler_follower`, `run_handler_leader`: the steps of the handler in a row are
  `execHandler`.
* `clusterStep_sound`, `at_most_once`: the law, step by step and for every run.
-/

open Golang Machine Raft Raft.Proposals Url

namespace DistSql

/-! ### `Consensus.Exec` -/

/-- `apply`: the errors of a future, with raft's "not leader" as `ErrNotLeader`. -/
def futureResult : Result Response → Except RaftError Response
  | .notLeader => .error .notLeader
  | .failed msg => .error (.other msg)
  | .done response => .ok response

/-- The end of `Consensus.Exec`, with its error as a value. -/
def execReturn : Except RaftError Response → Outcome (Except RaftError (List ExecRes))
  | .error e => .ret (.error e)
  | .ok (.exec res none) => .ret (.ok res)
  | .ok (.exec _ (some msg)) => .ret (.error (.other msg))
  | .ok _ => .panic interfaceConversion

/-- The value is the one whose text the caller sees. -/
theorem execReturn_text (future : Except RaftError Response) :
    (answerExec future >>= fun a => .ret a.2) =
      (execReturn future >>= fun
        | .ok _ => .ret none
        | .error e => .ret (some e.text)) := by
  rcases future with e | (⟨res, _ | msg⟩ | ⟨res, err⟩ | _) <;> rfl

/-- Only "not leader" becomes `ErrNotLeader`. -/
theorem execReturn_notLeader {result : Result Response}
    (h : execReturn (futureResult result) = .ret (.error .notLeader)) : result = .notLeader := by
  rcases result with _ | msg | (⟨res, _ | msg⟩ | ⟨res, err⟩ | _)
  · rfl
  all_goals simp [futureResult, execReturn] at h

/-! ### The cluster -/

/-- How far the write is: it has arrived at a node, `Exec` was called there, `Exec` found its
node to be the leader, it waits for an attempt, it has returned, or the client has its
answer. -/
inductive Stage
  | arrived (n : ℕ) (r : Http.Request)
  | called (n : ℕ) (r : Http.Request) (req : Request)
  | proposing (n : ℕ) (r : Http.Request) (data : List UInt8)
  | waiting (n : ℕ) (r : Http.Request) (k : ℕ)
  | returned (n : ℕ) (r : Http.Request) (res : Except RaftError (List ExecRes))
  | answered (reply : Reply)
  | panicked

/-- A call of `Exec` that has returned: its attempt, if it came to one, and its result. -/
structure ExecCall where
  attempt : Option ℕ
  result : Except RaftError (List ExecRes)

/-- A cluster with one client that writes: which nodes take themselves for the leader, what
they know for the leader's address, raft, how far each replica has applied what is
committed, the calls of `Exec` so far, and how far the write is. -/
structure Cluster where
  leads : ℕ → Bool
  addr : ℕ → Bytes
  raft : Proposals (List UInt8) Response
  pos : ℕ → ℕ
  calls : List ExecCall
  stage : Stage

/-- What can happen next: a node's leadership or its knowledge of the leader changes,
something happens in raft, a replica applies an entry, the handler does its next step, or
the client follows a redirect to a node with a request of its own making. -/
inductive ClusterStep
  | elect (n : ℕ) (leads : Bool)
  | learn (n : ℕ) (addr : Bytes)
  | raft (op : Op (List UInt8) Response) (hop : ∀ data, op ≠ .propose data)
  | apply (i : ℕ)
  | handler
  | follow (n : ℕ) (r : Http.Request)

/-- `Exec` returns. -/
def Cluster.ret (σ : Cluster) (n : ℕ) (r : Http.Request) (attempt : Option ℕ)
    (res : Except RaftError (List ExecRes)) : Cluster :=
  { σ with calls := σ.calls ++ [⟨attempt, res⟩], stage := .returned n r res }

/-- The next step of the handler. -/
def handlerStep (pr : Proto) (lib : Library) (σ : Cluster) : Cluster :=
  match σ.stage with
  | .arrived n r =>
      match Service.readStatements lib r with
      | .error reply => { σ with stage := .answered reply }
      | .ok statements => { σ with stage := .called n r { statements := statements } }
  | .called n r req =>
      if σ.leads n then
        match encodeExec pr req with
        | .error msg => σ.ret n r none (.error (.other msg))
        | .ok data => { σ with stage := .proposing n r data }
      else σ.ret n r none (.error .notLeader)
  | .proposing n r data =>
      { σ with raft := σ.raft.step (.propose data), stage := .waiting n r σ.raft.attempts.length }
  | .waiting n r k =>
      match σ.raft.attempts[k]?.bind (·.result) with
      | none => σ
      | some result =>
          match execReturn (futureResult result) with
          | .ret res => σ.ret n r (some k) res
          | _ => { σ with stage := .panicked }
  | .returned n r res => { σ with stage := .answered (Service.execReply (σ.addr n) r res) }
  | .answered _ | .panicked => σ

/-- One step of the cluster. The client goes on only when it has been redirected. -/
def clusterStep (pr : Proto) (lib : Library) (σ : Cluster) : ClusterStep → Cluster
  | .elect n leads => { σ with leads := Function.update σ.leads n leads }
  | .learn n addr => { σ with addr := Function.update σ.addr n addr }
  | .raft op _ => { σ with raft := σ.raft.step op }
  | .apply i =>
      if σ.pos i < σ.raft.committed.length then
        { σ with pos := Function.update σ.pos i (σ.pos i + 1) }
      else σ
  | .handler => handlerStep pr lib σ
  | .follow n r =>
      match σ.stage with
      | .answered (.redirect _ _) => { σ with stage := .arrived n r }
      | _ => σ

/-- A cluster to which a client sends a write: raft holds what others have proposed. -/
def Cluster.start (leads : ℕ → Bool) (addr : ℕ → Bytes) (others : List (List UInt8)) (n : ℕ)
    (r : Http.Request) : Cluster where
  leads := leads
  addr := addr
  raft := { appended := others.map fun data => ⟨none, data⟩ }
  pos _ := 0
  calls := []
  stage := .arrived n r

/-! ### The handler in a row -/

section Handler

variable {pr : Proto} {lib : Library} {σ : Cluster} {n : ℕ} {r : Http.Request} {store : Store}

/-- **On a follower the steps of the handler are `execHandler`** over a store that is not the
leader. -/
theorem run_handler_follower (hs : σ.stage = .arrived n r) (hlead : σ.leads n = false)
    (hexec : ∀ req, store.exec req = .error .notLeader) (haddr : store.leaderAddr = σ.addr n) :
    (run (clusterStep pr lib) σ [.handler, .handler, .handler]).stage =
      .answered (Service.execHandler ⟨lib, store⟩ r) := by
  rcases hread : Service.readStatements lib r with reply | statements
  · simp [clusterStep, handlerStep, hs, hread, Service.execHandler]
  · simp [clusterStep, handlerStep, Cluster.ret, hs, hread, hlead, Service.execHandler, hexec,
      haddr]

/-- **On a leader they are `execHandler`** over a store that answers what becomes of the
attempt. -/
theorem run_handler_leader (hs : σ.stage = .arrived n r) (hlead : σ.leads n = true)
    {statements : List Statement} (hread : Service.readStatements lib r = .ok statements)
    {data : List UInt8} (henc : encodeExec pr { statements := statements } = .ok data)
    {p : Proposals (List UInt8) Response} {result : Result Response}
    (hp : p.attempts[σ.raft.attempts.length]?.bind (·.result) = some result)
    {res : Except RaftError (List ExecRes)}
    (hret : execReturn (futureResult result) = .ret res)
    (hexec : store.exec { statements := statements } = res) (haddr : store.leaderAddr = σ.addr n) :
    (run (clusterStep pr lib)
        { run (clusterStep pr lib) σ [.handler, .handler, .handler] with raft := p }
        [.handler, .handler]).stage = .answered (Service.execHandler ⟨lib, store⟩ r) := by
  simp [clusterStep, handlerStep, Cluster.ret, hs, hread, hlead, henc, hp, hret,
    Service.execHandler, hexec, haddr]

end Handler

/-! ### The law -/

/-- What replica `i` has applied. -/
def Cluster.applied (σ : Cluster) (i : ℕ) : List (Logged (List UInt8)) := σ.raft.applied (σ.pos i)

/-- **At most one application per write.** -/
structure AtMostOnce (σ : Cluster) : Prop where
  appended : σ.raft.appended.countP (·.attempt.isSome) ≤ 1
  applied : ∀ i, (σ.applied i).countP (·.attempt.isSome) ≤ 1
  notLeader : ∀ call ∈ σ.calls, call.result = .error .notLeader → ∀ k, call.attempt = some k →
    (∀ en ∈ σ.raft.appended, en.attempt ≠ some k) ∧ ∀ i, ∀ en ∈ σ.applied i, en.attempt ≠ some k

/-- Where the write is, and **which attempts can still count**: none before a proposal and
after an `ErrNotLeader`, and otherwise at most one. -/
def Stage.Sound (p : Proposals (List UInt8) Response) : Stage → Prop
  | .arrived .. | .called .. | .proposing .. => p.AllRefused
  | .waiting _ _ k => p.OnlyLive k
  | .returned _ _ res => (∃ k, p.OnlyLive k) ∧ (res = .error .notLeader → p.AllRefused)
  | .answered reply =>
      (∃ k, p.OnlyLive k) ∧ ((∃ url code, reply = .redirect url code) → p.AllRefused)
  | .panicked => ∃ k, p.OnlyLive k

/-- The invariant of the cluster. -/
structure Cluster.Sound (σ : Cluster) : Prop where
  lawful : σ.raft.Lawful
  stage : σ.stage.Sound σ.raft
  calls : ∀ call ∈ σ.calls, call.result = .error .notLeader → ∀ k, call.attempt = some k →
    ∃ t, σ.raft.attempts[k]? = some t ∧ t.fate = .refused

/-- At every stage at most one attempt can count. -/
theorem Stage.Sound.onlyLive {p : Proposals (List UInt8) Response} {stage : Stage}
    (h : stage.Sound p) : ∃ k, p.OnlyLive k := by
  cases stage with
  | arrived n r => exact ⟨0, AllRefused.onlyLive h 0⟩
  | called n r req => exact ⟨0, AllRefused.onlyLive h 0⟩
  | proposing n r data => exact ⟨0, AllRefused.onlyLive h 0⟩
  | waiting n r k => exact ⟨k, h⟩
  | returned n r res => exact h.1
  | answered reply => exact h.1
  | panicked => exact h

/-- What happens in raft keeps a stage sound. -/
theorem Stage.Sound.step {p : Proposals (List UInt8) Response} {stage : Stage} (h : stage.Sound p)
    {op : Op (List UInt8) Response} (hop : ∀ data, op ≠ .propose data) :
    stage.Sound (p.step op) := by
  have hone : ∀ {p' : Proposals (List UInt8) Response}, (∃ k, p'.OnlyLive k) →
      ∃ k, (p'.step op).OnlyLive k := fun ⟨k, hk⟩ => ⟨k, hk.step hop⟩
  cases stage with
  | arrived n r => exact AllRefused.step h hop
  | called n r req => exact AllRefused.step h hop
  | proposing n r data => exact AllRefused.step h hop
  | waiting n r k => exact OnlyLive.step h hop
  | returned n r res => exact ⟨hone h.1, fun hres => (h.2 hres).step hop⟩
  | answered reply => exact ⟨hone h.1, fun hredirect => (h.2 hredirect).step hop⟩
  | panicked => exact hone h

variable {pr : Proto} {lib : Library} {σ : Cluster}

/-- The attempts of the calls that ended in `ErrNotLeader` are refused after any step. -/
theorem Cluster.Sound.calls_step (h : σ.Sound) (op : Op (List UInt8) Response) :
    ∀ call ∈ σ.calls, call.result = .error .notLeader → ∀ k, call.attempt = some k →
      ∃ t, (σ.raft.step op).attempts[k]? = some t ∧ t.fate = .refused := by
  intro call hcall hres k hk
  obtain ⟨t, ht, hfate⟩ := h.calls call hcall hres k hk
  obtain ⟨t', ht', hkeep, -⟩ := step_keeps op ht
  exact ⟨t', ht', hkeep hfate⟩

/-- `Exec` returns soundly if an `ErrNotLeader` comes after refusals only, the one of its own
attempt included. -/
theorem Cluster.Sound.ret (h : σ.Sound) {n : ℕ} {r : Http.Request} {attempt : Option ℕ}
    {res : Except RaftError (List ExecRes)} (hrefused : res = .error .notLeader → σ.raft.AllRefused)
    (hattempt : ∀ k, attempt = some k → ∃ t, σ.raft.attempts[k]? = some t) :
    (σ.ret n r attempt res).Sound := by
  refine ⟨h.lawful, ⟨h.stage.onlyLive, hrefused⟩, fun call hcall hres k hk => ?_⟩
  rcases List.mem_append.mp hcall with hcall | hcall
  · exact h.calls call hcall hres k hk
  · obtain rfl := List.mem_singleton.mp hcall
    obtain ⟨t, ht⟩ := hattempt k hk
    exact ⟨t, ht, hrefused hres t (List.mem_of_getElem? ht)⟩

/-- **The handler keeps the invariant.** -/
theorem handlerStep_sound (h : σ.Sound) : (handlerStep pr lib σ).Sound := by
  have hstage := h.stage
  unfold handlerStep
  split
  · rename_i n r hs
    rw [hs] at hstage
    split
    · rename_i reply hread
      obtain ⟨msg, rfl⟩ := Service.readStatements_error hread
      exact ⟨h.lawful, ⟨⟨0, AllRefused.onlyLive hstage 0⟩, by simp⟩, h.calls⟩
    · exact ⟨h.lawful, hstage, h.calls⟩
  · rename_i n r req hs
    rw [hs] at hstage
    split
    · split
      · exact h.ret (by simp) (by simp)
      · exact ⟨h.lawful, hstage, h.calls⟩
    · exact h.ret (fun _ => hstage) (by simp)
  · rename_i n r data hs
    rw [hs] at hstage
    exact ⟨step_lawful h.lawful (.propose data), AllRefused.propose hstage data,
      h.calls_step (.propose data)⟩
  · rename_i n r k hs
    rw [hs] at hstage
    split
    · exact h
    rename_i result hresult
    obtain ⟨t, ht, htres⟩ := Option.bind_eq_some_iff.mp hresult
    split
    · rename_i res hret
      refine h.ret (fun hres => ?_) fun j hj => ⟨t, Option.some.inj hj ▸ ht⟩
      -- the future said "not leader", so the attempt was refused
      subst hres
      rw [execReturn_notLeader hret] at htres
      refine OnlyLive.allRefused hstage fun t' ht' => ?_
      obtain rfl := Option.some.inj (ht.symm.trans ht')
      exact h.lawful.refused t (List.mem_of_getElem? ht) htres
    · exact ⟨h.lawful, h.stage.onlyLive, h.calls⟩
  · rename_i n r res hs
    rw [hs] at hstage
    refine ⟨h.lawful, ⟨hstage.1, ?_⟩, h.calls⟩
    rintro ⟨url, code, hreply⟩
    exact hstage.2 (Service.execReply_redirect hreply).1
  · exact h
  · exact h

/-- **Every step keeps the invariant.** -/
theorem clusterStep_sound (h : σ.Sound) (i : ClusterStep) : (clusterStep pr lib σ i).Sound := by
  cases i with
  | elect n leads => exact ⟨h.lawful, h.stage, h.calls⟩
  | learn n addr => exact ⟨h.lawful, h.stage, h.calls⟩
  | raft op hop =>
      exact ⟨step_lawful h.lawful op, h.stage.step hop, h.calls_step op⟩
  | apply j =>
      simp only [clusterStep]
      split
      · exact ⟨h.lawful, h.stage, h.calls⟩
      · exact h
  | handler => exact handlerStep_sound h
  | follow n r =>
      simp only [clusterStep]
      split
      · rename_i url code hs
        have hstage := h.stage
        rw [hs] at hstage
        exact ⟨h.lawful, hstage.2 ⟨url, code, rfl⟩, h.calls⟩
      · exact h

/-- A cluster starts sound: nothing of this client is in the log yet. -/
theorem Cluster.start_sound (leads : ℕ → Bool) (addr : ℕ → Bytes) (others : List (List UInt8))
    (n : ℕ) (r : Http.Request) : (Cluster.start leads addr others n r).Sound where
  lawful :=
    { origin := by
        intro en hen k hk
        obtain ⟨data, -, rfl⟩ := List.mem_map.mp hen
        exact absurd hk (by simp)
      counted := by simp [Cluster.start, List.countP_map, Function.comp_def]
      refused := by simp [Cluster.start]
      committed := by simp [Cluster.start]
      inLog := by simp [Cluster.start] }
  stage := by simp [Cluster.start, Stage.Sound, AllRefused]
  calls := by simp [Cluster.start]

/-- A sound cluster is one with at most one application. -/
theorem Cluster.Sound.atMostOnce (h : σ.Sound) : AtMostOnce σ := by
  obtain ⟨k, hlive⟩ := h.stage.onlyLive
  have happended := h.lawful.countP_appended_le_one hlive
  refine ⟨happended, fun i => Nat.le_trans (h.lawful.countP_applied_le _ _) happended, ?_⟩
  intro call hcall hres k hk
  obtain ⟨t, ht, hfate⟩ := h.calls call hcall hres k hk
  have hnot := h.lawful.notMem_of_refused ht hfate
  exact ⟨hnot, fun i en hen => hnot en (mem_of_mem_applied hen)⟩

/-- **At most one application per write, in every run**: whatever happens to leadership and
in raft, and however often the client is redirected. -/
theorem at_most_once (pr : Proto) (lib : Library) (leads : ℕ → Bool) (addr : ℕ → Bytes)
    (others : List (List UInt8)) (n : ℕ) (r : Http.Request) (steps : List ClusterStep) :
    AtMostOnce (run (clusterStep pr lib) (.start leads addr others n r) steps) := by
  have hsteps : Steps (clusterStep pr lib) (fun _ _ => True) (.start leads addr others n r) steps :=
    Steps.of_forall fun _ _ _ => trivial
  have hsound := run_invariant Cluster.Sound (fun _ i hσ _ => clusterStep_sound hσ i) hsteps
    (Cluster.start_sound leads addr others n r)
  exact hsound.atMostOnce

/-- A client that is redirected once, to a leader that gets the write into the log: it is
there once, and a replica has applied it once. -/
example :
    let pr : Proto := ⟨⟨fun _ => .ok [], fun _ => .error ""⟩, ⟨fun _ => .ok [], fun _ => .error ""⟩,
      ⟨fun _ => .ok [], fun _ => .error ""⟩⟩
    let σ := run (clusterStep pr deleteLibrary)
      (.start (· = 0) (fun _ => ascii "127.0.0.1:8080") [] 1 writeRequest)
      [.handler, .handler, .handler, .follow 0 writeRequest, .handler, .handler, .handler,
        .raft (.append 0) (by simp), .raft (.commit 0) (by simp), .apply 2,
        .raft (.finish 0 (.exec [] none)) (by simp), .handler, .handler]
    σ.raft.appended.length = 1 ∧ (σ.applied 2).length = 1 ∧ σ.calls.length = 2 := by
  decide +kernel

end DistSql
