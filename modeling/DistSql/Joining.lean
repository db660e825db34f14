import DistSql.Advertise
import DistSql.Bodies
import DistSql.Conflicts
import Mathlib.Data.List.Sort

/-!
# A Node Joins a Cluster

`joinToLeader` posts the name and the raft address of a node to an address that it was
configured with, and takes the status 200 for a yes. On the other side are the HTTP server of
whatever node is there, `Service.join`, and `Consensus.Join`. In between are JSON and a client
that follows redirects: a node that is not the leader redirects the request to the leader's
address, the client arrives there with a `GET`, and is refused.

So a node joins only through the leader itself. The network may lose an answer after the other
node has made the change, so what `joinToLeader` reports is what `Consensus.Join` did there only
if it succeeds; a failure may hide a join.

## Main results

* `clientDo_join`: what a client gets for a join that it posts.
* `joinToLeader_nil_iff`: **`joinToLeader` succeeds exactly when `Consensus.Join` does**, on the
  node that it asks, for the node's own name and raft address, **and the answer arrives**; then
  the node is a server of the cluster.
-/

open Golang Raft Url

namespace DistSql

/-! ### The other side -/

/-- `ErrJoinSelf`. -/
def errJoinSelf : String := "trying to join self"

/-- A node as it is reached over HTTP: what `IsLeader` and `LeaderAddr` say, how the operations
of raft fare, how the errors of raft read, and what it does with requests that are not about
membership. -/
structure Peer where
  localID : String
  isLeader : Bool
  leaderAddr : Bytes
  faults : ℕ → Option Fault
  describe : Raft.Error → String
  exec : Request → Except RaftError (List ExecRes)
  query : QueryReq → Except RaftError (List QueryRes)
  elsewhere : Http.Request → HttpAnswer

namespace Peer

variable (rg : MapOrder) (float : UInt64 → Number) (p : Peer) (c : Configuration)

/-- An error as the service sees it. -/
def told : Option MemberError → Except RaftError Unit
  | none => .ok ()
  | some .notLeader => .error .notLeader
  | some .joinSelf => .error (.other errJoinSelf)
  | some (.raft e) => .error (.other (p.describe e))

/-- `Consensus.Join` on the node. -/
def join (id addr : String) : Configuration × Option MemberError :=
  Consensus.join p.faults p.isLeader p.localID id addr c

/-- `Consensus.Leave` on the node. -/
def leave (id : String) : Configuration × Option MemberError :=
  Consensus.leave (p.faults 0) p.isLeader id c

/-- The service of the node, over its part of raft. -/
def service : Service where
  lib := goLibrary rg
  store :=
    { exec := p.exec
      query := p.query
      leaderAddr := p.leaderAddr
      join := fun id addr => p.told (p.join c id addr).2
      leave := fun id => p.told (p.leave c id).2 }

/-- What the node answers to a request. -/
def answer (r : Http.Request) : Outcome HttpAnswer :=
  match (p.service rg c).serveHTTP r with
  | some reply => reply >>= deliver float
  | none => .ret (p.elsewhere r)

/-- The configuration of the cluster after the node has handled a request. -/
def after (r : Http.Request) : Configuration :=
  match Route.of r with
  | some .join =>
      match (p.service rg c).joinCall r with
      | .ret (.ok (id, addr)) => (p.join c id addr).1
      | _ => c
  | some .leave =>
      match (p.service rg c).leaveCall r with
      | .ret (.ok id) => (p.leave c id).1
      | _ => c
  | _ => c

end Peer

/-! ### The client -/

/-- The status of an answer. -/
def HttpAnswer.code : HttpAnswer → ℕ
  | .status code => code
  | .error _ code => code
  | .redirect _ code => code
  | .body _ => 200

/-- What goes over the network: how the host of a URL is parsed, which node a request to a host
reaches, and whether the answer to the request with so many redirects left arrives. -/
structure Network where
  parseAuthority : Bytes → Option Bytes
  peer : Bytes → Option Peer
  arrives : ℕ → Bool

section Client

variable (rg : MapOrder) (float : UInt64 → Number) (net : Network)

/-- `client.Do`, with so many redirects left: the configuration afterwards, and the status, or
nothing if the client fails. It fails also when the node has handled the request and the answer
is lost on the way. -/
def clientDo (hops : ℕ) (host : Bytes) (r : Http.Request) (c : Configuration) :
    Configuration × Option ℕ :=
  match net.peer host with
  | none => (c, none)
  | some p =>
      if net.arrives hops then
        match p.answer rg float c r with
        | .ret (.redirect url code) =>
            match hops with
            | 0 => (p.after rg c r, none)
            | hops + 1 =>
                match parse net.parseAuthority (Http.location url),
                  Http.follow net.parseAuthority code (Http.location url) r with
                | some u, some r' => clientDo hops u.host r' (p.after rg c r)
                | _, _ => (p.after rg c r, none)
        | .ret a => (p.after rg c r, some a.code)
        | _ => (p.after rg c r, none)
      else (p.after rg c r, none)

/-- `http.NewRequest` with a body, and the host that it is sent to. -/
def newRequest (method : String) (url body : Bytes) : Option (Bytes × Http.Request) := do
  let u ← parse net.parseAuthority url
  let target ← parseRequestURI (requestURI u)
  return (u.host, ⟨method, target, ⟨false, true⟩, .ok body⟩)

/-- `json.Marshal` of a map of texts: its keys are sorted. -/
def marshalTexts (m : List (String × String)) : Bytes :=
  printed true
    (.obj ((m.insertionSort fun a b => a.1 ≤ b.1).map fun member => (member.1, .str member.2)))

/-- How `joinToLeader` fails: on its own address, in the client, or with a status. -/
inductive JoinError
  | address (msg : String)
  | client
  | code (code : ℕ)
  deriving DecidableEq, Repr

/-- `joinToLeader`. -/
def joinToLeader (conf : CoordinatorConfig) (c : Configuration) :
    Configuration × Except JoinError Unit :=
  match conf.joinToLeader with
  | .error e => (c, .error (.address e))
  | .ok none => (c, .ok ())
  | .ok (some (url, body)) =>
      match newRequest net "POST" (utf8 url) (marshalTexts body) with
      | none => (c, .error .client)
      | some (host, r) =>
          match clientDo rg float net 10 host r c with
          | (c', none) => (c', .error .client)
          | (c', some code) => (c', if code = 200 then .ok () else .error (.code code))

end Client

/-! ### The request -/

/-- The path of a join. -/
def joinPath : Bytes := ascii "/join"

/-- A URL for a join, by its host. -/
def joinURL (host : Bytes) : Bytes := http ++ (slash :: slash :: (host ++ joinPath))

/-- A host as it stands in a URL. -/
structure ProperHost (parseAuthority : Bytes → Option Bytes) (host : Bytes) : Prop where
  bytes : ∀ b ∈ host, HostByte b
  parsed : parseAuthority host = some host

section Request

variable {parseAuthority : Bytes → Option Bytes} {host : Bytes}

/-- The URL is parsed to its host and the path. -/
theorem parse_joinURL (h : ProperHost parseAuthority host) :
    ∃ force, parse parseAuthority (joinURL host) = some ⟨host, ⟨joinPath, []⟩, [], force⟩ := by
  have hpath : setPath joinPath = some ⟨joinPath, []⟩ := by decide +kernel
  have hparse := parse_http h.bytes h.parsed (ascii "join")
  have hcut : cut hash (slash :: ascii "join") = (joinPath, []) := by decide +kernel
  have hclean : joinPath.any isCTL = false := by decide +kernel
  have hquestion : cut question joinPath = (joinPath, []) := by decide +kernel
  simp only [hcut, hclean, hquestion, hpath, Option.bind_some, Bool.false_eq_true,
    if_false] at hparse
  exact ⟨_, hparse⟩

/-- A server receives the path. -/
theorem received_joinURL (h : ProperHost parseAuthority host) :
    Http.received parseAuthority (joinURL host) = some ⟨joinPath, [], by simp⟩ := by
  obtain ⟨force, hparse⟩ := parse_joinURL h
  have hset : setPath joinPath = some ⟨joinPath, []⟩ := by decide +kernel
  obtain ⟨path, hreceived, -, hpath⟩ :=
    @received_resolveReference ⟨host, ⟨joinPath, []⟩, [], force⟩ (ascii "join") hset
  have hdots : ¬HasDots (Path.escapedPath ⟨joinPath, []⟩) := by decide +kernel
  rw [Http.received, hparse, Option.bind_some, hreceived, hpath hdots]
  rfl

/-- The URL stands in a header as it is. -/
theorem location_joinURL (h : ProperHost parseAuthority host) :
    Http.location (joinURL host) = joinURL host := by
  refine Http.location_of_plain fun b hb => ?_
  have hends : ∀ b ∈ http ++ slash :: slash :: joinPath, TargetByte b ∧ b < 0x80 := by
    decide +kernel
  simp only [joinURL, List.mem_append, List.mem_cons] at hb hends
  rcases hb with hb | hb | hb | hb | hb
  · exact hends b (.inl hb)
  · exact hends b (.inr (.inl hb))
  · exact hends b (.inr (.inl hb))
  · obtain ⟨⟨-, -, hspace, hctl⟩, -, hascii⟩ := h.bytes b hb
    exact ⟨⟨hspace, hctl⟩, hascii⟩
  · exact hends b (.inr (.inr (.inr hb)))

end Request

/-! ### A join that is posted -/

/-- A request for a join: of this name and this address. -/
structure PostsJoin (r : Http.Request) (name addr : String) : Prop where
  method : r.method = "POST"
  path : r.target.path = joinPath
  query : r.target.rawQuery = []
  body : r.body = .ok (marshalTexts [("id", name), ("addr", addr)])

section Join

variable {rg : MapOrder} {float : UInt64 → Number} {net : Network} {c : Configuration}
  {r : Http.Request} {name addr : String}

/-- The body of a join is an object with the two texts. -/
theorem parseJson_marshalTexts (name addr : String) :
    parseJson (marshalTexts [("id", name), ("addr", addr)]) =
      some (.obj [("addr", .str addr), ("id", .str name)]) := by
  have hsort : [("id", name), ("addr", addr)].insertionSort (fun a b => a.1 ≤ b.1) =
      [("addr", addr), ("id", name)] := by
    have hkey : ¬"id" ≤ "addr" := by decide
    simp [hkey]
  rw [marshalTexts, hsort]
  refine parseJson_text true ?_
  refine Json.Printable.mono (.obj ?_) (by decide : 1 ≤ maxNestingDepth)
  simp only [List.map_cons, List.map_nil, List.forall_mem_cons]
  exact ⟨printable_str addr, printable_str name, fun m hm => absurd hm List.not_mem_nil⟩

/-- **What `join` calls the store with** is what the node has sent. -/
theorem joinCall_posted (h : PostsJoin r name addr) (p : Peer) :
    (p.service rg c).joinCall r = .ret (.ok (name, addr)) := by
  have hmembers : (p.service rg c).readMembers r =
      .ok [("addr", .string addr), ("id", .string name)] := by
    rw [Service.readMembers, if_neg (by simp [h.method]), h.body]
    have hjson : (p.service rg c).lib.json (marshalTexts [("id", name), ("addr", addr)]) =
        some (.obj [("addr", .str addr), ("id", .str name)]) := parseJson_marshalTexts name addr
    simp only [hjson, Option.bind_some]
    rfl
  rw [Service.joinCall, hmembers]
  rfl

/-- A path for a join. -/
theorem route_joinPath (h : r.target.path = joinPath) : Route.of r = some .join := by
  rw [Route.of, h]
  rfl

/-- The service of a node handles it as one. -/
theorem serveHTTP_joinPath (h : r.target.path = joinPath) (s : Service) :
    s.serveHTTP r = some (s.join r) := by
  rw [Service.serveHTTP, h]
  rfl

/-- **What a node does with a join**: it is `Consensus.Join`, and the answer to it. -/
theorem handles_posted (h : PostsJoin r name addr) (p : Peer) :
    p.after rg c r = (p.join c name addr).1 ∧
      p.answer rg float c r =
        deliver float (Service.joinReply p.leaderAddr r (p.told (p.join c name addr).2)) := by
  constructor
  · simp only [Peer.after, route_joinPath h.path, joinCall_posted h p]
  · simp only [Peer.answer, serveHTTP_joinPath h.path, Service.join_eq, joinCall_posted h p,
      Outcome.ret_bind]
    rfl

/-- A node refuses a join that is not posted. -/
theorem handles_other (hmethod : r.method ≠ "POST") (hpath : r.target.path = joinPath) (p : Peer) :
    p.after rg c r = c ∧ p.answer rg float c r = .ret (.status 405) := by
  have hread : (p.service rg c).readMembers r = .error (.status 405) := by
    rw [Service.readMembers, if_pos hmethod]
  have hcall : (p.service rg c).joinCall r = .ret (.error (.status 405)) := by
    rw [Service.joinCall, hread]
  constructor
  · simp only [Peer.after, route_joinPath hpath, hcall]
  · simp only [Peer.answer, serveHTTP_joinPath hpath, Service.join_eq, hcall, Outcome.ret_bind]
    rfl

/-- So a client that asks for a join in another way is refused, wherever it asks. -/
theorem clientDo_other (hmethod : r.method ≠ "POST") (hpath : r.target.path = joinPath)
    (hops : ℕ) (host : Bytes) :
    (clientDo rg float net hops host r c).1 = c ∧
      (clientDo rg float net hops host r c).2 ≠ some 200 := by
  rw [clientDo]
  rcases net.peer host with _ | p
  · exact ⟨rfl, by simp⟩
  · obtain ⟨hafter, hanswer⟩ := @handles_other rg float c r hmethod hpath p
    simp only [hanswer, hafter, HttpAnswer.code]
    cases net.arrives hops with
    | false => exact ⟨rfl, by simp⟩
    | true => exact ⟨rfl, by simp⟩

/-- **What a client gets for a join that it posts**: the node that it asks calls
`Consensus.Join`, and only its success is a 200, if it arrives. -/
theorem clientDo_join (h : PostsJoin r name addr) {host : Bytes} {p : Peer}
    (hpeer : net.peer host = some p)
    (hproper : p.leaderAddr = [] ∨ ProperHost net.parseAuthority p.leaderAddr) (hops : ℕ) :
    (clientDo rg float net (hops + 1) host r c).1 = (p.join c name addr).1 ∧
      ((clientDo rg float net (hops + 1) host r c).2 = some 200 ↔
        (p.join c name addr).2 = none ∧ net.arrives (hops + 1) = true) := by
  obtain ⟨hafter, hanswer⟩ := @handles_posted rg float c r name addr h p
  rw [clientDo, hpeer]
  by_cases harrives : net.arrives (hops + 1) = true
  swap
  · simp [hafter, harrives]
  simp only [hafter, hanswer, harrives, if_true, and_true]
  rcases hres : (p.join c name addr).2 with _ | e
  · exact ⟨rfl, by simp [Peer.told, Service.joinReply, deliver, HttpAnswer.code]⟩
  cases e with
  | joinSelf =>
      exact ⟨rfl, by
        simp [Peer.told, Service.joinReply, Service.answerError, deliver, HttpAnswer.code]⟩
  | raft e =>
      exact ⟨rfl, by
        simp [Peer.told, Service.joinReply, Service.answerError, deliver, HttpAnswer.code]⟩
  | notLeader =>
      by_cases hnone : p.leaderAddr = []
      · simp [Peer.told, Service.joinReply, Service.answerError, deliver, HttpAnswer.code, hnone]
      -- the client follows the redirect with a `GET`
      have hhost := hproper.resolve_left hnone
      have hreply : deliver float (Service.joinReply p.leaderAddr r (p.told (some .notLeader))) =
          .ret (.redirect (joinURL p.leaderAddr) 301) := by
        simp [Peer.told, Service.joinReply, Service.answerError, deliver, hnone,
          Service.redirectAddr, h.path, h.query, joinURL]
      obtain ⟨force, hparse⟩ := parse_joinURL hhost
      have hfollow : Http.follow net.parseAuthority 301 (joinURL p.leaderAddr) r =
          some ⟨"GET", ⟨joinPath, [], by simp⟩, r.contentType, .ok []⟩ := by
        rw [Http.follow, received_joinURL hhost, h.method]
        rfl
      obtain ⟨hconf, hcode⟩ := @clientDo_other rg float net (p.join c name addr).1
        ⟨"GET", ⟨joinPath, [], by simp⟩, r.contentType, .ok []⟩ (by simp) rfl hops p.leaderAddr
      simp only [hreply, location_joinURL hhost, hparse, hfollow]
      exact ⟨hconf, iff_of_false hcode (by simp)⟩

/-- The request that `joinToLeader` makes. -/
theorem newRequest_joinURL {host : Bytes} (hhost : ProperHost net.parseAuthority host)
    (body : Bytes) :
    newRequest net "POST" (joinURL host) body =
      some (host, ⟨"POST", ⟨joinPath, [], by simp⟩, ⟨false, true⟩, .ok body⟩) := by
  obtain ⟨force, hparse⟩ := parse_joinURL hhost
  have hescaped : Path.escapedPath ⟨joinPath, []⟩ = slash :: ascii "join" := by decide +kernel
  have htarget : parseRequestURI (requestURI ⟨host, ⟨joinPath, []⟩, [], force⟩) =
      some ⟨joinPath, [], by simp⟩ :=
    @parseRequestURI_requestURI ⟨host, ⟨joinPath, []⟩, [], force⟩ (ascii "join") hescaped
  simp only [newRequest, hparse, htarget, Option.bind_eq_bind, Option.bind_some, Option.pure_def]

end Join

/-! ### `Consensus.Join` that succeeds -/

section Server

variable {faults : ℕ → Option Fault} {isLeader : Bool} {localID id addr : String}
  {c : Configuration}

/-- **A join that succeeds has made a server**, whatever the configuration was and whatever
failed before. -/
theorem mem_of_join (hc : Valid c)
    (h : (Consensus.join faults isLeader localID id addr c).2 = none) :
    ∃ srv ∈ (Consensus.join faults isLeader localID id addr c).1,
      srv.id = id ∧ srv.address = addr := by
  cases isLeader with
  | false => cases h
  | true =>
      by_cases hself : id = localID
      · simp [Consensus.join, hself] at h
      rcases hread : faults 0 with _ | f
      · rcases hloop : evict faults id addr c 1 c with ⟨c', n | _ | e⟩
        · obtain ⟨hconf, hnone⟩ := join_of_through hself hread hloop
          obtain ⟨hfault, hvalid⟩ := issue_eq_none_iff.mp (hnone.mp h)
          rw [hconf, hfault, issue_of_valid hvalid]
          exact ⟨_, mem_addVoter_self id addr c', rfl, rfl⟩
        · obtain ⟨srv, hsrv, hid, haddr⟩ := evict_already hloop
          rw [join_of_present hc hself hread hsrv hid haddr]
          exact ⟨srv, hsrv, hid, haddr⟩
        · rw [join_of_failed hself hread hloop] at h
          cases h
      · simp [Consensus.join, hself, hread] at h

end Server

/-! ### The node -/

/-- **`joinToLeader` succeeds exactly when `Consensus.Join` does** on the node that it asks, for
the node's own name and raft address, **and the answer arrives**. The configuration is the one
that `Join` has left, whether or not `joinToLeader` learns of it, and after a success the node is
one of its servers. -/
theorem joinToLeader_nil_iff (rg : MapOrder) (float : UInt64 → Number) {net : Network}
    {conf : CoordinatorConfig} {host : Bytes} {addr : String}
    (hstart : utf8 conf.leaderStartAddr = http ++ slash :: slash :: host)
    (hhost : ProperHost net.parseAuthority host) (haddr : conf.raftAddr = .ok addr)
    (hpeers : ∀ h p, net.peer h = some p →
      p.leaderAddr = [] ∨ ProperHost net.parseAuthority p.leaderAddr)
    (c : Configuration) :
    let joined := joinToLeader rg float net conf c
    (joined.2 = .ok () ↔
        net.arrives 10 = true ∧
          ∃ p, net.peer host = some p ∧ (p.join c conf.nodeName addr).2 = none) ∧
      (∀ p, net.peer host = some p → joined.1 = (p.join c conf.nodeName addr).1) ∧
      (Valid c → joined.2 = .ok () →
        ∃ srv ∈ joined.1, srv.id = conf.nodeName ∧ srv.address = addr) := by
  have hne : conf.leaderStartAddr ≠ "" := by
    intro hempty
    rw [hempty] at hstart
    cases hstart
  have hrequest : conf.joinToLeader =
      .ok (some (conf.leaderStartAddr ++ "/join", [("id", conf.nodeName), ("addr", addr)])) := by
    rw [CoordinatorConfig.joinToLeader, if_neg hne, haddr]
  have hurl : utf8 (conf.leaderStartAddr ++ "/join") = joinURL host := by
    have hjoin : utf8 "/join" = joinPath := by decide +kernel
    rw [utf8_append, hstart, hjoin, joinURL, List.append_assoc, List.cons_append, List.cons_append]
  intro joined
  have hjoined : joined = joinToLeader rg float net conf c := rfl
  rw [joinToLeader, hrequest] at hjoined
  simp only [hurl, newRequest_joinURL hhost] at hjoined
  rcases hpeer : net.peer host with _ | p
  · rw [clientDo, hpeer] at hjoined
    simp [hjoined]
  · obtain ⟨hconf, hcode⟩ := @clientDo_join rg float net c
      ⟨"POST", ⟨joinPath, [], by simp⟩, ⟨false, true⟩,
        .ok (marshalTexts [("id", conf.nodeName), ("addr", addr)])⟩
      conf.nodeName addr ⟨rfl, rfl, rfl, rfl⟩ host p hpeer (hpeers host p hpeer) 9
    have hresult : joined.1 = (p.join c conf.nodeName addr).1 ∧
        (joined.2 = .ok () ↔
          (p.join c conf.nodeName addr).2 = none ∧ net.arrives 10 = true) := by
      rw [← hconf, ← hcode, hjoined]
      rcases clientDo rg float net 10 host _ c with ⟨c', _ | code⟩
      · simp
      · by_cases hcode : code = 200 <;> simp [hcode]
    obtain ⟨hfst, hsnd⟩ := hresult
    refine ⟨?_, ?_, fun hc hok => ?_⟩
    · rw [hsnd]
      refine ⟨fun h => ⟨h.2, p, rfl, h.1⟩, ?_⟩
      rintro ⟨harrives, q, hq, hnil⟩
      rw [← Option.some.inj hq] at hnil
      exact ⟨hnil, harrives⟩
    · intro q hq
      rw [← Option.some.inj hq, hfst]
    · rw [hfst]
      exact mem_of_join hc (hsnd.mp hok).1

/-- A leader with its address. -/
def loneLeader : Peer where
  localID := "0"
  isLeader := true
  leaderAddr := ascii "localhost:9000"
  faults _ := none
  describe _ := ""
  exec _ := .error .notLeader
  query _ := .error .notLeader
  elsewhere _ := .status 404

/-- A network with that leader, which loses the answers that it is told to lose. -/
def leaderNetwork (arrives : ℕ → Bool) : Network where
  parseAuthority := some
  peer host := if host = ascii "localhost:9000" then some loneLeader else none
  arrives := arrives

/-- A node that joins it. -/
def joiningNode : CoordinatorConfig := ⟨"localhost:8401", 9001, "1", "http://localhost:9000"⟩

/-- The node joins. If the answer is lost it is a server of the cluster all the same, and reports
an error. -/
theorem joiningNode_joins :
    (joinToLeader asGiven Binary64.exact (leaderNetwork fun _ => true) joiningNode
        [⟨.voter, "0", "localhost:9000"⟩]).2 = .ok () ∧
      (joinToLeader asGiven Binary64.exact (leaderNetwork fun _ => false) joiningNode
        [⟨.voter, "0", "localhost:9000"⟩]).2 ≠ .ok () ∧
      (joinToLeader asGiven Binary64.exact (leaderNetwork fun _ => false) joiningNode
        [⟨.voter, "0", "localhost:9000"⟩]).1 =
        [⟨.voter, "0", "localhost:9000"⟩, ⟨.voter, "1", "localhost:9001"⟩] := by
  have hproper : ProperHost some (ascii "localhost:9000") := ⟨by decide +kernel, rfl⟩
  have haddr : joiningNode.raftAddr = .ok "localhost:9001" := by decide +kernel
  have hstart : utf8 joiningNode.leaderStartAddr =
      http ++ slash :: slash :: ascii "localhost:9000" := by decide +kernel
  have hpeers : ∀ arrives h p, (leaderNetwork arrives).peer h = some p →
      p.leaderAddr = [] ∨ ProperHost some p.leaderAddr := by
    intro arrives h p hp
    simp only [leaderNetwork, Option.ite_none_right_eq_some, Option.some.injEq] at hp
    exact .inr (hp.2 ▸ hproper)
  obtain ⟨hjoins, -, -⟩ := @joinToLeader_nil_iff asGiven Binary64.exact
    (leaderNetwork fun _ => true) joiningNode (ascii "localhost:9000") "localhost:9001" hstart
    hproper haddr (hpeers _) [⟨.voter, "0", "localhost:9000"⟩]
  obtain ⟨hlost, hconf, -⟩ := @joinToLeader_nil_iff asGiven Binary64.exact
    (leaderNetwork fun _ => false) joiningNode (ascii "localhost:9000") "localhost:9001" hstart
    hproper haddr (hpeers _) [⟨.voter, "0", "localhost:9000"⟩]
  refine ⟨hjoins.mpr ⟨rfl, loneLeader, rfl, by decide +kernel⟩, fun h => ?_, ?_⟩
  · exact absurd (hlost.mp h).1 Bool.false_ne_true
  · exact (hconf loneLeader rfl).trans (by decide +kernel)

end DistSql
