import DistSql.HostPort

/-!
# Advertised Addresses

The coordinator has one configured address, `BindAddr`, and one port for raft and clients.
Three formatters put the host of the one and the other port together again: `HTTPAddr` for
clients, `RaftAddr` for the address under which a node joins, and `setupMux` for the
listener. All three write the host without the brackets that `net.SplitHostPort` has
taken off.

## Main results

* `addresses_parse_back_iff`: **the three addresses parse back** to the host and the port
  exactly when the host has no colon.
* `joinToLeader_addr`: the address a node asks to be joined under is the raft address.
-/

open Golang

namespace DistSql

/-! ### The configuration -/

/-- The part of `coordinator.Config` that the addresses depend on. -/
structure CoordinatorConfig where
  bindAddr : String
  communicationPort : ℤ
  nodeName : String
  leaderStartAddr : String
  deriving DecidableEq, Repr

namespace CoordinatorConfig

/-- What the three formatters do: take the host of the configured address, and print it
with the communication port behind a scheme. -/
def hostAddr (scheme : String) (c : CoordinatorConfig) : Except String String :=
  match splitHostPort c.bindAddr with
  | .error e => .error e
  | .ok (host, _) => .ok (scheme ++ host ++ ":" ++ toString c.communicationPort)

/-- `Config.HTTPAddr`. -/
def httpAddr : CoordinatorConfig → Except String String := hostAddr "http://"

/-- `Config.RaftAddr`. -/
def raftAddr : CoordinatorConfig → Except String String := hostAddr ""

/-- `setupMux`: the address that it listens on. -/
def setupMux : CoordinatorConfig → Except String String := hostAddr ""

/-- `joinToLeader`: the URL it posts to and the members of the body, or nothing when there
is no leader to join. -/
def joinToLeader (c : CoordinatorConfig) :
    Except String (Option (String × List (String × String))) :=
  if c.leaderStartAddr = "" then .ok none
  else
    match c.raftAddr with
    | .error e => .error e
    | .ok addr => .ok (some (c.leaderStartAddr ++ "/join", [("id", c.nodeName), ("addr", addr)]))

end CoordinatorConfig

/-! ### Parsing back -/

/-- The addresses **parse back**: the raft address, the HTTP address without its scheme and
the address of the listener are split into this host and the port. -/
def ParseBack (c : CoordinatorConfig) (host : String) : Prop :=
  ∃ raft http mux,
    c.raftAddr = .ok raft ∧ c.httpAddr = .ok ("http://" ++ http) ∧ c.setupMux = .ok mux ∧
      splitHostPort raft = .ok (host, toString c.communicationPort) ∧
      splitHostPort http = .ok (host, toString c.communicationPort) ∧
      splitHostPort mux = .ok (host, toString c.communicationPort)

/-- An address that is accepted is printed with the scheme in front. -/
theorem hostAddr_ok {c : CoordinatorConfig} {host port : String}
    (hbind : splitHostPort c.bindAddr = .ok (host, port)) (scheme : String) :
    CoordinatorConfig.hostAddr scheme c =
      .ok (scheme ++ (host ++ ":" ++ toString c.communicationPort)) := by
  rw [CoordinatorConfig.hostAddr, hbind]
  simp only [String.append_assoc]

/-- **The three addresses parse back** exactly when the host has no colon. -/
theorem addresses_parse_back_iff (c : CoordinatorConfig) {host port : String}
    (hbind : splitHostPort c.bindAddr = .ok (host, port)) :
    ParseBack c host ↔ ':' ∉ host.toList := by
  have hraft : c.raftAddr = .ok (host ++ ":" ++ toString c.communicationPort) := by
    rw [CoordinatorConfig.raftAddr, hostAddr_ok hbind, String.empty_append]
  have hhttp : c.httpAddr = .ok ("http://" ++ (host ++ ":" ++ toString c.communicationPort)) :=
    hostAddr_ok hbind "http://"
  obtain ⟨hnumber, hcolon⟩ := toString_port c.communicationPort
  have hjoined := splitHostPort_joined_iff (splitHostPort_host hbind) hnumber hcolon
  constructor
  · rintro ⟨raft, http, mux, hr, -, -, hsplit, -⟩
    rw [hraft] at hr
    obtain rfl := Except.ok.inj hr
    exact hjoined.mp hsplit
  · intro hhost
    have hsplit := hjoined.mpr hhost
    exact ⟨_, _, _, hraft, hhttp, hraft, hsplit, hsplit, hsplit⟩

/-- A node on `localhost`. -/
def localNode : CoordinatorConfig := ⟨"localhost:8400", 9000, "0", ""⟩

/-- The addresses of a node on `localhost` parse back. -/
theorem localhost_parses_back :
    splitHostPort localNode.bindAddr = .ok ("localhost", "8400") ∧
      ParseBack localNode "localhost" := by
  have hbind : splitHostPort localNode.bindAddr = .ok ("localhost", "8400") := by
    decide +kernel
  exact ⟨hbind, (addresses_parse_back_iff localNode hbind).mpr (by decide)⟩

/-- A node on the IPv6 loopback address. -/
def loopbackNode : CoordinatorConfig :=
  ⟨"[::1]:8400", 9000, "1", "http://localhost:9000"⟩

/-- **An IPv6 host loses its brackets**: the raft address, under which the node asks to be
joined, has too many colons. -/
theorem ipv6_does_not_parse_back :
    splitHostPort loopbackNode.bindAddr = .ok ("::1", "8400") ∧
      loopbackNode.raftAddr = .ok "::1:9000" ∧
      loopbackNode.joinToLeader =
        .ok (some ("http://localhost:9000/join", [("id", "1"), ("addr", "::1:9000")])) ∧
      splitHostPort "::1:9000" =
        .error "address ::1:9000: too many colons in address" ∧
      ¬ParseBack loopbackNode "::1" := by
  have hraft : loopbackNode.raftAddr = .ok "::1:9000" := by decide +kernel
  have hsplit : splitHostPort "::1:9000" =
      .error "address ::1:9000: too many colons in address" := by decide +kernel
  refine ⟨by decide +kernel, hraft, by decide +kernel, hsplit, ?_⟩
  rintro ⟨raft, http, mux, hr, -, -, hback, -⟩
  rw [hraft] at hr
  obtain rfl := Except.ok.inj hr
  rw [hsplit] at hback
  cases hback

/-- **The address a node asks to be joined under** is its raft address. -/
theorem joinToLeader_addr {c : CoordinatorConfig} {url : String}
    {body : List (String × String)} (h : c.joinToLeader = .ok (some (url, body))) :
    ∃ addr, c.raftAddr = .ok addr ∧ ("addr", addr) ∈ body := by
  rw [CoordinatorConfig.joinToLeader] at h
  split at h
  · cases h
  split at h
  · cases h
  · rename_i addr haddr
    simp only [Except.ok.injEq, Option.some.injEq, Prod.mk.injEq] at h
    obtain ⟨-, rfl⟩ := h
    exact ⟨addr, haddr, by simp⟩

end DistSql
