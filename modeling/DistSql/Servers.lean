import DistSql.Machine
import DistSql.Raft
import Mathlib.Data.List.Count

/-!
# Listing the Servers

`Consensus.GetServers` takes the configuration once and then asks raft for the leader anew
for every server in it. The leader can change between any two iterations, so a run of the
loop is a list of inputs: `iterate` for the next turn of the loop, `leaderChanges` for what
raft does meanwhile.

## Main results

* `getServers_lists`: however the leader changes, every server is listed once, in order,
  with its id and its address.
* `getServers_one_leader`: when all iterations see one leader, at most one entry is marked.
* `one_leader_iff`: **at most one leader in every run** holds for the configurations with at
  most one server and for no others.
-/

open Machine Raft

namespace DistSql

/-! ### The loop -/

/-- `pb.Server`. -/
structure PbServer where
  id : String
  rpcAddr : String
  isLeader : Bool
  deriving DecidableEq, Repr

/-- `GetServers` at work: the leader as raft knows it now, the servers that the loop has
not reached, and the entries so far. -/
structure Listing where
  leader : String
  rest : Configuration
  servers : List PbServer
  deriving DecidableEq, Repr

/-- What can happen next. -/
inductive ListInput
  | leaderChanges (addr : String)
  | iterate
  deriving DecidableEq, Repr

/-- The entry of a server, under a leader. -/
def serverEntry (leader : String) (srv : Server) : PbServer :=
  ⟨srv.id, srv.address, leader = srv.address⟩

/-- One turn of the loop, or a change of the leader. -/
def Listing.step (s : Listing) : ListInput → Listing
  | .leaderChanges addr => { s with leader := addr }
  | .iterate =>
      match s.rest with
      | [] => s
      | srv :: rest =>
          { s with rest := rest, servers := s.servers ++ [serverEntry s.leader srv] }

/-- `GetServers`, with the outcome of the future of the configuration, the leader at that
time, and what happens from then on. There is no result while the loop is not through. -/
def getServers (future : Except String Configuration) (leader : String)
    (is : List ListInput) : Option (Except String (List PbServer)) :=
  match future with
  | .error e => some (.error e)
  | .ok c =>
      let s := run Listing.step ⟨leader, c, []⟩ is
      if s.rest = [] then some (.ok s.servers) else none

/-- What a result says of the run. -/
theorem getServers_ok {c : Configuration} {leader : String} {is : List ListInput}
    {servers : List PbServer} (h : getServers (.ok c) leader is = some (.ok servers)) :
    (run Listing.step ⟨leader, c, []⟩ is).rest = [] ∧
      (run Listing.step ⟨leader, c, []⟩ is).servers = servers := by
  simp only [getServers] at h
  split at h
  · rename_i hrest
    exact ⟨hrest, Except.ok.inj (Option.some.inj h)⟩
  · cases h

/-! ### Every server is listed -/

/-- The entry is that of the server, but for the mark. -/
def Lists (srv : Server) (e : PbServer) : Prop := e.id = srv.id ∧ e.rpcAddr = srv.address

/-- The entries so far are those of the servers that the loop has passed. -/
def PassedListed (c : Configuration) (s : Listing) : Prop :=
  ∃ passed, c = passed ++ s.rest ∧ List.Forall₂ Lists passed s.servers

/-- Each input keeps the passed servers listed. -/
theorem PassedListed.step {c : Configuration} {s : Listing} (h : PassedListed c s)
    (i : ListInput) : PassedListed c (s.step i) := by
  obtain ⟨passed, hc, hlists⟩ := h
  cases i with
  | leaderChanges addr => exact ⟨passed, hc, hlists⟩
  | iterate =>
      rcases hrest : s.rest with _ | ⟨srv, rest⟩
      · simp only [Listing.step, hrest]
        exact ⟨passed, hc, hlists⟩
      · simp only [Listing.step, hrest]
        refine ⟨passed ++ [srv], ?_, ?_⟩
        · rw [hc, hrest, List.append_assoc, List.singleton_append]
        · exact List.rel_append hlists (.cons ⟨rfl, rfl⟩ .nil)

/-- **Every server is listed** once, in order, with its id and its address. -/
theorem getServers_lists {c : Configuration} {leader : String} {is : List ListInput}
    {servers : List PbServer} (h : getServers (.ok c) leader is = some (.ok servers)) :
    List.Forall₂ Lists c servers := by
  obtain ⟨hrest, rfl⟩ := getServers_ok h
  have hall : Steps Listing.step (fun _ _ => True) ⟨leader, c, []⟩ is :=
    Steps.of_forall fun _ _ _ => trivial
  have hpassed : PassedListed c (run Listing.step ⟨leader, c, []⟩ is) :=
    run_invariant (PassedListed c) (fun s i hs _ => hs.step i) hall ⟨[], rfl, .nil⟩
  obtain ⟨passed, hc, hlists⟩ := hpassed
  rw [hrest, List.append_nil] at hc
  exact hc ▸ hlists

/-! ### One leader throughout -/

/-- At most one entry is marked. -/
def OneLeader (servers : List PbServer) : Prop := servers.countP (·.isLeader) ≤ 1

instance : DecidablePred OneLeader := fun servers =>
  inferInstanceAs (Decidable (servers.countP (·.isLeader) ≤ 1))

/-- An iteration sees this leader. -/
def Sees (leader : String) (s : Listing) (i : ListInput) : Prop :=
  i = .iterate → s.leader = leader

/-- The entries so far and those to come, under one leader. -/
def ListedUnder (leader : String) (c : Configuration) (s : Listing) : Prop :=
  s.servers ++ s.rest.map (serverEntry leader) = c.map (serverEntry leader)

/-- An iteration that sees the leader lists under it. -/
theorem ListedUnder.step {leader : String} {c : Configuration} {s : Listing}
    (h : ListedUnder leader c s) {i : ListInput} (hsees : Sees leader s i) :
    ListedUnder leader c (s.step i) := by
  cases i with
  | leaderChanges addr => exact h
  | iterate =>
      rcases hrest : s.rest with _ | ⟨srv, rest⟩
      · simp only [Listing.step, hrest]
        exact h
      · simp only [ListedUnder, Listing.step, hrest, hsees rfl]
        rw [← h, hrest, List.append_assoc]
        rfl

/-- Distinct addresses: one leader is the address of at most one server. -/
theorem oneLeader_map {c : Configuration} (hdistinct : (c.map Server.address).Nodup)
    (leader : String) : OneLeader (c.map (serverEntry leader)) := by
  have hcount : (c.map (serverEntry leader)).countP (·.isLeader) =
      (c.map Server.address).count leader := by
    rw [List.countP_map, List.count, List.countP_map]
    refine List.countP_congr fun srv _ => ?_
    simp only [Function.comp_apply, serverEntry, decide_eq_true_eq, beq_iff_eq]
    exact eq_comm
  rw [OneLeader, hcount]
  exact List.nodup_iff_count_le_one.mp hdistinct leader

/-- **At most one entry is marked** when all iterations see one leader. -/
theorem getServers_one_leader {c : Configuration} (hdistinct : (c.map Server.address).Nodup)
    {leader seen : String} {is : List ListInput} {servers : List PbServer}
    (hsees : Steps Listing.step (Sees seen) ⟨leader, c, []⟩ is)
    (h : getServers (.ok c) leader is = some (.ok servers)) : OneLeader servers := by
  obtain ⟨hrest, rfl⟩ := getServers_ok h
  have hunder : ListedUnder seen c (run Listing.step ⟨leader, c, []⟩ is) :=
    run_invariant (ListedUnder seen c) (fun s i hs hok => hs.step hok) hsees rfl
  rw [ListedUnder, hrest, List.map_nil, List.append_nil] at hunder
  rw [hunder]
  exact oneLeader_map hdistinct seen

/-! ### Any number of leaders -/

/-- The loop runs to its end under the leader it has. -/
theorem run_iterates (leader : String) (rest : Configuration) (servers : List PbServer) :
    run Listing.step ⟨leader, rest, servers⟩ (List.replicate rest.length .iterate) =
      ⟨leader, [], servers ++ rest.map (serverEntry leader)⟩ := by
  induction rest generalizing servers with
  | nil => simp
  | cons srv rest ih =>
      rw [List.length_cons, List.replicate_succ, run_cons, Listing.step, ih, List.map_cons,
        List.append_assoc]
      rfl

/-- The run in which the leader moves from the first server to the second, between the
iterations that look at them. -/
def leaderMoves (second : Server) (rest : Configuration) : List ListInput :=
  .iterate :: .leaderChanges second.address :: .iterate ::
    List.replicate rest.length .iterate

/-- In that run **both servers are marked**. -/
theorem getServers_leaderMoves (first second : Server) (rest : Configuration) :
    ∃ servers, getServers (.ok (first :: second :: rest)) first.address
        (leaderMoves second rest) = some (.ok servers) ∧
      servers.take 2 =
        [⟨first.id, first.address, true⟩, ⟨second.id, second.address, true⟩] := by
  refine ⟨[serverEntry first.address first, serverEntry second.address second] ++
    rest.map (serverEntry second.address), ?_, ?_⟩
  · simp only [getServers, leaderMoves, run_cons, Listing.step, run_iterates]
    rfl
  · simp [serverEntry]

/-- **At most one leader** is what every run shows exactly for the configurations with at
most one server. For every configuration with distinct addresses every run lists every
server, and shows at most one leader when all its iterations see the same. -/
theorem one_leader_iff (c : Configuration) (hdistinct : (c.map Server.address).Nodup) :
    (∀ leader is servers, getServers (.ok c) leader is = some (.ok servers) →
      List.Forall₂ Lists c servers ∧
        ∀ seen, Steps Listing.step (Sees seen) ⟨leader, c, []⟩ is → OneLeader servers) ∧
    ((∀ leader is servers, getServers (.ok c) leader is = some (.ok servers) →
        OneLeader servers) ↔ c.length ≤ 1) := by
  refine ⟨fun leader is servers h => ⟨getServers_lists h, fun seen hsees =>
    getServers_one_leader hdistinct hsees h⟩, ?_, ?_⟩
  · intro hall
    match c with
    | [] => simp
    | [srv] => simp
    | first :: second :: rest =>
        obtain ⟨servers, hrun, htwo⟩ := getServers_leaderMoves first second rest
        have hone : OneLeader servers := hall _ _ _ hrun
        rw [OneLeader, ← List.take_append_drop 2 servers, htwo, List.countP_append] at hone
        simp only [List.countP_cons, List.countP_nil, if_true] at hone
        omega
  · intro hlength leader is servers h
    have hsame := (getServers_lists h).length_eq
    calc servers.countP (·.isLeader) ≤ servers.length := List.countP_le_length
      _ ≤ 1 := by omega

/-- Two voters. -/
def twoServers : Configuration := [⟨.voter, "0", "a:1"⟩, ⟨.voter, "1", "b:1"⟩]

/-- A leader that stays: the second of two servers. -/
theorem steady_leader_listed_once :
    getServers (.ok twoServers) "b:1" [.iterate, .iterate] =
        some (.ok [⟨"0", "a:1", false⟩, ⟨"1", "b:1", true⟩]) ∧
      OneLeader [⟨"0", "a:1", false⟩, ⟨"1", "b:1", true⟩] := by
  have hrun : getServers (.ok twoServers) "b:1" [.iterate, .iterate] =
      some (.ok [⟨"0", "a:1", false⟩, ⟨"1", "b:1", true⟩]) := by decide
  exact ⟨hrun, ((one_leader_iff twoServers (by decide)).1 _ _ _ hrun).2 "b:1"
    ⟨fun _ => rfl, fun _ => rfl, trivial⟩⟩

/-- **A leader that moves**: both of two servers are reported as leaders. -/
theorem moving_leader_listed_twice :
    (twoServers.map Server.address).Nodup ∧
      getServers (.ok twoServers) "a:1" [.iterate, .leaderChanges "b:1", .iterate] =
        some (.ok [⟨"0", "a:1", true⟩, ⟨"1", "b:1", true⟩]) ∧
      ¬OneLeader [⟨"0", "a:1", true⟩, ⟨"1", "b:1", true⟩] := by
  decide

end DistSql
