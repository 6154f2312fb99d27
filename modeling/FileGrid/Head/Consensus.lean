import FileGrid.Common.ZooKeeper
import FileGrid.Head.ControlApi

/-!
# The vote on a dead server

Before a server is declared dead, `verify_cluster_server_dead_consensus` consults ZooKeeper and
then asks every other head server, over its control API, whether it still sees the server healthy.

The question is built in one program and answered by another.  The answer is a fixed one:
`askPeer_eq` shows that **the control API answers the voter's request with status 400 whatever its
monitor holds**, because the health route cuts the identifier out of the path one byte early.  So
no peer ever objects, and the vote is decided by ZooKeeper alone (`verify_eq_zooKeeperPasses`).
-/

namespace FileGrid

/-- A head server of the configuration file, as far as the vote reads it. -/
structure HeadServerEntry where
  host : Bytes
  controlPort : Int
deriving DecidableEq

/-- A peer to be asked. -/
structure PeerHead where
  host : Bytes
  controlPort : Int
deriving DecidableEq

/-- Everything the vote reads: ZooKeeper's table, the wall clock in seconds, the configured head
servers, the voter's own control port, and the head server that answers at a host and port. -/
structure VoteEnv where
  zk : ZooKeeper
  nowSec : Int
  headServers : List HeadServerEntry
  ourControlPort : Int
  answersAt : Bytes → Int → Option (ControlEnv × ControlApi)

namespace VoteEnv

/-- The node a cluster server reports to. -/
def serverZnode (serverId : Int) : Bytes :=
  ascii "/dfg/cluster_servers/server_" ++ dec serverId

/-- Step 1 of the vote: ZooKeeper does not show the server alive. -/
def zooKeeperPasses (env : VoteEnv) (serverId : Int) : Bool :=
  let znode := serverZnode serverId
  if env.zk.nodeExists znode then
    let zkData := env.zk.getNodeData znode
    match find (ascii "|timestamp:") zkData with
    | none => false
    | some pos =>
        match stoll (zkData.drop (pos + 11)) with
        | none => true
        | some lastTs => ¬ (wrap64 (env.nowSec - lastTs) < 30)
  else true

/-- The heads registered in ZooKeeper: what each child of `/dfg/head_servers` parses to. -/
def registeredHeads (env : VoteEnv) : List PeerHead :=
  if env.zk.nodeExists (ascii "/dfg/head_servers") then
    (env.zk.getChildren (ascii "/dfg/head_servers")).filterMap fun child =>
      let pdata := env.zk.getNodeData (ascii "/dfg/head_servers/" ++ child)
      if pdata = [] then none
      else
        let (phost, pport) := parseAddress pdata
        some { host := phost, controlPort := pport }
  else []

/-- Step 2 of the vote: the peers to ask.  A head with the voter's own control port is taken for
the voter itself, on whatever host it runs. -/
def peers (env : VoteEnv) : List PeerHead :=
  let zkPeers := env.registeredHeads.filter fun p =>
    0 < p.controlPort ∧ p.controlPort ≠ env.ourControlPort
  env.headServers.foldl (fun peers entry =>
    let peer : PeerHead := { host := entry.host, controlPort := entry.controlPort }
    if entry.controlPort ≠ env.ourControlPort ∧ peer ∉ peers then peers ++ [peer] else peers)
    zkPeers

/-- The request sent to a peer. -/
def voteRequest (serverId : Int) (host : Bytes) : Bytes :=
  ascii "GET /api/v1/servers/cluster/" ++ dec serverId ++ ascii "/health HTTP/1.1\r\n"
    ++ ascii "Host: " ++ host ++ ascii "\r\n"
    ++ ascii "Connection: close\r\n\r\n"

/-- A reply counts as an objection if it contains one of the two texts. -/
def objects (reply : Bytes) : Bool :=
  (find (ascii "\"healthy\":true") reply).isSome || (find (ascii "\"healthy\": true") reply).isSome

/-- The query of one peer: whether it objects.  The reply is what one `recv` into the 1024-byte
buffer delivers; a peer that cannot be reached does not object. -/
def askPeer (env : VoteEnv) (serverId : Int) (peer : PeerHead) : Bool :=
  match env.answersAt peer.host peer.controlPort with
  | none => false
  | some (peerEnv, api) =>
      objects ((api.handleRequest peerEnv (voteRequest serverId peer.host)).1.take 1023)

/-- `verify_cluster_server_dead_consensus`. -/
def verifyClusterServerDeadConsensus (env : VoteEnv) (serverId : Int) : Bool :=
  env.zooKeeperPasses serverId && !(env.peers.any (env.askPeer serverId))

/-! ## No peer objects -/

/-- **No peer ever objects**, whatever its monitor holds. -/
theorem askPeer_eq (env : VoteEnv) (serverId : Int) (peer : PeerHead) :
    env.askPeer serverId peer = false := by
  unfold askPeer
  cases env.answersAt peer.host peer.controlPort with
  | none => rfl
  | some answer =>
      obtain ⟨peerEnv, api⟩ := answer
      obtain ⟨t, hrequest⟩ : ∃ t, voteRequest serverId peer.host =
          ascii "GET " ++ ControlApi.clusterSlash ++ t := by
        have hpath : ascii "GET /api/v1/servers/cluster/" =
            ascii "GET " ++ ControlApi.clusterSlash := by decide
        simp only [voteRequest, hpath, List.append_assoc]
        exact ⟨_, rfl⟩
      simp only [hrequest]
      rcases api.handleRequest_clusterSlash peerEnv t with h | h
      · rw [h]
        decide +kernel
      · rw [h]
        decide +kernel

/-- The vote is decided by ZooKeeper alone. -/
theorem verify_eq_zooKeeperPasses (env : VoteEnv) (serverId : Int) :
    env.verifyClusterServerDeadConsensus serverId = env.zooKeeperPasses serverId := by
  have hnone : env.peers.any (env.askPeer serverId) = false := by
    simp [askPeer_eq]
  simp [verifyClusterServerDeadConsensus, hnone]

/-! ## What the vote is meant to guarantee -/

/-- ZooKeeper does not show the server alive: it has no node, or one whose timestamp is at least
30 seconds old, as a `long long` counts them, or cannot be read. -/
def NotFreshInZooKeeper (env : VoteEnv) (serverId : Int) : Prop :=
  env.zk.nodeExists (serverZnode serverId) = false ∨
    ∃ pos, find (ascii "|timestamp:") (env.zk.getNodeData (serverZnode serverId)) = some pos ∧
      ∀ ts ∈ stoll ((env.zk.getNodeData (serverZnode serverId)).drop (pos + 11)),
        30 ≤ wrap64 (env.nowSec - ts)

/-- The head servers known to the voter: those registered in ZooKeeper and those configured. -/
def knownHeads (env : VoteEnv) : List PeerHead :=
  env.registeredHeads ++
    env.headServers.map fun e => { host := e.host, controlPort := e.controlPort }

/-- Some reachable head server other than the voter, which runs on `ourHost`, has a healthy record
of the server. -/
def SeenHealthy (env : VoteEnv) (ourHost : Bytes) (serverId : Int) : Prop :=
  ∃ peer ∈ env.knownHeads, (peer.host, peer.controlPort) ≠ (ourHost, env.ourControlPort) ∧
    ∃ answer ∈ env.answersAt peer.host peer.controlPort,
      ∃ h ∈ answer.2.health.servers[serverId]?, h.isHealthy = true

lemma zooKeeperPasses_iff (env : VoteEnv) (serverId : Int) :
    env.zooKeeperPasses serverId = true ↔ env.NotFreshInZooKeeper serverId := by
  unfold zooKeeperPasses NotFreshInZooKeeper
  cases hex : env.zk.nodeExists (serverZnode serverId) with
  | false => simp [hex]
  | true =>
      cases hpos : find (ascii "|timestamp:") (env.zk.getNodeData (serverZnode serverId)) with
      | none => simp [hex, hpos]
      | some pos =>
          cases hts : stoll ((env.zk.getNodeData (serverZnode serverId)).drop (pos + 11)) with
          | none => simp [hex, hpos, hts]
          | some ts => simp [hex, hpos, hts]

/-- **When the vote respects its peers.**  A verdict of death implies that ZooKeeper does not show
the server alive and that no other reachable head sees it healthy — exactly when ZooKeeper shows
it alive, and so rejects by itself, or no other reachable head sees it healthy in the first
place. -/
theorem verify_respects_peers_iff (env : VoteEnv) (ourHost : Bytes) (serverId : Int) :
    (env.verifyClusterServerDeadConsensus serverId = true →
        env.NotFreshInZooKeeper serverId ∧ ¬ env.SeenHealthy ourHost serverId) ↔
      (¬ env.NotFreshInZooKeeper serverId ∨ ¬ env.SeenHealthy ourHost serverId) := by
  rw [verify_eq_zooKeeperPasses, zooKeeperPasses_iff]
  constructor
  · intro h
    by_cases hzk : env.NotFreshInZooKeeper serverId
    · exact Or.inr (h hzk).2
    · exact Or.inl hzk
  · rintro (hzk | hpeers) hdead
    · exact absurd hdead hzk
    · exact ⟨hdead, hpeers⟩

/-- A head on host 10.0.0.2 that has just heard from server 1. -/
def witnessHead : ControlEnv × ControlApi :=
  ({ now := 10 ^ 9, showFloat := fun _ => ascii "0", connects := fun _ _ => false },
    { health := (HealthMonitor.recordHeartbeat {} (10 ^ 9) 1
        { serverId := 1, ip := ascii "10.0.0.7:8080" }).2 })

/-- The voter runs on 10.0.0.1 with control port 9670; ZooKeeper is empty, and the configuration
names one peer, which is up. -/
def overruledVote : VoteEnv where
  zk := ∅
  nowSec := 1000
  headServers := [{ host := ascii "10.0.0.2", controlPort := 9671 }]
  ourControlPort := 9670
  answersAt := fun host port =>
    if host = ascii "10.0.0.2" ∧ port = 9671 then some witnessHead else none

/-- **A peer's veto is overruled**: the peer has a healthy record of server 1 and answers the
vote, and the server is declared dead. -/
theorem healthy_server_voted_dead :
    overruledVote.verifyClusterServerDeadConsensus 1 = true ∧
      overruledVote.SeenHealthy (ascii "10.0.0.1") 1 := by
  refine ⟨by decide +kernel, ⟨ascii "10.0.0.2", 9671⟩, by decide, by decide, witnessHead,
    by simp [overruledVote], ?_⟩
  exact ⟨{ serverId := 1, ip := ascii "10.0.0.7:8080", lastHeartbeat := 10 ^ 9 }, by decide +kernel,
    rfl⟩

end VoteEnv

end FileGrid
