import FileGrid.Head.Heartbeat
import FileGrid.Core.Runs

/-!
# The counters of the health checker

The health checker is a process of its own.  It keeps one entry per server, which a heartbeat
refreshes (`process_heartbeat`) and the loop of `health_monitor` ages every 30 seconds
(`check_server_health`), and it counts what happens to them for Prometheus.

**Who marks and who restores.**  Only a check marks a server as unhealthy, after the server has
missed heartbeats and ZooKeeper has no node for it.  Two functions restore it: the check, if the
last heartbeat is recent again, and the heartbeat itself.  Only the check counts.

**`serversRecovered_eq_iff`**: the counter is the number of recoveries, in every state of a run,
exactly if no heartbeat comes from a server that is marked.

Times are nanoseconds of the steady clock.  What ZooKeeper answers, after `connect` where that was
needed, is a parameter of the check.
-/

namespace FileGrid

/-- The entry of a server, as `servers[server_id]` makes it. -/
structure HealthChecker.ServerHealth where
  serverId : Int := 0
  ip : Bytes := []
  lastHeartbeat : Int := 0
  cpuUsage : ℚ := 0
  ramUsage : ℚ := 0
  diskUsage : ℚ := 0
  networkIn : Bytes := []
  networkOut : Bytes := []
  networkInBps : Nat := 0
  networkOutBps : Nat := 0
  isHealthy : Bool := false
  missedHeartbeats : Int := 0

/-- The entries and the counters. -/
structure HealthChecker where
  servers : Map Int HealthChecker.ServerHealth := ∅
  maxMissedHeartbeats : Int := 3
  /-- In seconds. -/
  heartbeatTimeout : Int := 60
  heartbeatsReceived : Nat := 0
  serversMarkedUnhealthy : Nat := 0
  serversRecovered : Nat := 0
  replicationsTriggered : Nat := 0
  healthyServerCount : Nat := 0

namespace HealthChecker

/-- `process_heartbeat`. -/
def processHeartbeat (c : HealthChecker) (now : Int) (hb : HeartBeat) : HealthChecker :=
  let health := (c.servers[hb.serverId]?).getD {}
  { c with
    servers := c.servers.insert hb.serverId
      { health with
        serverId := hb.serverId
        ip := hb.ip
        lastHeartbeat := now
        cpuUsage := hb.cpuUsage
        ramUsage := hb.ramUsage
        diskUsage := hb.diskUsage
        networkIn := hb.networkIn
        networkOut := hb.networkOut
        networkInBps := hb.networkInBytesPerSec
        networkOutBps := hb.networkOutBytesPerSec
        missedHeartbeats := 0
        isHealthy := if !health.isHealthy then true else health.isHealthy }
    heartbeatsReceived := c.heartbeatsReceived + 1 }

/-- The node of a server in ZooKeeper. -/
def znode (serverId : Int) : Bytes := ascii "/dfg/cluster_servers/server_" ++ dec serverId

/-- The last heartbeat is older than the timeout. -/
def overdue (c : HealthChecker) (now : Int) (health : ServerHealth) : Bool :=
  c.heartbeatTimeout * 10 ^ 9 < now - health.lastHeartbeat

/-- The branch of the loop of `check_server_health` that marks a server. -/
def marks (c : HealthChecker) (now : Int) (nodeExists : Bytes → Bool) (serverId : Int)
    (health : ServerHealth) : Bool :=
  c.overdue now health && (c.maxMissedHeartbeats ≤ health.missedHeartbeats + 1) &&
    health.isHealthy && !nodeExists (znode serverId)

/-- The branch that restores it. -/
def restores (c : HealthChecker) (now : Int) (health : ServerHealth) : Bool :=
  !c.overdue now health && !health.isHealthy && (0 < health.missedHeartbeats)

/-- The entry that a turn of the loop leaves. -/
def checkServer (c : HealthChecker) (now : Int) (nodeExists : Bytes → Bool) (serverId : Int)
    (health : ServerHealth) : ServerHealth :=
  if c.overdue now health then
    { health with
      missedHeartbeats := health.missedHeartbeats + 1
      isHealthy := health.isHealthy && !c.marks now nodeExists serverId health }
  else if c.restores now health then { health with isHealthy := true, missedHeartbeats := 0 }
  else health

/-- `check_server_health`.  A turn of the loop changes the entry it visits and the counters alone;
`trigger_replication` counts its call, and prints which chunks it finds. -/
def checkServerHealth (c : HealthChecker) (now : Int) (nodeExists : Bytes → Bool) :
    HealthChecker :=
  let servers := c.servers.map (c.checkServer now nodeExists)
  let marked := c.servers.toList.countP fun p => c.marks now nodeExists p.1 p.2
  { c with
    servers
    serversMarkedUnhealthy := c.serversMarkedUnhealthy + marked
    replicationsTriggered := c.replicationsTriggered + marked
    serversRecovered :=
      c.serversRecovered + c.servers.toList.countP fun p => c.restores now p.2
    healthyServerCount := servers.toList.countP fun p => p.2.isHealthy }

/-- The calls that change the entries, with the readings of the clock. -/
inductive Call
  | heartbeat (now : Int) (hb : HeartBeat)
  | check (now : Int) (nodeExists : Bytes → Bool)

def Call.now : Call → Int
  | .heartbeat now _ | .check now _ => now

def step (c : HealthChecker) : Call → HealthChecker
  | .heartbeat now hb => c.processHeartbeat now hb
  | .check now nodeExists => c.checkServerHealth now nodeExists

/-! ## Recoveries -/

/-- There is an entry for the server, and it is unhealthy. -/
def Unhealthy (c : HealthChecker) (serverId : Int) : Prop :=
  ∃ health, c.servers[serverId]? = some health ∧ health.isHealthy = false

/-- The servers that were unhealthy and are healthy after a call. -/
def recovered (c c' : HealthChecker) : List (Int × ServerHealth) :=
  c.servers.toList.filter fun p =>
    !p.2.isHealthy && (c'.servers[p.1]?).any (·.isHealthy)

/-- **How often a server recovered** in a run. -/
def recoveries : HealthChecker → List Call → Nat
  | _, [] => 0
  | c, call :: calls => (recovered c (c.step call)).length + recoveries (c.step call) calls

/-- No heartbeat comes from a server that is marked. -/
def NotMarked (c : HealthChecker) : Call → Prop
  | .heartbeat _ hb => ¬ c.Unhealthy hb.serverId
  | .check _ _ => True

@[simp] lemma servers_processHeartbeat (c : HealthChecker) (now : Int) (hb : HeartBeat)
    (serverId : Int) : ((c.processHeartbeat now hb).servers[serverId]?).map (·.isHealthy) =
      if serverId = hb.serverId then some true else (c.servers[serverId]?).map (·.isHealthy) := by
  rw [processHeartbeat, Map.get_insert]
  by_cases hid : serverId = hb.serverId
  · cases ((c.servers[hb.serverId]?).getD {}).isHealthy <;> simp [hid]
  · rw [if_neg hid, if_neg hid]

@[simp] lemma servers_checkServerHealth (c : HealthChecker) (now : Int)
    (nodeExists : Bytes → Bool) (serverId : Int) :
    (c.checkServerHealth now nodeExists).servers[serverId]? =
      (c.servers[serverId]?).map (c.checkServer now nodeExists serverId) :=
  Map.get_map _ _ _

/-- **What a turn of the loop does to the status.** -/
lemma isHealthy_checkServer (c : HealthChecker) (now : Int) (nodeExists : Bytes → Bool)
    (serverId : Int) (health : ServerHealth) :
    (c.checkServer now nodeExists serverId health).isHealthy =
      if health.isHealthy then !c.marks now nodeExists serverId health
      else c.restores now health := by
  rw [checkServer]
  by_cases hover : c.overdue now health = true
  · cases hhealthy : health.isHealthy <;> simp [hover, restores]
  · cases hhealthy : health.isHealthy
    · by_cases hrestores : c.restores now health = true <;> simp [hover, hrestores, hhealthy]
    · simp [hover, hhealthy, restores, marks]

/-! ## What is counted -/

/-- **A check counts the servers that it restores.** -/
lemma serversRecovered_checkServerHealth (c : HealthChecker) (now : Int)
    (nodeExists : Bytes → Bool) :
    (c.checkServerHealth now nodeExists).serversRecovered =
      c.serversRecovered + (recovered c (c.checkServerHealth now nodeExists)).length := by
  have hsame : ∀ p ∈ c.servers.toList,
      (!p.2.isHealthy && ((c.checkServerHealth now nodeExists).servers[p.1]?).any (·.isHealthy)) =
        c.restores now p.2 := by
    intro p hp
    rw [servers_checkServerHealth, Map.mem_toList.mp hp, Option.map_some, Option.any_some,
      isHealthy_checkServer]
    cases hhealthy : p.2.isHealthy <;> simp [restores, hhealthy]
  rw [recovered, List.filter_congr hsame, ← List.countP_eq_length_filter]
  rfl

/-- **A heartbeat restores its server**, if that was marked. -/
lemma length_recovered_processHeartbeat (c : HealthChecker) (now : Int) (hb : HeartBeat) :
    (recovered c (c.processHeartbeat now hb)).length =
      if (c.servers[hb.serverId]?).any (!·.isHealthy) then 1 else 0 := by
  have hsame : ∀ p ∈ c.servers.toList,
      (!p.2.isHealthy && ((c.processHeartbeat now hb).servers[p.1]?).any (·.isHealthy)) =
        (decide (p.1 = hb.serverId) && !p.2.isHealthy) := by
    intro p hp
    have hstatus := servers_processHeartbeat c now hb p.1
    rw [Map.mem_toList.mp hp] at hstatus
    have hany : ((c.processHeartbeat now hb).servers[p.1]?).any (·.isHealthy) =
        (((c.processHeartbeat now hb).servers[p.1]?).map (·.isHealthy)).any id := by
      rw [Option.any_map]
      rfl
    rw [hany, hstatus]
    by_cases hid : p.1 = hb.serverId <;> cases hhealthy : p.2.isHealthy <;> simp [hid, hhealthy]
  rw [recovered, List.filter_congr hsame]
  simp only [Bool.and_comm (decide _), ← List.filter_filter, Map.filter_key_toList]
  cases c.servers[hb.serverId]? with
  | none => simp
  | some health => cases hhealthy : health.isHealthy <;> simp [hhealthy]

lemma any_iff_unhealthy {c : HealthChecker} {serverId : Int} :
    (c.servers[serverId]?).any (!·.isHealthy) = true ↔ c.Unhealthy serverId := by
  rw [Unhealthy, Option.any_eq_true]
  simp

/-- **One call**: the recoveries are counted exactly if it is no heartbeat of a marked server. -/
lemma serversRecovered_step_iff (c : HealthChecker) (call : Call) :
    (c.step call).serversRecovered =
      c.serversRecovered + (recovered c (c.step call)).length ↔ c.NotMarked call := by
  cases call with
  | heartbeat now hb =>
      rw [step, length_recovered_processHeartbeat, NotMarked, ← any_iff_unhealthy]
      have hcounter : (c.processHeartbeat now hb).serversRecovered = c.serversRecovered := rfl
      rw [hcounter]
      split_ifs with hmarked <;> simp [hmarked]
  | check now nodeExists =>
      exact iff_of_true (serversRecovered_checkServerHealth c now nodeExists) trivial

/-- The counter and the recoveries along a run. -/
lemma serversRecovered_run_iff (c : HealthChecker) (calls : List Call) :
    (∀ before, before <+: calls → (before.foldl step c).serversRecovered =
      c.serversRecovered + c.recoveries before) ↔ AlongRun step NotMarked c calls := by
  induction calls generalizing c with
  | nil => simp [AlongRun, recoveries]
  | cons call calls ih =>
      rw [AlongRun, ← serversRecovered_step_iff, ← ih]
      constructor
      · intro hall
        have hfirst : (c.step call).serversRecovered =
            c.serversRecovered + (recovered c (c.step call)).length := by
          simpa [recoveries] using hall [call] ⟨calls, rfl⟩
        refine ⟨hfirst, fun before hbefore => ?_⟩
        have hnext := hall (call :: before) (List.cons_prefix_cons.mpr ⟨rfl, hbefore⟩)
        rw [List.foldl_cons, recoveries] at hnext
        omega
      · rintro ⟨hfirst, hrest⟩ before hbefore
        cases before with
        | nil => simp [recoveries]
        | cons call' before =>
            obtain ⟨rfl, htail⟩ := List.cons_prefix_cons.mp hbefore
            rw [List.foldl_cons, hrest before htail, hfirst, recoveries, Nat.add_assoc]

/-- **When recoveries are counted**: `servers_recovered_` is the number of times that a server which
a check had marked became healthy again, in every state of a run, exactly if no heartbeat of the run
comes from a server that is marked.  The readings of the clock, the answers of ZooKeeper and the two
limits are arbitrary. -/
theorem serversRecovered_eq_iff (maxMissedHeartbeats heartbeatTimeout : Int)
    (calls : List Call) :
    let c : HealthChecker := { maxMissedHeartbeats, heartbeatTimeout }
    (∀ before, before <+: calls →
      (before.foldl step c).serversRecovered = c.recoveries before) ↔
        AlongRun step NotMarked c calls := by
  intro c
  rw [← serversRecovered_run_iff c calls]
  simp only [show c.serversRecovered = 0 from rfl, Nat.zero_add]

/-- A server falls silent, is given up after three checks, and reports again. -/
def silentServer : List Call :=
  let hb : HeartBeat := ⟨1, ascii "10.0.0.1", 0, 0, 0, [], [], 0, 0⟩
  [.heartbeat 0 hb, .check (61 * 10 ^ 9) fun _ => false, .check (91 * 10 ^ 9) fun _ => false,
   .check (121 * 10 ^ 9) fun _ => false, .heartbeat (122 * 10 ^ 9) hb]

/-- **A recovery is not counted.**  The server is marked by the third check and healthy after its
heartbeat; the counter stays at zero. -/
theorem serversRecovered_misses_heartbeat :
    let c : HealthChecker := {}
    let marked := (silentServer.take 4).foldl step c
    let reached := silentServer.foldl step c
    (marked.servers[(1 : Int)]?).map (·.isHealthy) = some false ∧
      (reached.servers[(1 : Int)]?).map (·.isHealthy) = some true ∧
      c.recoveries silentServer = 1 ∧ reached.serversMarkedUnhealthy = 1 ∧
      reached.serversRecovered = 0 := by
  decide +kernel

end HealthChecker

end FileGrid
