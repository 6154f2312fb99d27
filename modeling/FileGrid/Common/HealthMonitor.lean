import FileGrid.Core.Bytes
import FileGrid.Core.Map

/-!
# The health monitor

`dfg::HealthMonitor`: one record per server identifier, refreshed by heartbeats and aged by the
periodic `check_health`.  Times are nanoseconds of the steady clock, with the epoch as the default
`time_point`; each function that reads the clock takes its reading as `now`.

`mem_newlyUnhealthy` is the fact about `checkHealth` every liveness argument needs: **the callback
is only ever given a record whose last heartbeat is more than the timeout old**.
-/

namespace FileGrid

/-- `dfg::ServerHealth`. -/
structure ServerHealth where
  serverId : Int := 0
  ip : Bytes := []
  cpuUsage : ℚ := 0
  ramUsage : ℚ := 0
  diskUsage : ℚ := 0
  networkIn : Bytes := []
  networkOut : Bytes := []
  networkInBps : Nat := 0
  networkOutBps : Nat := 0
  isHealthy : Bool := true
  lastHeartbeat : Int := 0
  missedHeartbeats : Int := 0
deriving DecidableEq

/-- `dfg::HealthMonitor`. -/
structure HealthMonitor where
  servers : Map Int ServerHealth := ∅
  heartbeatTimeout : Int := 60
  maxMissedHeartbeats : Int := 3

/-- Whole seconds between two readings of the steady clock, as `duration_cast` rounds them. -/
def elapsedSeconds (now last : Int) : Int := (now - last).tdiv (10 ^ 9)

lemma elapsedSeconds_le {now last timeout : Int} (h : now - last ≤ timeout * 10 ^ 9) :
    elapsedSeconds now last ≤ timeout := by
  calc (now - last).tdiv (10 ^ 9) ≤ (timeout * 10 ^ 9).tdiv (10 ^ 9) :=
        Int.tdiv_le_tdiv (by norm_num) h
    _ = timeout := Int.mul_tdiv_cancel _ (by norm_num)

namespace HealthMonitor

/-- `record_heartbeat`: the call of the recovery callback, if it is due, and the monitor
afterwards. -/
def recordHeartbeat (m : HealthMonitor) (now serverId : Int) (health : ServerHealth) :
    Option (Int × ServerHealth) × HealthMonitor :=
  -- `servers_[server_id]` default-constructs a missing record
  let old := (m.servers[serverId]?).getD {}
  let wasUnhealthy := !old.isHealthy && old.lastHeartbeat != 0
  let record := { health with isHealthy := true, missedHeartbeats := 0, lastHeartbeat := now }
  (if wasUnhealthy then some (serverId, record) else none,
    { m with servers := m.servers.insert serverId record })

/-- One record is stale: it has been refreshed before, and more than the timeout ago. -/
def stale (m : HealthMonitor) (now : Int) (h : ServerHealth) : Bool :=
  h.lastHeartbeat ≠ 0 ∧ m.heartbeatTimeout < elapsedSeconds now h.lastHeartbeat

/-- A stale record reaches the number of missed heartbeats at which it is given up. -/
def givenUp (m : HealthMonitor) (now : Int) (h : ServerHealth) : Bool :=
  m.stale now h ∧ h.isHealthy ∧ m.maxMissedHeartbeats ≤ h.missedHeartbeats + 1

/-- The body of the loop of `check_health`. -/
def checkRecord (m : HealthMonitor) (now : Int) (h : ServerHealth) : ServerHealth :=
  if m.stale now h then
    { h with missedHeartbeats := h.missedHeartbeats + 1,
             isHealthy := h.isHealthy && !m.givenUp now h }
  else h

/-- The calls of the unhealthy callback that one `check_health` makes, in order. -/
def newlyUnhealthy (m : HealthMonitor) (now : Int) : List (Int × ServerHealth) :=
  (m.servers.toList.filter fun p => m.givenUp now p.2).map fun p => (p.1, m.checkRecord now p.2)

/-- `check_health`: the calls of the unhealthy callback, and the monitor afterwards. -/
def checkHealth (m : HealthMonitor) (now : Int) : List (Int × ServerHealth) × HealthMonitor :=
  (m.newlyUnhealthy now, { m with servers := m.servers.map fun _ h => m.checkRecord now h })

/-- `register_server`: a record is made only where there is none. -/
def registerServer (m : HealthMonitor) (now serverId : Int) (ip : Bytes) : HealthMonitor :=
  match m.servers[serverId]? with
  | some _ => m
  | none =>
      { m with servers :=
          m.servers.insert serverId { serverId, ip, isHealthy := true, lastHeartbeat := now } }

/-- `deregister_server`. -/
def deregisterServer (m : HealthMonitor) (serverId : Int) : HealthMonitor :=
  { m with servers := m.servers.erase serverId }

/-- `get_all_health`, as the records an iteration visits. -/
def getAllHealth (m : HealthMonitor) : List ServerHealth := m.servers.toList.map (·.2)

/-- `healthy_count`. -/
def healthyCount (m : HealthMonitor) : Nat := (m.getAllHealth.filter (·.isHealthy)).length

/-! ## Records after each operation -/

@[simp] lemma recordHeartbeat_get (m : HealthMonitor) (now id k : Int) (h : ServerHealth) :
    (m.recordHeartbeat now id h).2.servers[k]? =
      if k = id then
        some { h with isHealthy := true, missedHeartbeats := 0, lastHeartbeat := now }
      else m.servers[k]? := by
  simp [recordHeartbeat]

@[simp] lemma checkHealth_get (m : HealthMonitor) (now k : Int) :
    (m.checkHealth now).2.servers[k]? = m.servers[k]?.map (m.checkRecord now) := by
  simp [checkHealth]

@[simp] lemma checkRecord_ip (m : HealthMonitor) (now : Int) (h : ServerHealth) :
    (m.checkRecord now h).ip = h.ip := by
  unfold checkRecord
  split_ifs <;> rfl

@[simp] lemma checkRecord_lastHeartbeat (m : HealthMonitor) (now : Int) (h : ServerHealth) :
    (m.checkRecord now h).lastHeartbeat = h.lastHeartbeat := by
  unfold checkRecord
  split_ifs <;> rfl

/-- A check takes the flag of the records it gives up, and of no other. -/
lemma checkRecord_isHealthy (m : HealthMonitor) (now : Int) (h : ServerHealth) :
    (m.checkRecord now h).isHealthy = false ↔ h.isHealthy = false ∨ m.givenUp now h = true := by
  unfold checkRecord
  split_ifs with hstale
  · simp only [Bool.and_eq_false_iff, Bool.not_eq_false']
  · simp [givenUp, hstale]

/-- A registration changes at most the record under its own identifier, and that one only when
there was none. -/
lemma registerServer_get (m : HealthMonitor) (now id k : Int) (ip : Bytes) :
    (m.registerServer now id ip).servers[k]? =
      if k = id ∧ m.servers[id]? = none then
        some { serverId := id, ip, isHealthy := true, lastHeartbeat := now }
      else m.servers[k]? := by
  unfold registerServer
  cases h : m.servers[id]? with
  | some r => simp
  | none => simp

@[simp] lemma registerServer_heartbeatTimeout (m : HealthMonitor) (now id : Int) (ip : Bytes) :
    (m.registerServer now id ip).heartbeatTimeout = m.heartbeatTimeout := by
  unfold registerServer
  cases m.servers[id]? <;> rfl

/-- **The unhealthy callback is only given records that are stale.** -/
theorem mem_newlyUnhealthy {m : HealthMonitor} {now id : Int} {h : ServerHealth}
    (hmem : (id, h) ∈ m.newlyUnhealthy now) :
    ∃ r, m.servers[id]? = some r ∧ h = m.checkRecord now r ∧
      m.heartbeatTimeout < elapsedSeconds now r.lastHeartbeat := by
  simp only [newlyUnhealthy, List.mem_map, List.mem_filter, Prod.mk.injEq, Prod.exists] at hmem
  obtain ⟨id', r, ⟨hr, hgiven⟩, rfl, rfl⟩ := hmem
  simp only [givenUp, stale, Bool.decide_and, Bool.and_eq_true, decide_eq_true_eq] at hgiven
  exact ⟨r, Map.mem_toList.mp hr, rfl, hgiven.1.2⟩

end HealthMonitor

end FileGrid
