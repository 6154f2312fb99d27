import FileGrid.Core.Bytes
import FileGrid.Core.Map

/-!
# The monitor of the head servers

`ZooKeeperHeadServerMonitor` goes through its rounds: it discovers the head servers from the texts
of their nodes, checks the health of each with a TCP connection, and elects a leader.

**Inputs of a round.**  A `Round` holds everything the monitor does not decide: the children it
finds and their texts, the outcome and the duration of every attempt to connect, and the time that
passes in between.  Time is the steady clock in nanoseconds, and only durations are inputs, so that
it never goes back.  What a text makes of a number is `std::stod`'s business, a parameter; a member
that `parse_server_data` leaves uninitialised, `port`, is an input too.

**The round.**  `discoverChildren`, `healthChecks` and `performLeaderElection` are the three parts.
A number in a text that does not parse throws, and ends the round where it is.  What the election
writes to ZooKeeper is left out, because the texts of the next round are arbitrary anyway.

**History.**  `connections` holds the connections that were made, and `grants` the servers that were
found healthy or elected as healthy, each with its instant; nothing reads them.
-/

namespace FileGrid

/-- Seconds in nanoseconds. -/
def nanos (seconds : Nat) : Nat := seconds * 1000000000

/-- A `double`: no number, or a number or an infinity. -/
abbrev Double := Option (WithBot (WithTop ℚ))

namespace Double

def zero : Double := some ((0 : ℚ) : WithTop ℚ)

/-- `a < b`, which is false if either is no number. -/
def lt : Double → Double → Bool
  | some a, some b => a < b
  | _, _ => false

/-- `a == b`. -/
def eq : Double → Double → Bool
  | some a, some b => a = b
  | _, _ => false

end Double

structure HeadServerInfo where
  serverId : Bytes := []
  ipAddress : Bytes := []
  port : Int
  lastHeartbeat : Int := 0
  lastHealthCheck : Nat
  isLeader : Bool := false
  status : Bytes := ascii "unknown"
  cpuUsage : Double := .zero
  memoryUsage : Double := .zero
  activeConnections : Int := 0
  consecutiveFailures : Int := 0

/-! ## The texts of the nodes -/

/-- One token of `parse_server_data`; `none` is an exception. -/
def parseServerField (stod : Bytes → Option Double) (info : HeadServerInfo) (token : Bytes) :
    Option HeadServerInfo :=
  match find (ascii "=") token with
  | none => some info
  | some eqPos =>
      let key := token.take eqPos
      let value := token.drop (eqPos + 1)
      if key = ascii "ip" then some { info with ipAddress := value }
      else if key = ascii "port" then (stoi value).map fun n => { info with port := n }
      else if key = ascii "status" then some { info with status := value }
      else if key = ascii "cpu_usage" then (stod value).map fun x => { info with cpuUsage := x }
      else if key = ascii "memory_usage" then
        (stod value).map fun x => { info with memoryUsage := x }
      else if key = ascii "active_connections" then
        (stoi value).map fun n => { info with activeConnections := n }
      else if key = ascii "last_update" then
        (stoll value).map fun n => { info with lastHeartbeat := n }
      else some info

/-- `parse_server_data`, into a new `HeadServerInfo`. -/
def parseServerData (stod : Bytes → Option Double) (data : Bytes) (info : HeadServerInfo) :
    Option HeadServerInfo :=
  (data.splitOn 44).foldlM (parseServerField stod) info

/-! ## Inputs -/

/-- How an attempt to connect ends: there is a connection; there is none; or there was no socket or
no address for the host, which is retried without a pause. -/
inductive Outcome
  | connected
  | failed
  | noSocket
deriving DecidableEq

structure Attempt where
  outcome : Outcome
  duration : Nat

/-- A health check: the time until it reads the clock, and its attempts. -/
structure Probe where
  delay : Nat
  attempts : Nat → Attempt

/-- A child of the node of the head servers, with its text, the time until that is read, and what
the uninitialised port happens to be. -/
structure Child where
  name : Bytes
  data : Bytes
  delay : Nat
  port : Int

/-- Everything a round depends on.  The probes are those of the health checks, of a leader, and of
the candidates of the election. -/
structure Round where
  children : List Child
  healthProbe : Bytes → Probe
  electionDelay : Nat
  leaderProbe : Bytes → Probe
  candidateProbe : Bytes → Probe
  restDelay : Nat

/-! ## The state -/

/-- What a health check changes beside the server: time, the static failure counts, and the history
of connections. -/
structure Probing where
  clock : Nat := 0
  failureCounts : Map Bytes Nat := ∅
  connections : List (Bytes × Nat) := []

structure Monitor where
  probing : Probing := {}
  headServers : Map Bytes HeadServerInfo := ∅
  leaderServerId : Bytes := []
  grants : List (Bytes × Nat) := []

/-! ## Health checks -/

/-- The loop over the attempts, of which some are left: whether there is a connection, and when the
loop ends. -/
def tryConnect (attempts : Nat → Attempt) : Nat → Nat → Nat → Bool × Nat
  | 0, _, clock => (false, clock)
  | left + 1, attempt, clock =>
      let clock := clock + (attempts attempt).duration
      match (attempts attempt).outcome with
      | .connected => (true, clock)
      | .failed =>
          tryConnect attempts left (attempt + 1) (if 0 < left then clock + nanos 1 else clock)
      | .noSocket => tryConnect attempts left (attempt + 1) clock

/-- `MAX_RETRIES`. -/
def maxRetries : Nat := 3

def HeadServerInfo.serverKey (server : HeadServerInfo) : Bytes :=
  server.serverId ++ ascii ":" ++ server.ipAddress ++ ascii ":" ++ dec server.port

/-- What a check returns: its verdict, the server and the rest. -/
structure CheckResult where
  healthy : Bool
  server : HeadServerInfo
  probing : Probing

/-- The shortcut of the health check: the server counts as checked recently, and as healthy. -/
def HeadServerInfo.RecentlyHealthy (server : HeadServerInfo) (now : Nat) : Prop :=
  now - server.lastHealthCheck < nanos 5 ∧ server.status = ascii "healthy"

instance (server : HeadServerInfo) (now : Nat) : Decidable (server.RecentlyHealthy now) :=
  inferInstanceAs (Decidable (_ ∧ _))

/-- `check_head_server_health`. -/
def checkHeadServerHealth (p : Probing) (server : HeadServerInfo) (probe : Probe) : CheckResult :=
  let now := p.clock + probe.delay
  if server.RecentlyHealthy now then ⟨true, server, { p with clock := now }⟩
  else
    let (connected, clock) := tryConnect probe.attempts maxRetries 0 now
    if connected then
      { healthy := true
        server := { server with lastHealthCheck := now }
        probing :=
          { clock
            failureCounts := p.failureCounts.insert server.serverKey 0
            connections := p.connections ++ [(server.serverId, clock)] } }
    else
      let failures := p.failureCounts[server.serverKey]?.getD 0 + 1
      { healthy := false
        server := if 3 ≤ failures then { server with status := ascii "unhealthy" } else server
        probing :=
          { p with clock, failureCounts := p.failureCounts.insert server.serverKey failures } }

/-! ### What a check does -/

lemma unhealthy_ne_healthy : ascii "unhealthy" ≠ ascii "healthy" := by decide

/-- One of the attempts that are made connects. -/
def Probe.Connects (probe : Probe) : Prop :=
  ∃ attempt < maxRetries, (probe.attempts attempt).outcome = .connected

instance (probe : Probe) : Decidable probe.Connects :=
  inferInstanceAs (Decidable (∃ attempt < maxRetries, _))

lemma le_tryConnect (attempts : Nat → Attempt) (left attempt clock : Nat) :
    clock ≤ (tryConnect attempts left attempt clock).2 := by
  induction left generalizing attempt clock with
  | zero => simp [tryConnect]
  | succ left ih =>
      rw [tryConnect]
      cases (attempts attempt).outcome with
      | connected => simp
      | failed =>
          refine le_trans ?_ (ih (attempt + 1) _)
          split_ifs
          · omega
          · omega
      | noSocket =>
          refine le_trans ?_ (ih (attempt + 1) _)
          omega

lemma tryConnect_connected_iff (attempts : Nat → Attempt) (left attempt clock : Nat) :
    (tryConnect attempts left attempt clock).1 = true ↔
      ∃ i < left, (attempts (attempt + i)).outcome = .connected := by
  induction left generalizing attempt clock with
  | zero => simp [tryConnect]
  | succ left ih =>
      have hshift : (∃ i < left + 1, (attempts (attempt + i)).outcome = .connected) ↔
          (attempts attempt).outcome = .connected ∨
            ∃ i < left, (attempts (attempt + 1 + i)).outcome = .connected := by
        constructor
        · rintro ⟨i, hi, hconnected⟩
          cases i with
          | zero => exact Or.inl hconnected
          | succ i =>
              refine Or.inr ⟨i, by omega, ?_⟩
              rwa [show attempt + 1 + i = attempt + (i + 1) by omega]
        · rintro (hconnected | ⟨i, hi, hconnected⟩)
          · exact ⟨0, by omega, hconnected⟩
          · refine ⟨i + 1, by omega, ?_⟩
            rwa [show attempt + (i + 1) = attempt + 1 + i by omega]
      rw [hshift, tryConnect]
      cases houtcome : (attempts attempt).outcome with
      | connected => simp
      | failed => simpa using ih (attempt + 1) _
      | noSocket => simpa using ih (attempt + 1) _

/-- What a check can come to. -/
inductive Checked (p : Probing) (server : HeadServerInfo) (probe : Probe) : CheckResult → Prop
  /-- The shortcut: there is no connection. -/
  | recent : server.RecentlyHealthy (p.clock + probe.delay) →
      Checked p server probe ⟨true, server, { p with clock := p.clock + probe.delay }⟩
  /-- There is a connection, now. -/
  | connected (clock : Nat) (counts : Map Bytes Nat) :
      ¬server.RecentlyHealthy (p.clock + probe.delay) → probe.Connects →
      p.clock + probe.delay ≤ clock →
      Checked p server probe
        ⟨true, { server with lastHealthCheck := p.clock + probe.delay },
          ⟨clock, counts, p.connections ++ [(server.serverId, clock)]⟩⟩
  /-- There is none. -/
  | failed (clock : Nat) (counts : Map Bytes Nat) (status : Bytes) :
      ¬server.RecentlyHealthy (p.clock + probe.delay) → ¬probe.Connects →
      p.clock + probe.delay ≤ clock →
      (status = server.status ∨ status = ascii "unhealthy") →
      Checked p server probe ⟨false, { server with status }, ⟨clock, counts, p.connections⟩⟩

lemma checked_checkHeadServerHealth (p : Probing) (server : HeadServerInfo) (probe : Probe) :
    Checked p server probe (checkHeadServerHealth p server probe) := by
  rw [checkHeadServerHealth]
  dsimp only
  by_cases hrecent : server.RecentlyHealthy (p.clock + probe.delay)
  · rw [if_pos hrecent]
    exact .recent hrecent
  · rw [if_neg hrecent]
    have hle := le_tryConnect probe.attempts maxRetries 0 (p.clock + probe.delay)
    have hconnects : (tryConnect probe.attempts maxRetries 0 (p.clock + probe.delay)).1 = true ↔
        probe.Connects := by
      rw [tryConnect_connected_iff]
      simp [Probe.Connects]
    cases hconnected : (tryConnect probe.attempts maxRetries 0 (p.clock + probe.delay)).1 with
    | true => exact .connected _ _ hrecent (hconnects.mp hconnected) hle
    | false =>
        have hno : ¬probe.Connects := by
          rw [← hconnects, hconnected]
          simp
        rw [if_neg (by simp)]
        split_ifs
        · exact .failed _ _ _ hrecent hno hle (Or.inr rfl)
        · exact .failed _ _ server.status hrecent hno hle (Or.inl rfl)

namespace Checked

variable {p : Probing} {server : HeadServerInfo} {probe : Probe} {result : CheckResult}

/-- A check changes the status and the time of the last check, and nothing else. -/
lemma server_eq (h : Checked p server probe result) :
    ∃ lastHealthCheck status, result.server = { server with lastHealthCheck, status } := by
  cases h with
  | recent hrecent => exact ⟨_, _, rfl⟩
  | connected clock counts hrecent hconnects hclock => exact ⟨_, _, rfl⟩
  | failed clock counts status hrecent hconnects hclock hstatus => exact ⟨_, _, rfl⟩

lemma serverId_eq (h : Checked p server probe result) :
    result.server.serverId = server.serverId := by
  obtain ⟨t, status, heq⟩ := h.server_eq
  rw [heq]

lemma isLeader_eq (h : Checked p server probe result) :
    result.server.isLeader = server.isLeader := by
  obtain ⟨t, status, heq⟩ := h.server_eq
  rw [heq]

end Checked

namespace Monitor

/-! ## Discovery -/

/-- The loop of `discover_head_servers`, and whether it ends without an exception. -/
def discoverChildren (stod : Bytes → Option Double) : List Child → Monitor → Bool × Monitor
  | [], m => (true, m)
  | child :: children, m =>
      if child.data = [] then discoverChildren stod children m
      else
        let m := { m with probing.clock := m.probing.clock + child.delay }
        match parseServerData stod child.data
            { port := child.port, lastHealthCheck := m.probing.clock } with
        | none => (false, m)
        | some info =>
            discoverChildren stod children
              { m with
                headServers :=
                  m.headServers.insert child.name { info with serverId := child.name } }

/-- `discover_head_servers`. -/
def discoverHeadServers (stod : Bytes → Option Double) (m : Monitor) (r : Round) : Bool × Monitor :=
  discoverChildren stod r.children { m with headServers := ∅ }

/-- The ids over which a loop goes. -/
def serverIds (m : Monitor) : List Bytes := m.headServers.toList.map (·.1)

/-! ## The health-check loop -/

/-- One iteration: the check, and the status it gives. -/
def healthCheck (r : Round) (m : Monitor) (id : Bytes) : Monitor :=
  match m.headServers[id]? with
  | none => m
  | some info =>
      let check := checkHeadServerHealth m.probing info (r.healthProbe id)
      let status := if check.healthy then ascii "healthy" else ascii "unhealthy"
      { m with
        probing := check.probing
        headServers := m.headServers.insert id { check.server with status }
        grants :=
          if check.healthy then m.grants ++ [(check.server.serverId, check.probing.clock)]
          else m.grants }

def healthChecks (r : Round) (m : Monitor) : Monitor := m.serverIds.foldl (healthCheck r) m

/-! ## The election -/

/-- The loop that looks for a current leader.  If there is one it is checked; the second component
says that it is still healthy. -/
def findCurrentLeader (r : Round) : List Bytes → Monitor → Option (Bytes × Bool) × Monitor
  | [], m => (none, m)
  | id :: ids, m =>
      match m.headServers[id]? with
      | none => findCurrentLeader r ids m
      | some info =>
          if info.isLeader then
            let check := checkHeadServerHealth m.probing info (r.leaderProbe id)
            let server :=
              if check.healthy then check.server
              else { check.server with isLeader := false, status := ascii "unhealthy" }
            (some (id, check.healthy),
              { m with probing := check.probing, headServers := m.headServers.insert id server })
          else findCurrentLeader r ids m

/-- Less of both, or the same of both and a smaller id. -/
def preferred (id : Bytes) (info best : HeadServerInfo) : Bool :=
  (info.cpuUsage.lt best.cpuUsage && info.memoryUsage.lt best.memoryUsage) ||
    (info.cpuUsage.eq best.cpuUsage && info.memoryUsage.eq best.memoryUsage &&
      compare id best.serverId == .lt)

/-- A candidate is healthy, or passes another check. -/
def checkCandidate (r : Round) (m : Monitor) (id : Bytes) (info : HeadServerInfo) : CheckResult :=
  if info.status = ascii "healthy" then ⟨true, info, m.probing⟩
  else checkHeadServerHealth m.probing info (r.candidateProbe id)

/-- One iteration of the search for the best candidate. -/
def considerCandidate (r : Round) (state : Option Bytes × Monitor) (id : Bytes) :
    Option Bytes × Monitor :=
  match state.2.headServers[id]? with
  | none => state
  | some info =>
      let check := checkCandidate r state.2 id info
      let m :=
        { state.2 with
          probing := check.probing, headServers := state.2.headServers.insert id check.server }
      if check.healthy then
        match state.1.bind (m.headServers[·]?) with
        | none => (some id, m)
        | some best => (if preferred id check.server best then some id else state.1, m)
      else (state.1, m)

/-- The promotion of the best candidate. -/
def promote (m : Monitor) (currentLeader : Option Bytes) (best : Bytes) : Monitor :=
  let servers :=
    match currentLeader with
    | some leader =>
        if leader = [] then m.headServers
        else m.headServers.modify leader ({ · with isLeader := false })
    | none => m.headServers
  match servers[best]? with
  | none => m
  | some info =>
      { m with
        headServers := servers.insert best { info with isLeader := true, status := ascii "healthy" }
        leaderServerId := info.serverId
        grants := m.grants ++ [(info.serverId, m.probing.clock)] }

/-- One iteration of the search for the least unhealthy server. -/
def lessUnhealthy (least : Option (Bytes × HeadServerInfo)) (entry : Bytes × HeadServerInfo) :
    Option (Bytes × HeadServerInfo) :=
  match least with
  | none => some entry
  | some best =>
      if entry.2.consecutiveFailures < best.2.consecutiveFailures then some entry else some best

/-- The election of the least unhealthy server. -/
def electLeastUnhealthy (m : Monitor) : Monitor :=
  match m.headServers.toList.foldl lessUnhealthy none with
  | none => m
  | some (id, info) =>
      { m with
        headServers :=
          m.headServers.insert id { info with isLeader := true, status := ascii "degraded" }
        leaderServerId := info.serverId }

/-- The search for the best candidate. -/
def findBestCandidate (r : Round) (m : Monitor) : Option Bytes × Monitor :=
  m.serverIds.foldl (considerCandidate r) (none, m)

/-- `perform_leader_election`. -/
def performLeaderElection (r : Round) (m : Monitor) : Monitor :=
  let m := { m with probing.clock := m.probing.clock + r.electionDelay }
  match findCurrentLeader r m.serverIds m with
  | (some (_, true), m) => m
  | (leader, m) =>
      match findBestCandidate r m with
      | (some best, m) => m.promote (leader.map (·.1)) best
      | (none, m) => m.electLeastUnhealthy

/-! ## Rounds -/

/-- The sleep between two rounds, and the rest of the round. -/
def sleep (r : Round) (m : Monitor) : Monitor :=
  { m with probing.clock := m.probing.clock + nanos 10 + r.restDelay }

/-- One round of `monitor_loop`. -/
def round (stod : Bytes → Option Double) (m : Monitor) (r : Round) : Monitor :=
  match discoverHeadServers stod m r with
  | (false, m) => m.sleep r
  | (true, m) => ((m.healthChecks r).performLeaderElection r).sleep r

/-! ## What discovery leaves -/

/-- Every stored server has the property. -/
def AllServers (m : Monitor) (P : Bytes → HeadServerInfo → Prop) : Prop :=
  ∀ (id : Bytes) (info : HeadServerInfo), m.headServers[id]? = some info → P id info

/-- Every server is stored under its id, and none is marked as the leader. -/
def Unmarked (m : Monitor) : Prop :=
  ∀ (id : Bytes) (info : HeadServerInfo), m.headServers[id]? = some info →
    info.serverId = id ∧ info.isLeader = false

lemma AllServers.insert {P : Bytes → HeadServerInfo → Prop} {m m' : Monitor} (h : m.AllServers P)
    {id : Bytes} {info : HeadServerInfo} (hservers : m'.headServers = m.headServers.insert id info)
    (hP : P id info) : m'.AllServers P := by
  intro id' info' hinfo'
  rw [hservers, Map.get_insert] at hinfo'
  split_ifs at hinfo' with heq
  · rw [← Option.some.inj hinfo', heq]
    exact hP
  · exact h id' info' hinfo'

/-- One server is stored, under its id and not marked. -/
lemma Unmarked.insert {m m' : Monitor} (h : m.Unmarked) {id : Bytes} {info : HeadServerInfo}
    (hservers : m'.headServers = m.headServers.insert id info) (hid : info.serverId = id)
    (hleader : info.isLeader = false) : m'.Unmarked :=
  AllServers.insert h hservers ⟨hid, hleader⟩

/-- A check does not change whether the property holds. -/
def KeptByChecks (P : Bytes → HeadServerInfo → Prop) : Prop :=
  ∀ (id : Bytes) (info : HeadServerInfo) (lastHealthCheck : Nat) (status : Bytes),
    P id info → P id { info with lastHealthCheck, status }

/-- What no text can say: who is the leader, and how often a server has failed. -/
lemma frame_parseServerField {stod : Bytes → Option Double} {info info' : HeadServerInfo}
    {token : Bytes} (h : parseServerField stod info token = some info') :
    info'.isLeader = info.isLeader ∧ info'.consecutiveFailures = info.consecutiveFailures := by
  rw [parseServerField] at h
  cases hfind : find (ascii "=") token with
  | none =>
      rw [hfind] at h
      rw [Option.some.inj h]
      exact ⟨rfl, rfl⟩
  | some eqPos =>
      rw [hfind] at h
      dsimp only at h
      split_ifs at h
      · rw [← Option.some.inj h]
        exact ⟨rfl, rfl⟩
      · obtain ⟨n, -, rfl⟩ := Option.map_eq_some_iff.mp h
        exact ⟨rfl, rfl⟩
      · rw [← Option.some.inj h]
        exact ⟨rfl, rfl⟩
      · obtain ⟨x, -, rfl⟩ := Option.map_eq_some_iff.mp h
        exact ⟨rfl, rfl⟩
      · obtain ⟨x, -, rfl⟩ := Option.map_eq_some_iff.mp h
        exact ⟨rfl, rfl⟩
      · obtain ⟨n, -, rfl⟩ := Option.map_eq_some_iff.mp h
        exact ⟨rfl, rfl⟩
      · obtain ⟨n, -, rfl⟩ := Option.map_eq_some_iff.mp h
        exact ⟨rfl, rfl⟩
      · rw [Option.some.inj h]
        exact ⟨rfl, rfl⟩

/-- **No text makes a leader**, or a server that has failed. -/
lemma frame_parseServerData {stod : Bytes → Option Double} {data : Bytes}
    {info info' : HeadServerInfo} (h : parseServerData stod data info = some info') :
    info'.isLeader = info.isLeader ∧ info'.consecutiveFailures = info.consecutiveFailures := by
  rw [parseServerData] at h
  generalize data.splitOn 44 = tokens at h
  induction tokens generalizing info with
  | nil =>
      rw [← Option.some.inj h]
      exact ⟨rfl, rfl⟩
  | cons token tokens ih =>
      rw [List.foldlM_cons] at h
      obtain ⟨next, hnext, hrest⟩ := Option.bind_eq_some_iff.mp h
      obtain ⟨hleader, hfailures⟩ := frame_parseServerField hnext
      rw [(ih hrest).1, (ih hrest).2]
      exact ⟨hleader, hfailures⟩

/-- **The rule for discovery**: what survives the passing of time and the entry of a server that was
read survives discovery. -/
lemma discoverChildren_rule (stod : Bytes → Option Double) (inv : Monitor → Prop)
    (hclock : ∀ (m : Monitor) (delay : Nat), inv m →
      inv { m with probing.clock := m.probing.clock + delay })
    (hinsert : ∀ (m : Monitor) (child : Child) (info : HeadServerInfo),
      parseServerData stod child.data
        { port := child.port, lastHealthCheck := m.probing.clock } = some info → inv m →
      inv { m with
        headServers := m.headServers.insert child.name { info with serverId := child.name } })
    (children : List Child) {m : Monitor} (h : inv m) :
    inv (discoverChildren stod children m).2 := by
  induction children generalizing m with
  | nil => exact h
  | cons child children ih =>
      have hlater := hclock m child.delay h
      rw [discoverChildren]
      split_ifs
      · exact ih h
      · dsimp only
        cases hparse : parseServerData stod child.data
            { port := child.port, lastHealthCheck := m.probing.clock + child.delay } with
        | none => exact hlater
        | some info => exact ih (hinsert _ child info hparse hlater)

/-- What discovery does to the rest of the state: time passes. -/
lemma discoverChildren_frame (stod : Bytes → Option Double) (children : List Child) (m : Monitor) :
    let m' := (discoverChildren stod children m).2
    m'.leaderServerId = m.leaderServerId ∧ m'.grants = m.grants ∧
      m'.probing.connections = m.probing.connections ∧
      m'.probing.failureCounts = m.probing.failureCounts :=
  discoverChildren_rule stod (fun m' => m'.leaderServerId = m.leaderServerId ∧
      m'.grants = m.grants ∧ m'.probing.connections = m.probing.connections ∧
      m'.probing.failureCounts = m.probing.failureCounts)
    (fun _ _ h => h) (fun _ _ _ _ h => h) children ⟨rfl, rfl, rfl, rfl⟩

/-- A server as discovery builds it, from its text and nothing else. -/
def Rebuilt (id : Bytes) (info : HeadServerInfo) : Prop :=
  info.serverId = id ∧ info.isLeader = false ∧ info.consecutiveFailures = 0

lemma keptByChecks_rebuilt : KeptByChecks Rebuilt := fun _ _ _ _ h => h

lemma AllServers.unmarked {m : Monitor} (h : m.AllServers Rebuilt) : m.Unmarked :=
  fun id info hinfo => ⟨(h id info hinfo).1, (h id info hinfo).2.1⟩

lemma rebuilt_discoverChildren (stod : Bytes → Option Double) (children : List Child)
    {m : Monitor} (h : m.AllServers Rebuilt) :
    (discoverChildren stod children m).2.AllServers Rebuilt := by
  refine discoverChildren_rule stod (·.AllServers Rebuilt) (fun _ _ h => h) ?_ children h
  intro m child info hparse h
  obtain ⟨hleader, hfailures⟩ := frame_parseServerData hparse
  exact h.insert rfl ⟨rfl, hleader, hfailures⟩

/-- **A round begins with all servers built anew.** -/
lemma rebuilt_discoverHeadServers (stod : Bytes → Option Double) (m : Monitor) (r : Round) :
    (discoverHeadServers stod m r).2.AllServers Rebuilt := by
  refine rebuilt_discoverChildren stod r.children ?_
  intro id info hinfo
  simp at hinfo

/-- **A round begins with no leader marked.** -/
lemma unmarked_discoverHeadServers (stod : Bytes → Option Double) (m : Monitor) (r : Round) :
    (discoverHeadServers stod m r).2.Unmarked :=
  (rebuilt_discoverHeadServers stod m r).unmarked

lemma AllServers.healthCheck {P : Bytes → HeadServerInfo → Prop} {m : Monitor} (h : m.AllServers P)
    (hP : KeptByChecks P) (r : Round) (id : Bytes) : (m.healthCheck r id).AllServers P := by
  rw [Monitor.healthCheck]
  cases hinfo : m.headServers[id]? with
  | none => exact h
  | some info =>
      have hcheck := checked_checkHeadServerHealth m.probing info (r.healthProbe id)
      obtain ⟨t, status, heq⟩ := hcheck.server_eq
      refine h.insert rfl ?_
      rw [heq]
      exact hP id info _ _ (h id info hinfo)

lemma AllServers.healthChecks {P : Bytes → HeadServerInfo → Prop} {m : Monitor} (h : m.AllServers P)
    (hP : KeptByChecks P) (r : Round) : (m.healthChecks r).AllServers P :=
  List.foldlRecOn (motive := fun m => m.AllServers P) m.serverIds (Monitor.healthCheck r) h
    fun _ hm id _ => hm.healthCheck hP r id

lemma keptByChecks_unmarked :
    KeptByChecks fun id info => info.serverId = id ∧ info.isLeader = false := fun _ _ _ _ h => h

/-- A health check marks no leader. -/
lemma Unmarked.healthCheck {m : Monitor} (h : m.Unmarked) (r : Round) (id : Bytes) :
    (m.healthCheck r id).Unmarked :=
  AllServers.healthCheck h keptByChecks_unmarked r id

/-- The check of a candidate changes the status and the time of the last check, if there is one. -/
lemma server_eq_checkCandidate (r : Round) (m : Monitor) (id : Bytes) (info : HeadServerInfo) :
    ∃ lastHealthCheck status,
      (checkCandidate r m id info).server = { info with lastHealthCheck, status } := by
  rw [checkCandidate]
  split_ifs
  · exact ⟨_, _, rfl⟩
  · exact (checked_checkHeadServerHealth m.probing info (r.candidateProbe id)).server_eq

/-- Whichever candidate is kept, the checked server is stored. -/
lemma considerCandidate_snd (r : Round) {state : Option Bytes × Monitor} {id : Bytes}
    {info : HeadServerInfo} (hinfo : state.2.headServers[id]? = some info) :
    (considerCandidate r state id).2 =
      { state.2 with
        probing := (checkCandidate r state.2 id info).probing
        headServers :=
          state.2.headServers.insert id (checkCandidate r state.2 id info).server } := by
  rw [considerCandidate, hinfo]
  dsimp only
  split_ifs
  · split
    · rfl
    · rfl
  · rfl

lemma AllServers.considerCandidate {P : Bytes → HeadServerInfo → Prop} (hP : KeptByChecks P)
    {state : Option Bytes × Monitor} (h : state.2.AllServers P) (r : Round) (id : Bytes) :
    (considerCandidate r state id).2.AllServers P := by
  cases hinfo : state.2.headServers[id]? with
  | none =>
      rw [Monitor.considerCandidate, hinfo]
      exact h
  | some info =>
      rw [considerCandidate_snd r hinfo]
      obtain ⟨t, status, heq⟩ := server_eq_checkCandidate r state.2 id info
      refine h.insert rfl ?_
      rw [heq]
      exact hP id info t status (h id info hinfo)

lemma AllServers.findBestCandidate {P : Bytes → HeadServerInfo → Prop} (hP : KeptByChecks P)
    {m : Monitor} (h : m.AllServers P) (r : Round) : (findBestCandidate r m).2.AllServers P :=
  List.foldlRecOn (motive := fun state => state.2.AllServers P) m.serverIds
    (Monitor.considerCandidate r) h fun _ hstate id _ => hstate.considerCandidate hP r id

lemma mem_serverIds {m : Monitor} {id : Bytes} :
    id ∈ m.serverIds ↔ ∃ info, m.headServers[id]? = some info := by
  rw [serverIds, List.mem_map]
  constructor
  · rintro ⟨⟨id', info⟩, hmem, rfl⟩
    exact ⟨info, Map.mem_toList.mp hmem⟩
  · rintro ⟨info, hinfo⟩
    exact ⟨(id, info), Map.mem_toList.mpr hinfo, rfl⟩

lemma findCurrentLeader_of_unmarked (r : Round) (ids : List Bytes) {m : Monitor} (h : m.Unmarked) :
    findCurrentLeader r ids m = (none, m) := by
  induction ids with
  | nil => rfl
  | cons id ids ih =>
      rw [findCurrentLeader]
      cases hinfo : m.headServers[id]? with
      | none => exact ih
      | some info =>
          dsimp only
          rw [if_neg (by simp [(h id info hinfo).2])]
          exact ih

/-- The election of a state in which no leader is marked: the search for the best candidate decides
it. -/
lemma performLeaderElection_of_unmarked (r : Round) {m : Monitor} (h : m.Unmarked) :
    m.performLeaderElection r =
      let found := findBestCandidate r
        { m with probing.clock := m.probing.clock + r.electionDelay }
      match found.1 with
      | some best => found.2.promote none best
      | none => found.2.electLeastUnhealthy := by
  have hnone := findCurrentLeader_of_unmarked (m := { m with
    probing.clock := m.probing.clock + r.electionDelay }) r (serverIds m) h
  rw [performLeaderElection]
  dsimp only [serverIds] at hnone ⊢
  rw [hnone]
  dsimp only
  split
  · rename_i best m' hfound
    rw [hfound]
    rfl
  · rename_i m' hfound
    rw [hfound]

/-! ## Rounds for the runs on fixed inputs -/

/-- `std::stod` for texts of whole numbers. -/
def stodWhole (s : Bytes) : Option Double :=
  (stoi s).map fun n => some (((n : ℚ) : WithTop ℚ) : WithBot (WithTop ℚ))

/-- A child that is read at once. -/
def childOf (name data : String) : Child := ⟨ascii name, ascii data, 0, 0⟩

/-- A round in which some servers accept every connection at once, and the attempts at the others
time out. -/
def roundOf (children : List Child) (accepts : Bytes → Bool) : Round :=
  let probe (id : Bytes) : Probe :=
    ⟨0, fun _ => if accepts id then ⟨.connected, 0⟩ else ⟨.failed, nanos 5⟩⟩
  { children
    healthProbe := probe
    electionDelay := 0
    leaderProbe := probe
    candidateProbe := probe
    restDelay := 0 }

end Monitor

end FileGrid
