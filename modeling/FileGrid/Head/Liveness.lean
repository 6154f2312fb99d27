import FileGrid.Head.Membership

/-!
# Live nodes and the unhealthy callback

A node heartbeats under its own configured `server_id`, while the record `handle_self_register`
makes in the monitor stands under the identifier the registry assigned, which is a different one.
So a node's address can sit in the monitor under two identifiers, and only one of them is kept
fresh by the node itself.

`records_of_node` is the invariant that says where the records of one node come from: the one
under its `server_id` dates from its last heartbeat, any other was made by a registration of the
node and **has seen no heartbeat since**.  The second kind is what turns a live node over to
failover (`live_node_given_up`); `live_node_not_given_up` says what keeps it from doing so: the
identifier is somebody else's `server_id`, and that node's heartbeats take the record over in time.
-/

namespace FileGrid

/-- A storage node, as its own configuration has it. -/
structure ClusterNode where
  serverId : Int
  host : Bytes
  port : Int
deriving DecidableEq

namespace ClusterNode

def address (n : ClusterNode) : Bytes := addressOf n.host n.port

/-- The body of a self-registration carries this node's identifier, host and port. -/
def Registers (n : ClusterNode) (body : Bytes) : Prop :=
  ControlApi.extractJsonInt body "server_id" = n.serverId ∧
    ControlApi.extractJsonString body "host" = n.host ∧
    ControlApi.extractJsonInt body "port" = n.port

instance (n : ClusterNode) (body : Bytes) : Decidable (n.Registers body) :=
  inferInstanceAs (Decidable (_ ∧ _))

end ClusterNode

/-- The nodes of a cluster have distinct positive identifiers and distinct addresses. -/
structure Roster (nodes : List ClusterNode) : Prop where
  pos : ∀ n ∈ nodes, 0 < n.serverId
  ids : ∀ n ∈ nodes, ∀ n' ∈ nodes, n.serverId = n'.serverId → n = n'
  addresses : ∀ n ∈ nodes, ∀ n' ∈ nodes, n.address = n'.address → n = n'

namespace HeadEvent

/-- The event is a self-registration of `n`. -/
def IsRegistrationOf (ev : HeadEvent) (n : ClusterNode) : Prop :=
  match ev.op with
  | .selfRegister body => n.Registers body
  | _ => False

/-- The event is a heartbeat under the identifier `id`. -/
def isHeartbeat (ev : HeadEvent) (id : Int) : Bool :=
  match ev.op with
  | .heartbeat serverId _ => serverId = id
  | _ => false

def isCheck (ev : HeadEvent) : Bool :=
  match ev.op with
  | .checkHealth => true
  | _ => false

/-- The event is one a node of the cluster causes, or a health check. -/
def FromNodes (ev : HeadEvent) (nodes : List ClusterNode) : Prop :=
  match ev.op with
  | .selfRegister body => ∃ n ∈ nodes, n.Registers body
  | .heartbeat serverId health => ∃ n ∈ nodes, serverId = n.serverId ∧ health.ip = n.address
  | .checkHealth => True
  | _ => False

instance : ∀ (ev : HeadEvent) (n : ClusterNode), Decidable (ev.IsRegistrationOf n)
  | ⟨_, .selfRegister body⟩, n => inferInstanceAs (Decidable (n.Registers body))
  | ⟨_, .addServer _⟩, _ => isFalse id
  | ⟨_, .removeServer _⟩, _ => isFalse id
  | ⟨_, .heartbeat _ _⟩, _ => isFalse id
  | ⟨_, .checkHealth⟩, _ => isFalse id

instance : ∀ (ev : HeadEvent) (nodes : List ClusterNode), Decidable (ev.FromNodes nodes)
  | ⟨_, .selfRegister body⟩, nodes =>
      inferInstanceAs (Decidable (∃ n ∈ nodes, n.Registers body))
  | ⟨_, .heartbeat serverId health⟩, nodes =>
      inferInstanceAs (Decidable (∃ n ∈ nodes, serverId = n.serverId ∧ health.ip = n.address))
  | ⟨_, .checkHealth⟩, _ => isTrue trivial
  | ⟨_, .addServer _⟩, _ => isFalse id
  | ⟨_, .removeServer _⟩, _ => isFalse id

end HeadEvent

/-- The time of the last heartbeat under `id`. -/
def lastHeartbeatOf (id : Int) (evs : List HeadEvent) : Option Int :=
  (evs.filter (·.isHeartbeat id)).getLast?.map (·.env.now)

/-- At every health check, the node's last heartbeat is at most the timeout old. -/
def Live (timeout : Int) (n : ClusterNode) (evs : List HeadEvent) : Prop :=
  ∀ j, ∀ h : j < evs.length, evs[j].isCheck →
    ∀ u ∈ lastHeartbeatOf n.serverId (evs.take j), evs[j].env.now - u ≤ timeout * 10 ^ 9

/-- The identifier a registration of `n` is given: that of the entry its address already has, or
the one its `server_id` and the number of entries move the counter to. -/
def assignedId (r : ServerRegistry) (n : ClusterNode) : Int :=
  match r.findDuplicate n.host n.port with
  | some (existingId, _) => existingId
  | none => max (wrap32 (n.serverId + 1)) (wrap32 (r.count + 1))

/-- Whenever a registration of `n` opens a new record in the monitor, a heartbeat under the
identifier of that record comes in before any health check more than the timeout later. -/
def TakenOver (timeout : Int) (s : ControlApi) (n : ClusterNode) (evs : List HeadEvent) : Prop :=
  ∀ i, ∀ hi : i < evs.length, evs[i].IsRegistrationOf n →
    (headRun s (evs.take i)).health.servers[
        assignedId (headRun s (evs.take i)).registry n]? = none →
    ∀ j, ∀ hj : j < evs.length, i < j → evs[j].isCheck →
      (∀ ev ∈ (evs.take j).drop (i + 1),
        ev.isHeartbeat (assignedId (headRun s (evs.take i)).registry n) = false) →
      evs[j].env.now - evs[i].env.now ≤ timeout * 10 ^ 9

instance (timeout : Int) (n : ClusterNode) (evs : List HeadEvent) :
    Decidable (Live timeout n evs) :=
  inferInstanceAs (Decidable (∀ j, ∀ _ : j < evs.length, _))

instance (timeout : Int) (s : ControlApi) (n : ClusterNode) (evs : List HeadEvent) :
    Decidable (TakenOver timeout s n evs) :=
  inferInstanceAs (Decidable (∀ i, ∀ _ : i < evs.length, _))

/-- All the calls of the unhealthy callback in a run. -/
def callbacks (s : ControlApi) : List HeadEvent → List (Int × ServerHealth)
  | [] => []
  | ev :: evs => (headStep s ev).1 ++ callbacks (headStep s ev).2 evs

/-- The head server as it starts, with its configured thresholds. -/
def freshHead (timeout maxMissed : Int) : ControlApi :=
  { health := { heartbeatTimeout := timeout, maxMissedHeartbeats := maxMissed } }

/-! ## Where a node's records come from -/

lemma lastHeartbeatOf_snoc (id : Int) (evs : List HeadEvent) (ev : HeadEvent) :
    lastHeartbeatOf id (evs ++ [ev]) =
      if ev.isHeartbeat id then some ev.env.now else lastHeartbeatOf id evs := by
  unfold lastHeartbeatOf
  by_cases h : ev.isHeartbeat id <;> simp [List.filter_append, h]

/-- The record under `k` was opened by a registration of `n` at time `t`, and no heartbeat under
`k` has come in since. -/
def OpenedAt (s : ControlApi) (n : ClusterNode) (evs : List HeadEvent) (k t : Int) : Prop :=
  ∃ pre reg post, evs = pre ++ reg :: post ∧ reg.IsRegistrationOf n ∧
    k = assignedId (headRun s pre).registry n ∧
    (headRun s pre).health.servers[k]? = none ∧
    (∀ ev ∈ post, ev.isHeartbeat k = false) ∧ t = reg.env.now

lemma OpenedAt.snoc {s : ControlApi} {n : ClusterNode} {evs : List HeadEvent} {k t : Int}
    (h : OpenedAt s n evs k t) {ev : HeadEvent} (hev : ev.isHeartbeat k = false) :
    OpenedAt s n (evs ++ [ev]) k t := by
  obtain ⟨pre, reg, post, rfl, hreg, hk, hnone, hpost, ht⟩ := h
  refine ⟨pre, reg, post ++ [ev], by simp, hreg, hk, hnone, fun x hx => ?_, ht⟩
  rcases List.mem_append.mp hx with hx | hx
  · exact hpost x hx
  · rw [List.mem_singleton.mp hx]; exact hev

/-- A record carrying the address of `n` dates from the last heartbeat of `n`, or from a
registration of `n` that nothing has refreshed. -/
def RecordsOf (s : ControlApi) (n : ClusterNode) (evs : List HeadEvent) : Prop :=
  ∀ (k : Int) r, (headRun s evs).health.servers[k]? = some r → r.ip = n.address →
    (k = n.serverId ∧ lastHeartbeatOf k evs = some r.lastHeartbeat) ∨
      OpenedAt s n evs k r.lastHeartbeat

/-- A record that the next event leaves as it is keeps its origin. -/
lemma RecordsOf.snoc_old {s : ControlApi} {n : ClusterNode} {evs : List HeadEvent}
    (h : RecordsOf s n evs) {k : Int} {r r' : ServerHealth}
    (hr : (headRun s evs).health.servers[k]? = some r) (hip : r.ip = n.address)
    (hlast : r'.lastHeartbeat = r.lastHeartbeat) {ev : HeadEvent}
    (hev : ev.isHeartbeat k = false) :
    (k = n.serverId ∧ lastHeartbeatOf k (evs ++ [ev]) = some r'.lastHeartbeat) ∨
      OpenedAt s n (evs ++ [ev]) k r'.lastHeartbeat := by
  rw [hlast]
  rcases h k r hr hip with ⟨hk, hu⟩ | hopen
  · exact Or.inl ⟨hk, by rw [lastHeartbeatOf_snoc, hev]; exact hu⟩
  · exact Or.inr (hopen.snoc hev)

/-- What an accepted or rejected self-registration of `n` does to the monitor. -/
lemma handleSelfRegister_health (env : ControlEnv) (s : ControlApi) {n : ClusterNode}
    {body : Bytes} (hn : n.Registers body) (hpos : 0 < n.serverId) :
    (s.handleSelfRegister env body).2.health = s.health ∨
      (s.handleSelfRegister env body).2.health =
        s.health.registerServer env.now (assignedId s.registry n) n.address := by
  obtain ⟨hid, hhost, hport⟩ := hn
  unfold ControlApi.handleSelfRegister
  simp only [hid, hhost, hport]
  split_ifs
  · exact Or.inl rfl
  · refine Or.inr ?_
    have hassigned : ((ControlApi.reserveId s.registry n.serverId).addServer n.host n.port
        (ControlApi.extractJsonInt body "transfer_port")
        (ControlApi.extractJsonInt body "public_port")).1 = assignedId s.registry n := by
      -- moving the counter does not change which entry is the duplicate
      have hdup : (ControlApi.reserveId s.registry n.serverId).findDuplicate n.host n.port =
          s.registry.findDuplicate n.host n.port := by
        simp only [ControlApi.reserveId, hpos, if_true, ServerRegistry.setNextId,
          ServerRegistry.findDuplicate]
      simp only [ServerRegistry.addServer, assignedId, hdup]
      cases s.registry.findDuplicate n.host n.port with
      | some p => rfl
      | none => simp only [ControlApi.reserveId, hpos, if_true, ServerRegistry.setNextId]
    rw [hassigned]
    rfl

/-- **Where the records of one node come from**, along every run of the nodes of a cluster. -/
theorem records_of_node (timeout maxMissed : Int) {nodes : List ClusterNode}
    (hroster : Roster nodes) {n : ClusterNode} (hn : n ∈ nodes) (evs : List HeadEvent)
    (hfrom : ∀ ev ∈ evs, ev.FromNodes nodes) : RecordsOf (freshHead timeout maxMissed) n evs := by
  -- induction on the run, its last event taken off
  induction evs using List.reverseRecOn with
  | nil =>
      intro k r hr
      simp [headRun, freshHead] at hr
  | append_singleton evs ev ih =>
      have ih := ih fun x hx => hfrom x (by simp [hx])
      have hev := hfrom ev (by simp)
      intro k r hr hip
      rw [headRun_snoc] at hr
      obtain ⟨env, op⟩ := ev
      cases op with
      | addServer body => exact hev.elim
      | removeServer id => exact hev.elim
      | checkHealth =>
          simp only [headStep, HealthMonitor.checkHealth_get, Option.map_eq_some_iff] at hr
          obtain ⟨r₀, hr₀, rfl⟩ := hr
          exact ih.snoc_old hr₀ (by simpa using hip) (by simp) rfl
      | heartbeat serverId health =>
          obtain ⟨m, hm, rfl, hmip⟩ := hev
          simp only [headStep, HealthMonitor.recordHeartbeat_get] at hr
          split_ifs at hr with hk
          · -- the heartbeat's own record: its sender is `n`, for no two nodes share an address
            cases hr
            have hmn : m = n := hroster.addresses m hm n hn (hmip.symm.trans hip)
            subst hmn hk
            left
            rw [lastHeartbeatOf_snoc]
            simp [HeadEvent.isHeartbeat]
          · exact ih.snoc_old hr hip rfl (by simpa [HeadEvent.isHeartbeat] using Ne.symm hk)
      | selfRegister body =>
          obtain ⟨m, hm, hreg⟩ := hev
          have hold : (headRun (freshHead timeout maxMissed) evs).health.servers[k]? = some r →
              (k = n.serverId ∧
                lastHeartbeatOf k (evs ++ [⟨env, .selfRegister body⟩]) = some r.lastHeartbeat) ∨
              OpenedAt _ n (evs ++ [⟨env, .selfRegister body⟩]) k r.lastHeartbeat :=
            fun h => ih.snoc_old h hip rfl rfl
          rcases handleSelfRegister_health env (headRun (freshHead timeout maxMissed) evs) hreg
            (hroster.pos m hm) with h | h
          · simp only [headStep, h] at hr
            exact hold hr
          · simp only [headStep, h, HealthMonitor.registerServer_get] at hr
            split_ifs at hr with hk
            · -- a new record: the node that registers is `n` itself
              cases hr
              have hmn : m = n := hroster.addresses m hm n hn hip
              subst hmn
              exact Or.inr ⟨evs, _, [], rfl, hreg, hk.1, hk.1 ▸ hk.2, by simp, rfl⟩
            · exact hold hr

/-! ## The callback -/

/-- A call of the callback is made by one of the run's health checks. -/
lemma mem_callbacks {s : ControlApi} {evs : List HeadEvent} {c : Int × ServerHealth}
    (hc : c ∈ callbacks s evs) :
    ∃ pre chk post, evs = pre ++ chk :: post ∧ chk.isCheck = true ∧
      c ∈ (headRun s pre).health.newlyUnhealthy chk.env.now := by
  induction evs generalizing s with
  | nil => simp [callbacks] at hc
  | cons ev evs ih =>
      rcases List.mem_append.mp hc with h | h
      · obtain ⟨env, op⟩ := ev
        cases op with
        | checkHealth => exact ⟨[], ⟨env, .checkHealth⟩, evs, rfl, rfl, h⟩
        | addServer _ => simp [headStep] at h
        | selfRegister _ => simp [headStep] at h
        | removeServer _ => simp [headStep] at h
        | heartbeat _ _ => simp [headStep] at h
      · obtain ⟨pre, chk, post, rfl, hchk, hmem⟩ := ih h
        exact ⟨ev :: pre, chk, post, rfl, hchk, hmem⟩

lemma headRun_heartbeatTimeout (s : ControlApi) (evs : List HeadEvent) :
    (headRun s evs).health.heartbeatTimeout = s.health.heartbeatTimeout := by
  induction evs using List.reverseRecOn with
  | nil => rfl
  | append_singleton evs ev ih =>
      rw [headRun_snoc, ← ih]
      obtain ⟨env, op⟩ := ev
      cases op with
      | addServer body =>
          simp only [headStep, ControlApi.handleAddServer]
          split_ifs
          · rfl
          · exact HealthMonitor.registerServer_heartbeatTimeout ..
      | selfRegister body =>
          simp only [headStep, ControlApi.handleSelfRegister]
          split_ifs
          · rfl
          · exact HealthMonitor.registerServer_heartbeatTimeout ..
      | removeServer _ => rfl
      | heartbeat _ _ => rfl
      | checkHealth => rfl

/-- **A live node is not turned over to failover**: in every run of the nodes of a cluster, if
the heartbeats of `n` are at most the timeout apart from each health check, and each record that a
registration of `n` opens is taken over by a heartbeat in time, then no health check calls the
unhealthy callback with the address of `n`. -/
theorem live_node_not_given_up {timeout maxMissed : Int} {nodes : List ClusterNode}
    (hroster : Roster nodes) {n : ClusterNode} (hn : n ∈ nodes) {evs : List HeadEvent}
    (hfrom : ∀ ev ∈ evs, ev.FromNodes nodes) (hlive : Live timeout n evs)
    (htaken : TakenOver timeout (freshHead timeout maxMissed) n evs) :
    ∀ c ∈ callbacks (freshHead timeout maxMissed) evs, c.2.ip ≠ n.address := by
  rintro ⟨k, h⟩ hc hip
  obtain ⟨pre, chk, post, rfl, hchk, hmem⟩ := mem_callbacks hc
  obtain ⟨r, hr, rfl, hstale⟩ := HealthMonitor.mem_newlyUnhealthy hmem
  rw [headRun_heartbeatTimeout] at hstale
  -- either way the record is at most the timeout old at the check, and so not stale
  refine absurd hstale (not_lt.mpr (elapsedSeconds_le ?_))
  change _ ≤ timeout * 10 ^ 9
  have hchk_at : pre.length < (pre ++ chk :: post).length := by simp
  have hrecords := records_of_node timeout maxMissed hroster hn pre
    fun ev hev => hfrom ev (by simp [hev])
  rcases hrecords k r hr (by simpa using hip) with
    ⟨hk, hu⟩ | ⟨a, reg, b, rfl, hreg, hk, hnone, hb, ht⟩
  · have := hlive pre.length hchk_at (by simpa using hchk) r.lastHeartbeat
      (by simpa [← hk] using hu)
    simpa using this
  · have hmid : ((a ++ reg :: b ++ chk :: post).take (a ++ reg :: b).length).drop (a.length + 1)
        = b := by
      rw [List.take_left, ← List.drop_drop, List.drop_left]
      rfl
    have := htaken a.length (by simp) (by simpa using hreg) (by simpa [← hk] using hnone)
      (a ++ reg :: b).length hchk_at (by simp) (by simpa using hchk)
      (by rw [hmid]; simpa [← hk] using hb)
    simpa [ht] using this

/-- The heartbeat of a node. -/
def heartbeatOf (n : ClusterNode) : HeadOp :=
  .heartbeat n.serverId { serverId := n.serverId, ip := n.address }

/-- The self-registration of a node. -/
def registrationOf (n : ClusterNode) : HeadOp :=
  .selfRegister (selfRegisterBody n.serverId n.host n.port 8180 8280)

def nodeOne : ClusterNode := { serverId := 1, host := ascii "10.0.0.1", port := 8080 }

def nodeTwo : ClusterNode := { serverId := 2, host := ascii "10.0.0.2", port := 8080 }

/-- The clock at `n` seconds. -/
def seconds (n : Int) : Int := n * 10 ^ 9

/-- Two nodes register and heartbeat; the first is given the identifier 2, and the second node's
heartbeats take that record over. -/
def takenOverRun : List HeadEvent :=
  [headEvent (seconds 1) (registrationOf nodeOne), headEvent (seconds 2) (heartbeatOf nodeOne),
   headEvent (seconds 3) (heartbeatOf nodeTwo), headEvent (seconds 60) (heartbeatOf nodeOne),
   headEvent (seconds 100) .checkHealth]

theorem live_node_not_given_up_instance :
    (callbacks (freshHead 60 1) takenOverRun).all (fun c => c.2.ip ≠ nodeOne.address) = true := by
  rw [List.all_eq_true]
  intro c hc
  exact decide_eq_true (@live_node_not_given_up 60 1 [nodeOne, nodeTwo]
    ⟨by decide, by decide, by decide⟩ nodeOne (by decide) takenOverRun (by decide +kernel)
    (by decide +kernel) (by decide +kernel) c hc)

/-- A single node, with `server_id` 1, registers and is given the identifier 2; it heartbeats
under 1, and the checks find the record under 2 without a heartbeat. -/
def abandonedRun : List HeadEvent :=
  [headEvent (seconds 1) (registrationOf nodeOne), headEvent (seconds 2) (heartbeatOf nodeOne),
   headEvent (seconds 60) (heartbeatOf nodeOne)]
    ++ List.replicate 10 (headEvent (seconds 70) .checkHealth)

/-- **A node that never misses a heartbeat is turned over to failover**, with the thresholds the
head server starts with. -/
theorem live_node_given_up :
    Roster [nodeOne] ∧ (∀ ev ∈ abandonedRun, ev.FromNodes [nodeOne]) ∧
      Live 60 nodeOne abandonedRun ∧
      (callbacks (freshHead 60 10) abandonedRun).map (fun c => (c.1, c.2.ip)) =
        [(2, nodeOne.address)] :=
  ⟨⟨by decide, by decide, by decide⟩, by decide +kernel, by decide +kernel, by decide +kernel⟩

end FileGrid
