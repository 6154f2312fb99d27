import FileGrid.Failover.Rereplicate
import FileGrid.Head.Liveness
import FileGrid.Head.Placement

/-!
# Who is healthy, to an upload and to a failover

Two functions go through the health records and decide which registered servers may be given a
chunk.  `select_servers_for_chunk` stops at the *first* record of a server and asks whether it is
healthy; `rereplicate_dead_server_chunks` asks whether *any* record of it is unhealthy.

The two agree as long as a server has one record.  But a node that registers itself is recorded
under the identifier of the registry, and it heartbeats under its own; so most nodes have two, and
only one of them stays fresh.

* `mem_healthyCandidates_iff`, `mem_healthyServers_iff` — the two scans in terms of the records, the
  first by the smallest identifier.
* **`upload_failover_agree_iff`** — they agree on an address exactly if its records do, or the one
  under the smallest identifier is unhealthy.
* `upload_failover_disagree` — the head's own bookkeeping makes them disagree on a live node.
-/

namespace FileGrid

open UploadEnv (describes)

/-! ## The two scans -/

/-- `healthy_servers` of `select_servers_for_chunk`. -/
def UploadEnv.healthyCandidates (env : UploadEnv) : List Bytes :=
  env.knownServers.filter env.isCandidate

namespace HealthMonitor

/-- The record under the smallest identifier, of all that are about this server. -/
def IsFirstRecord (m : HealthMonitor) (srv : Bytes) (id : Int) (h : ServerHealth) : Prop :=
  m.servers[id]? = some h ∧ describes h srv = true ∧
    ∀ (id' : Int) (h' : ServerHealth), id' < id → m.servers[id']? = some h' →
      describes h' srv = false

/-- If a record about the server is unhealthy, then the first one is. -/
def FirstRecordDecides (m : HealthMonitor) (srv : Bytes) : Prop :=
  (∃ (id : Int) (h : ServerHealth), m.servers[id]? = some h ∧ describes h srv = true ∧
      h.isHealthy = false) →
    ∃ (id : Int) (h : ServerHealth), m.IsFirstRecord srv id h ∧ h.isHealthy = false

lemma find_getAllHealth_iff {m : HealthMonitor} {srv : Bytes} {h : ServerHealth} :
    m.getAllHealth.find? (describes · srv) = some h ↔ ∃ id, m.IsFirstRecord srv id h := by
  rw [getAllHealth, Map.find_values_eq_some_iff]
  constructor
  · rintro ⟨hdescribes, id, hget, hfirst⟩
    refine ⟨id, hget, hdescribes, fun id' h' hlt => ?_⟩
    exact hfirst id' h' (compare_lt_iff_lt.mpr hlt)
  · rintro ⟨id, hget, hdescribes, hfirst⟩
    refine ⟨hdescribes, id, hget, fun id' h' hlt => ?_⟩
    exact hfirst id' h' (compare_lt_iff_lt.mp hlt)

end HealthMonitor

/-- To an upload a server is healthy unless its first record is unhealthy. -/
lemma mem_healthyCandidates_iff {env : UploadEnv} {srv : Bytes}
    (hreg : srv ∈ env.registry.getAddresses) :
    srv ∈ env.healthyCandidates ↔
      ¬∃ (id : Int) (h : ServerHealth), env.health.IsFirstRecord srv id h ∧
        h.isHealthy = false := by
  have hknown : srv ∈ env.knownServers := by
    rw [UploadEnv.knownServers, if_neg (List.ne_nil_of_mem hreg)]
    exact hreg
  rw [UploadEnv.healthyCandidates, List.mem_filter, UploadEnv.isCandidate_iff, UploadEnv.Eligible]
  constructor
  · rintro ⟨-, heligible⟩ ⟨id, h, hfirst, hunhealthy⟩
    have hhealthy := heligible h (HealthMonitor.find_getAllHealth_iff.mpr ⟨id, hfirst⟩)
    rw [hunhealthy] at hhealthy
    exact Bool.noConfusion hhealthy
  · refine fun hnone => ⟨hknown, fun h hfind => ?_⟩
    obtain ⟨id, hfirst⟩ := HealthMonitor.find_getAllHealth_iff.mp hfind
    by_contra hunhealthy
    exact hnone ⟨id, h, hfirst, by simpa using hunhealthy⟩

/-- To a failover it is healthy unless any record of it is unhealthy. -/
lemma mem_healthyServers_iff {registry : ServerRegistry} {health : HealthMonitor}
    {dead srv : Bytes} (hreg : srv ∈ registry.getAddresses) (hne : srv ≠ dead) :
    srv ∈ healthyServers registry health dead ↔
      ¬∃ (id : Int) (h : ServerHealth), health.servers[id]? = some h ∧
        describes h srv = true ∧ h.isHealthy = false := by
  rw [healthyServers, List.mem_filter, decide_eq_true_eq, List.any_eq_true]
  constructor
  · rintro ⟨-, -, hnone⟩ ⟨id, h, hget, hdescribes, hunhealthy⟩
    refine hnone ⟨h, List.mem_map.mpr ⟨(id, h), Map.mem_toList.mpr hget, rfl⟩, ?_⟩
    rw [describes, decide_eq_true_eq] at hdescribes
    simpa [hunhealthy] using hdescribes.symm
  · refine fun hnone => ⟨hreg, hne, ?_⟩
    rintro ⟨h, hmem, hmatch⟩
    obtain ⟨⟨id, h'⟩, hentry, rfl⟩ := List.mem_map.mp hmem
    rw [decide_eq_true_eq] at hmatch
    refine hnone ⟨id, h', Map.mem_toList.mp hentry, ?_, by simpa using hmatch.2⟩
    rw [describes, decide_eq_true_eq]
    exact hmatch.1.symm

/-! ## Agreement -/

/-- An upload under the registry and the health records of the head. -/
def UploadEnv.under (env : UploadEnv) (s : ControlApi) : UploadEnv :=
  { env with registry := s.registry, health := s.health }

/-- **When an upload and a failover agree on who is healthy**: in every state of the head that
registrations, heartbeats and health checks lead to, and for every registered address but the dead
one. -/
theorem upload_failover_agree_iff (timeout maxMissed : Int) (evs : List HeadEvent)
    (env : UploadEnv) (dead srv : Bytes)
    (hreg : srv ∈ (headRun (freshHead timeout maxMissed) evs).registry.getAddresses)
    (hne : srv ≠ dead) :
    (srv ∈ (env.under (headRun (freshHead timeout maxMissed) evs)).healthyCandidates ↔
        srv ∈ healthyServers (headRun (freshHead timeout maxMissed) evs).registry
          (headRun (freshHead timeout maxMissed) evs).health dead) ↔
      (headRun (freshHead timeout maxMissed) evs).health.FirstRecordDecides srv := by
  generalize headRun (freshHead timeout maxMissed) evs = s at hreg ⊢
  have hupload : srv ∈ (env.under s).healthyCandidates ↔
      ¬∃ (id : Int) (h : ServerHealth), s.health.IsFirstRecord srv id h ∧ h.isHealthy = false :=
    @mem_healthyCandidates_iff (env.under s) srv hreg
  rw [hupload, mem_healthyServers_iff hreg hne, not_iff_not]
  constructor
  · exact fun hiff hany => hiff.mpr hany
  · refine fun hdecides => ⟨?_, hdecides⟩
    rintro ⟨id, h, ⟨hget, hdescribes, -⟩, hunhealthy⟩
    exact ⟨id, h, hget, hdescribes, hunhealthy⟩

/-- The first node has registered and sent a heartbeat, under two identifiers. -/
def registeredRun : List HeadEvent :=
  [headEvent (seconds 1) (registrationOf nodeOne), headEvent (seconds 2) (heartbeatOf nodeOne)]

/-- While both records are fresh, both functions count the node. -/
theorem upload_failover_agree_fresh :
    let s := headRun (freshHead 60 10) registeredRun
    nodeOne.address ∈ (UploadEnv.under { registry := s.registry } s).healthyCandidates ↔
      nodeOne.address ∈ healthyServers s.registry s.health nodeTwo.address := by
  refine (upload_failover_agree_iff 60 10 registeredRun _ nodeTwo.address nodeOne.address
    (by decide +kernel) (by decide +kernel)).mpr ?_
  rintro ⟨id, h, hget, -, hunhealthy⟩
  have hall : (headRun (freshHead 60 10) registeredRun).health.getAllHealth.all (·.isHealthy) =
      true := by decide +kernel
  have hhealthy := List.all_eq_true.mp hall h
    (List.mem_map.mpr ⟨(id, h), Map.mem_toList.mpr hget, rfl⟩)
  rw [hunhealthy] at hhealthy
  exact Bool.noConfusion hhealthy

/-- **A live node is a target of uploads and none of failovers.**  Its record under its own
identifier, 1, is fresh; the one that its registration made, under 2, was given up. -/
theorem upload_failover_disagree :
    let s := headRun (freshHead 60 10) abandonedRun
    let env : UploadEnv := { registry := s.registry, health := s.health }
    nodeOne.address ∈ s.registry.getAddresses ∧ nodeOne.address ∈ env.healthyCandidates ∧
      nodeOne.address ∉ healthyServers s.registry s.health nodeTwo.address := by
  decide +kernel

end FileGrid
