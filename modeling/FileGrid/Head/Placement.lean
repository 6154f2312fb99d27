import FileGrid.Head.Upload

/-!
# Where the replicas of a chunk are placed

`select_servers_for_chunk` looks every address up among the health records twice, by different
rules: the *first* record that is about a server says whether it is healthy, the *last* one how full
its disk is.  The comparison that `std::sort` is given looks the records up again at every call; it
is the comparison of two numbers that depend on one server each, so it is a strict weak order
whatever the records are (`strictWeak_diskUsage`).

`SoundSelection` says what a selection is for, of any list of candidates and any measure of their
load, and **`selectServersForChunk_sound`** that the code's selection is one.
-/

namespace FileGrid

/-- A selection of `count` servers among the candidates: as many as there are, no server twice, and
the ones with the lowest disk usage. -/
structure SoundSelection (candidates : List Bytes) (diskUsage : Bytes → ℚ) (count : Int)
    (selected : List Bytes) : Prop where
  length : (selected.length : Int) = min (max count 0) candidates.length
  distinct : selected.Nodup
  subset : ∀ server ∈ selected, server ∈ candidates
  least : ∀ server ∈ selected, ∀ other ∈ candidates, other ∉ selected →
    ¬diskUsage other < diskUsage server

namespace UploadEnv

/-- The servers a chunk could go to: those of the registry, or the configured ones if the registry
has none. -/
def knownServers (env : UploadEnv) : List Bytes :=
  if env.registry.getAddresses = [] then env.clusterServers else env.registry.getAddresses

/-- A server that may be selected for its health: it has no health record, or its first one is that
of a healthy server. -/
def Eligible (env : UploadEnv) (server : Bytes) : Prop :=
  ∀ h, env.health.getAllHealth.find? (describes · server) = some h → h.isHealthy = true

lemma isCandidate_iff {env : UploadEnv} {server : Bytes} :
    env.isCandidate server = true ↔ env.Eligible server := by
  rw [isCandidate, Eligible]
  cases env.health.getAllHealth.find? (describes · server) with
  | none => simp
  | some h => simp

instance (env : UploadEnv) (server : Bytes) : Decidable (env.Eligible server) :=
  decidable_of_iff _ isCandidate_iff

/-- The candidates: the eligible servers, or all of them if none is eligible. -/
def candidates (env : UploadEnv) : List Bytes :=
  if env.knownServers.filter (fun server => env.Eligible server) = [] then env.knownServers
  else env.knownServers.filter fun server => env.Eligible server

/-- Two servers are compared by one number each. -/
lemma strictWeak_diskUsage (env : UploadEnv) :
    StrictWeak fun a b => decide (env.diskUsage a < env.diskUsage b) where
  asymm := by
    intro a b hab
    simp only [decide_eq_true_eq, decide_eq_false_iff_not, not_lt] at hab ⊢
    exact hab.le
  negTrans := by
    intro a b c hab hbc
    simp only [decide_eq_false_iff_not, not_lt] at hab hbc ⊢
    exact hbc.trans hab

lemma selectServersForChunk_eq (env : UploadEnv) :
    env.selectServersForChunk =
      (env.sort.sort (fun a b => env.diskUsage a < env.diskUsage b) env.candidates).take
        env.replicationFactor.toNat := by
  have hfilter : env.knownServers.filter (fun server => env.Eligible server) =
      env.knownServers.filter env.isCandidate := by
    refine List.filter_congr fun server _ => ?_
    rw [Bool.eq_iff_iff, decide_eq_true_eq, isCandidate_iff]
  rw [selectServersForChunk, candidates, hfilter]
  simp only [ne_eq, ite_not]
  rfl

/-- No address is configured twice by default. -/
lemma nodup_clusterServers {env : UploadEnv} (h : env.configured.Nodup) :
    env.clusterServers.Nodup := by
  rw [clusterServers]
  split_ifs
  · decide
  · exact h

lemma nodup_candidates {env : UploadEnv} (hregistered : env.registry.getAddresses.Nodup)
    (hconfigured : env.configured.Nodup) : env.candidates.Nodup := by
  have hknown : env.knownServers.Nodup := by
    rw [knownServers]
    split_ifs
    · exact nodup_clusterServers hconfigured
    · exact hregistered
  rw [candidates]
  split_ifs
  · exact hknown
  · exact hknown.filter _

/-- **Replicas are placed on the candidates with the most room**, on as many as were asked for. -/
theorem selectServersForChunk_sound (env : UploadEnv)
    (hregistered : env.registry.getAddresses.Nodup) (hconfigured : env.configured.Nodup) :
    SoundSelection env.candidates env.diskUsage env.replicationFactor
      env.selectServersForChunk := by
  have hperm := env.sort.perm (fun a b => env.diskUsage a < env.diskUsage b) env.candidates
  rw [selectServersForChunk_eq]
  constructor
  · rw [List.length_take, hperm.length_eq]
    omega
  · exact (hperm.nodup_iff.mpr (nodup_candidates hregistered hconfigured)).sublist
      (List.take_sublist _ _)
  · intro server hserver
    exact env.sort.mem_sort.mp (List.mem_of_mem_take hserver)
  · intro server hserver other hother hout
    have hleast := env.sort.least_of_mem_take env.strictWeak_diskUsage hserver hother hout
    simpa using hleast

/-- Two servers of a registry, the second of which has more room and reports under its host. -/
def twoServers : UploadEnv where
  registry :=
    { servers := ((∅ : Map Int ServerEntry).insert 1
          { id := 1, host := ascii "10.0.0.1", port := 8080 }).insert 2
        { id := 2, host := ascii "10.0.0.2", port := 8080 }
      nextId := 3 }
  health :=
    { servers := ((∅ : Map Int ServerHealth).insert 1
          { serverId := 1, ip := ascii "10.0.0.1:8080", diskUsage := 80 }).insert 2
        { serverId := 2, ip := ascii "10.0.0.2", diskUsage := 20 } }
  replicationFactor := 1

/-- One replica goes to the server with more room. -/
theorem selectServersForChunk_sound_two :
    SoundSelection [ascii "10.0.0.1:8080", ascii "10.0.0.2:8080"] twoServers.diskUsage 1
      [ascii "10.0.0.2:8080"] := by
  have hsound := selectServersForChunk_sound twoServers (by decide +kernel) (by decide +kernel)
  have hcandidates : twoServers.candidates = [ascii "10.0.0.1:8080", ascii "10.0.0.2:8080"] := by
    decide +kernel
  have hselected : twoServers.selectServersForChunk = [ascii "10.0.0.2:8080"] := by
    decide +kernel
  rwa [hcandidates, hselected] at hsound

end UploadEnv

end FileGrid
