import FileGrid.Common.HealthMonitor
import FileGrid.Common.NetUtils
import FileGrid.Metadata.Store

/-!
# Failover of a dead server

`rereplicate_dead_server_chunks`: for every chunk with a replica on the dead server, copy the chunk
from a surviving server to a healthy one that does not host it yet; then put the new records in the
dead server's place and purge the dead server from the metadata.

The function is generic in the copying itself, `copy`, which acts on a state of its own and
returns the path of the new replica if it succeeds.  What is copied where does not depend on how
earlier copies went, because the metadata is only written at the end: `rereplicateLoop_eq` splits
the nested loops of the source into a `plan` and its execution.  The result every later argument
starts from is **`placements_rereplicate`**: a file keeps its records on other servers and gains
one for each copy that succeeded.
-/

namespace FileGrid

/-! ## The code -/

/-- The candidates for new replicas: the registered servers, other than the dead one, that no
health record reports unhealthy. -/
def healthyServers (registry : ServerRegistry) (health : HealthMonitor) (deadServer : Bytes) :
    List Bytes :=
  registry.getAddresses.filter fun srv =>
    srv ≠ deadServer ∧
      ¬ health.getAllHealth.any fun h =>
        (h.ip = srv ∨ h.ip = (parseAddress srv).1) ∧ ¬ h.isHealthy

/-- `chunk_map`: the records of a file by chunk. -/
def chunkMap (chunks : List ChunkRecord) : Map Int (List ChunkRecord) :=
  Map.groupBy (·.chunkId) chunks

/-- What the loop over the records of one chunk finds out. -/
structure ChunkScan where
  hasDeadReplica : Bool := false
  survivingSourceServer : Bytes := []
  survivingSourcePath : Bytes := []
  deadChecksum : Bytes := []

def scanRecord (deadServer : Bytes) (s : ChunkScan) (r : ChunkRecord) : ChunkScan :=
  if r.server = deadServer then
    { s with hasDeadReplica := true, deadChecksum := r.checksum }
  else if s.survivingSourceServer = [] then
    { s with survivingSourceServer := r.server, survivingSourcePath := r.path }
  else s

def scanRecords (deadServer : Bytes) (records : List ChunkRecord) : ChunkScan :=
  records.foldl (scanRecord deadServer) {}

/-- The first healthy server that does not host the chunk; the empty string if there is none. -/
def pickTarget (healthy : List Bytes) (records : List ChunkRecord) : Bytes :=
  (healthy.find? fun cand => ¬ records.any (·.server = cand)).getD []

/-- One copy to be made: the arguments of `replicate_chunk_to_server`, and what the new record
takes from the records of the chunk. -/
structure Job where
  filename : Bytes
  chunkId : Int
  source : Bytes
  sourcePath : Bytes
  target : Bytes
  checksum : Bytes
  replicaCount : Int
deriving DecidableEq

/-- The decisions of the loop body, up to the copy; `none` is one of its `continue`s. -/
def jobOf (deadServer : Bytes) (healthy : List Bytes) (filename : Bytes) (cid : Int)
    (records : List ChunkRecord) : Option Job :=
  let s := scanRecords deadServer records
  if s.hasDeadReplica = false then none
  else if s.survivingSourceServer = [] then none
  else
    let target := pickTarget healthy records
    if target = [] then none
    else
      some
        { filename, chunkId := cid, source := s.survivingSourceServer
          sourcePath := s.survivingSourcePath, target, checksum := s.deadChecksum
          replicaCount := records.length }

/-- `rep_record`.  A copy that reports no path is recorded under a conventional one. -/
def Job.record (job : Job) (newFilePath : Bytes) : ChunkRecord :=
  { chunkId := job.chunkId
    server := job.target
    path :=
      if newFilePath ≠ [] then newFilePath
      else ascii "/tmp/chunks/" ++ job.target ++ ascii "_" ++ job.filename ++ ascii "_chunk_"
        ++ dec job.chunkId
    checksum := job.checksum
    replicaCount := job.replicaCount }

section

variable {σ : Type} (copy : σ → Job → σ × Option Bytes)

/-- The copy, and its record in `file_chunks_to_update` if it succeeds. -/
def execJob (acc : σ × Map Bytes (List ChunkRecord)) (job : Job) :
    σ × Map Bytes (List ChunkRecord) :=
  match copy acc.1 job with
  | (s, none) => (s, acc.2)
  | (s, some newFilePath) =>
      (s, acc.2.insert job.filename
        ((acc.2[job.filename]?).getD [] ++ [job.record newFilePath]))

/-- The body of the loop over the chunks of a file. -/
def chunkStep (deadServer : Bytes) (healthy : List Bytes) (filename : Bytes)
    (acc : σ × Map Bytes (List ChunkRecord)) (p : Int × List ChunkRecord) :
    σ × Map Bytes (List ChunkRecord) :=
  match jobOf deadServer healthy filename p.1 p.2 with
  | none => acc
  | some job => execJob copy acc job

/-- The body of the loop over the files. -/
def fileStep (m : MetadataMap) (deadServer : Bytes) (healthy : List Bytes)
    (acc : σ × Map Bytes (List ChunkRecord)) (filename : Bytes) :
    σ × Map Bytes (List ChunkRecord) :=
  let fileRec := m.queryMetadata filename
  if fileRec.chunks = [] then acc
  else (chunkMap fileRec.chunks).toList.foldl (chunkStep copy deadServer healthy filename) acc

/-- `rereplicate_dead_server_chunks`: the state the copies leave, and the metadata afterwards. -/
def rereplicateDeadServerChunks (registry : ServerRegistry) (health : HealthMonitor)
    (deadServer : Bytes) (s : σ) (m : MetadataMap) : σ × MetadataMap :=
  let allFiles := m.listAllFiles
  if allFiles = [] then (s, m.deleteServerMetadata deadServer)
  else
    let healthy := healthyServers registry health deadServer
    if healthy = [] then (s, m)
    else
      let (s', updates) := allFiles.foldl (fileStep copy m deadServer healthy) (s, ∅)
      let m' :=
        if updates.isEmpty then m else m.atomicReplaceServerChunks deadServer updates
      (s', m'.deleteServerMetadata deadServer)

end

/-! ## The plan and its execution -/

/-- The copies a failover makes, in order, over any store of metadata: the files that are listed,
and what a query of each shows. -/
def planOver (files : List Bytes) (query : Bytes → FileRecord) (deadServer : Bytes)
    (healthy : List Bytes) : List Job :=
  files.flatMap fun filename =>
    (chunkMap (query filename).chunks).toList.filterMap fun p =>
      jobOf deadServer healthy filename p.1 p.2

/-- The copies a failover makes, with the on-disk backend. -/
def plan (m : MetadataMap) (deadServer : Bytes) (healthy : List Bytes) : List Job :=
  planOver m.listAllFiles m.queryMetadata deadServer healthy

section

variable {σ : Type} (copy : σ → Job → σ × Option Bytes)

/-- The copies that succeed, with the paths they report. -/
def copies : σ → List Job → List (Job × Bytes)
  | _, [] => []
  | s, job :: jobs =>
      match copy s job with
      | (s', none) => copies s' jobs
      | (s', some newFilePath) => (job, newFilePath) :: copies s' jobs

/-- The records a failover adds to a file. -/
def addedTo (done : List (Job × Bytes)) (f : Bytes) : List ChunkRecord :=
  (done.filter (·.1.filename = f)).map fun p => p.1.record p.2

lemma foldl_chunkStep (dead : Bytes) (healthy : List Bytes) (f : Bytes)
    (ps : List (Int × List ChunkRecord)) (acc : σ × Map Bytes (List ChunkRecord)) :
    ps.foldl (chunkStep copy dead healthy f) acc =
      (ps.filterMap fun p => jobOf dead healthy f p.1 p.2).foldl (execJob copy) acc := by
  induction ps generalizing acc with
  | nil => rfl
  | cons p ps ih =>
      rw [List.foldl_cons, ih]
      cases hjob : jobOf dead healthy f p.1 p.2 with
      | none => simp only [chunkStep, hjob, List.filterMap_cons]
      | some job => simp only [chunkStep, hjob, List.filterMap_cons, List.foldl_cons]

/-- **The loops of the source execute the plan.** -/
theorem rereplicateLoop_eq (m : MetadataMap) (dead : Bytes) (healthy : List Bytes)
    (acc : σ × Map Bytes (List ChunkRecord)) :
    m.listAllFiles.foldl (fileStep copy m dead healthy) acc =
      (plan m dead healthy).foldl (execJob copy) acc := by
  unfold plan planOver
  generalize m.listAllFiles = files
  induction files generalizing acc with
  | nil => rfl
  | cons f files ih =>
      rw [List.foldl_cons, ih, List.flatMap_cons, List.foldl_append, ← foldl_chunkStep copy]
      congr 1
      unfold fileStep
      dsimp only
      split_ifs with hnil
      · rw [hnil]; rfl
      · rfl

lemma get_foldl_execJob (jobs : List Job) (s : σ) (us : Map Bytes (List ChunkRecord))
    (f : Bytes) :
    (jobs.foldl (execJob copy) (s, us)).2[f]? =
      if addedTo (copies copy s jobs) f = [] then us[f]?
      else some ((us[f]?).getD [] ++ addedTo (copies copy s jobs) f) := by
  induction jobs generalizing s us with
  | nil => simp [copies, addedTo]
  | cons job jobs ih =>
      rw [List.foldl_cons]
      cases hcopy : copy s job with
      | mk s' result =>
          cases result with
          | none =>
              have hexec : execJob copy (s, us) job = (s', us) := by simp [execJob, hcopy]
              rw [hexec, ih]
              simp only [copies, hcopy]
          | some path =>
              have hexec : execJob copy (s, us) job =
                  (s', us.insert job.filename
                    ((us[job.filename]?).getD [] ++ [job.record path])) := by
                simp [execJob, hcopy]
              rw [hexec, ih]
              simp only [copies, hcopy]
              by_cases hf : job.filename = f
              · subst hf
                by_cases hnil : addedTo (copies copy s' jobs) job.filename = []
                · simp only [addedTo] at hnil ⊢
                  simp [hnil]
                · simp only [addedTo] at hnil ⊢
                  simp [hnil]
              · have hadd : addedTo ((job, path) :: copies copy s' jobs) f =
                    addedTo (copies copy s' jobs) f := by
                  simp [addedTo, hf]
                rw [hadd]
                simp [Ne.symm hf]

end

/-! ## One chunk -/

/-- The replica a chunk is copied from: the first record on a named server other than the dead
one. -/
def firstSurvivor (deadServer : Bytes) (records : List ChunkRecord) : Option ChunkRecord :=
  records.find? fun r => r.server ≠ deadServer ∧ r.server ≠ []

/-- The checksum the new record gets: that of the last record on the dead server. -/
def lastDeadChecksum (deadServer : Bytes) (records : List ChunkRecord) : Bytes :=
  ((records.filter (·.server = deadServer)).getLast?.map (·.checksum)).getD []

lemma scanRecords_snoc (dead : Bytes) (records : List ChunkRecord) (r : ChunkRecord) :
    scanRecords dead (records ++ [r]) = scanRecord dead (scanRecords dead records) r := by
  simp [scanRecords]

lemma scanRecords_hasDeadReplica (dead : Bytes) (records : List ChunkRecord) :
    (scanRecords dead records).hasDeadReplica = records.any (·.server = dead) := by
  induction records using List.reverseRecOn with
  | nil => rfl
  | append_singleton records r ih =>
      rw [scanRecords_snoc]
      by_cases hr : r.server = dead
      · simp [scanRecord, hr]
      · by_cases hs : (scanRecords dead records).survivingSourceServer = [] <;>
          simp [scanRecord, hr, hs, ih]

lemma scanRecords_deadChecksum (dead : Bytes) (records : List ChunkRecord) :
    (scanRecords dead records).deadChecksum = lastDeadChecksum dead records := by
  unfold lastDeadChecksum
  induction records using List.reverseRecOn with
  | nil => rfl
  | append_singleton records r ih =>
      rw [scanRecords_snoc]
      by_cases hr : r.server = dead
      · simp [scanRecord, hr, List.filter_append]
      · by_cases hs : (scanRecords dead records).survivingSourceServer = [] <;>
          simp [scanRecord, hr, hs, ih, List.filter_append]

lemma scanRecords_source (dead : Bytes) (records : List ChunkRecord) :
    match firstSurvivor dead records with
    | some r => (scanRecords dead records).survivingSourceServer = r.server ∧
        (scanRecords dead records).survivingSourcePath = r.path
    | none => (scanRecords dead records).survivingSourceServer = [] := by
  unfold firstSurvivor
  induction records using List.reverseRecOn with
  | nil => rfl
  | append_singleton records r ih =>
      rw [scanRecords_snoc, List.find?_append]
      cases hfirst : records.find? (fun r => r.server ≠ dead ∧ r.server ≠ []) with
      | some r₀ =>
          -- the source is settled, and a later record does not change it
          rw [hfirst] at ih
          have hne : r₀.server ≠ [] := by
            have := List.find?_some hfirst
            simp only [Bool.decide_and, Bool.and_eq_true, decide_eq_true_eq] at this
            exact this.2
          by_cases hr : r.server = dead
          · simpa [scanRecord, hr] using ih
          · have : (scanRecords dead records).survivingSourceServer ≠ [] := by
              rw [ih.1]; exact hne
            simpa [scanRecord, hr, this] using ih
      | none =>
          rw [hfirst] at ih
          by_cases hr : r.server = dead
          · simpa [scanRecord, hr] using ih
          · by_cases hnil : r.server = []
            · have hdead : dead ≠ [] := fun h => hr (hnil.trans h.symm)
              simp [scanRecord, hnil, hdead, ih]
            · simp [scanRecord, hr, hnil, ih]

/-- **What a planned copy is**: the chunk has a record on the dead server, the source is its first
survivor, and the target is a healthy server that does not host it. -/
structure JobSpec (dead : Bytes) (healthy : List Bytes) (f : Bytes) (c : Int)
    (records : List ChunkRecord) (job : Job) : Prop where
  filename : job.filename = f
  chunkId : job.chunkId = c
  dead_record : ∃ r ∈ records, r.server = dead
  source : ∃ r, firstSurvivor dead records = some r ∧ job.source = r.server ∧
    job.sourcePath = r.path
  target_healthy : job.target ∈ healthy
  target_new : ∀ r ∈ records, r.server ≠ job.target
  checksum : job.checksum = lastDeadChecksum dead records

lemma pickTarget_spec {healthy : List Bytes} {records : List ChunkRecord}
    (h : pickTarget healthy records ≠ []) :
    pickTarget healthy records ∈ healthy ∧
      ∀ r ∈ records, r.server ≠ pickTarget healthy records := by
  unfold pickTarget at h ⊢
  cases hfind : healthy.find? (fun cand => ¬ records.any (·.server = cand)) with
  | none =>
      rw [hfind] at h
      exact absurd rfl h
  | some cand =>
      have hmem := List.mem_of_find?_eq_some hfind
      have hnew := List.find?_some hfind
      refine ⟨hmem, fun r hr => ?_⟩
      simp only [List.any_eq_true, decide_eq_true_eq, not_exists, not_and] at hnew
      exact hnew r hr

lemma jobOf_spec {dead : Bytes} {healthy : List Bytes} {f : Bytes} {c : Int}
    {records : List ChunkRecord} {job : Job} (h : jobOf dead healthy f c records = some job) :
    JobSpec dead healthy f c records job := by
  unfold jobOf at h
  dsimp only at h
  split_ifs at h with hdead hsource htarget
  cases h
  obtain ⟨hmem, hnew⟩ := pickTarget_spec htarget
  refine ⟨rfl, rfl, ?_, ?_, hmem, hnew, scanRecords_deadChecksum dead records⟩
  · rw [scanRecords_hasDeadReplica] at hdead
    simpa using hdead
  · have hsrc := scanRecords_source dead records
    cases hfirst : firstSurvivor dead records with
    | none =>
        rw [hfirst] at hsrc
        exact absurd hsrc hsource
    | some r =>
        rw [hfirst] at hsrc
        exact ⟨r, rfl, hsrc⟩

/-- The count of the new record is the number of records that there are, the dead server's among
them; and the target has a name. -/
lemma jobOf_count {dead : Bytes} {healthy : List Bytes} {f : Bytes} {c : Int}
    {records : List ChunkRecord} {job : Job} (h : jobOf dead healthy f c records = some job) :
    job.replicaCount = records.length ∧ job.target ≠ [] := by
  unfold jobOf at h
  dsimp only at h
  split_ifs at h with hdead hsource htarget
  cases h
  exact ⟨rfl, htarget⟩

/-- A chunk with a record on the dead server, one on a named other server, and a healthy server
that does not host it, is planned for. -/
lemma jobOf_isSome {dead : Bytes} {healthy : List Bytes} {f : Bytes} {c : Int}
    {records : List ChunkRecord} (hdead : ∃ r ∈ records, r.server = dead)
    (hsurvivor : ∃ r ∈ records, r.server ≠ dead ∧ r.server ≠ [])
    (htarget : ∃ t ∈ healthy, ∀ r ∈ records, r.server ≠ t) (hnamed : ∀ t ∈ healthy, t ≠ []) :
    (jobOf dead healthy f c records).isSome := by
  have hd : (scanRecords dead records).hasDeadReplica = true := by
    rw [scanRecords_hasDeadReplica]
    simpa using hdead
  have hs : (scanRecords dead records).survivingSourceServer ≠ [] := by
    have hsrc := scanRecords_source dead records
    cases hfirst : firstSurvivor dead records with
    | none =>
        obtain ⟨r, hr, hne⟩ := hsurvivor
        have := List.find?_eq_none.mp hfirst r hr
        simp [hne] at this
    | some r =>
        rw [hfirst] at hsrc
        have := List.find?_some hfirst
        simp only [Bool.decide_and, Bool.and_eq_true, decide_eq_true_eq] at this
        rw [hsrc.1]
        exact this.2
  have ht : pickTarget healthy records ≠ [] := by
    unfold pickTarget
    cases hfind : healthy.find? (fun cand => ¬ records.any (·.server = cand)) with
    | none =>
        obtain ⟨t, ht, hnew⟩ := htarget
        have := List.find?_eq_none.mp hfind t ht
        simp only [List.any_eq_true, decide_eq_true_eq, not_exists, not_and] at this
        exact absurd (fun r hr => hnew r hr) (by simpa using this)
    | some cand => exact hnamed cand (List.mem_of_find?_eq_some hfind)
  simp [jobOf, hd, hs, ht]

/-! ## The whole plan -/

/-- The records of one chunk of a file. -/
def recordsOf (m : MetadataMap) (f : Bytes) (c : Int) : List ChunkRecord :=
  (m.getChunks f).chunks.filter (·.chunkId = c)

/-- A job is planned when its file is listed and its chunk calls for it. -/
lemma mem_planOver {files : List Bytes} {query : Bytes → FileRecord} {dead : Bytes}
    {healthy : List Bytes} {job : Job} :
    job ∈ planOver files query dead healthy ↔ job.filename ∈ files ∧
      jobOf dead healthy job.filename job.chunkId
        ((query job.filename).chunks.filter (·.chunkId = job.chunkId)) = some job := by
  simp only [planOver, List.mem_flatMap, List.mem_filterMap, Prod.exists, chunkMap,
    Map.mem_toList_groupBy]
  constructor
  · rintro ⟨f, hf, c, records, ⟨rfl, -⟩, hjob⟩
    rw [(jobOf_spec hjob).filename, (jobOf_spec hjob).chunkId]
    exact ⟨hf, hjob⟩
  · rintro ⟨hf, hjob⟩
    obtain ⟨r, hr, -⟩ := (jobOf_spec hjob).dead_record
    exact ⟨job.filename, hf, job.chunkId, _, ⟨rfl, List.ne_nil_of_mem hr⟩, hjob⟩

lemma nodup_planOver {files : List Bytes} (hfiles : files.Nodup) (query : Bytes → FileRecord)
    (dead : Bytes) (healthy : List Bytes) :
    ((planOver files query dead healthy).map fun j => (j.filename, j.chunkId)).Nodup := by
  rw [List.Nodup, List.pairwise_map, planOver, List.pairwise_flatMap]
  constructor
  · intro f _
    -- within a file, the chunks are visited once each
    rw [List.pairwise_filterMap]
    have hkeys := Map.nodup_keys_toList (chunkMap (query f).chunks)
    rw [List.Nodup, List.pairwise_map] at hkeys
    refine hkeys.imp ?_
    intro p q hpq j hj k hk heq
    exact hpq (((jobOf_spec hj).chunkId).symm.trans
      ((Prod.mk.inj heq).2.trans (jobOf_spec hk).chunkId))
  · -- and the files are visited once each
    refine hfiles.imp ?_
    intro f g hfg j hj k hk heq
    simp only [List.mem_filterMap] at hj hk
    obtain ⟨p, -, hj⟩ := hj
    obtain ⟨q, -, hk⟩ := hk
    exact hfg (((jobOf_spec hj).filename).symm.trans
      ((Prod.mk.inj heq).1.trans (jobOf_spec hk).filename))

/-- The same of the plan; the file without a name shows no chunks. -/
lemma mem_plan {m : MetadataMap} {dead : Bytes} {healthy : List Bytes} {job : Job} :
    job ∈ plan m dead healthy ↔ (m[job.filename]?).isSome ∧ job.filename ≠ [] ∧
      jobOf dead healthy job.filename job.chunkId (recordsOf m job.filename job.chunkId) =
        some job := by
  rw [plan, mem_planOver, MetadataMap.mem_listAllFiles, MetadataMap.queryMetadata]
  refine and_congr_right fun _ => ?_
  split_ifs with hnil
  · refine iff_of_false ?_ fun h => h.1 hnil
    intro hjob
    obtain ⟨r, hr, -⟩ := (jobOf_spec hjob).dead_record
    simp at hr
  · simp only [ne_eq, hnil, not_false_eq_true, true_and, recordsOf]

lemma nodup_plan (m : MetadataMap) (dead : Bytes) (healthy : List Bytes) :
    ((plan m dead healthy).map fun j => (j.filename, j.chunkId)).Nodup :=
  nodup_planOver (MetadataMap.nodup_listAllFiles m) m.queryMetadata dead healthy

section

variable {σ : Type} (copy : σ → Job → σ × Option Bytes)

lemma copies_sublist (jobs : List Job) (s : σ) :
    ((copies copy s jobs).map (·.1)).Sublist jobs := by
  induction jobs generalizing s with
  | nil => exact List.Sublist.slnil
  | cons job jobs ih =>
      cases hcopy : copy s job with
      | mk s' result =>
          cases result with
          | none =>
              simp only [copies, hcopy]
              exact (ih s').cons job
          | some path =>
              simp only [copies, hcopy, List.map_cons]
              exact (ih s').cons_cons job

/-- Jobs for different chunks add at most one record to each chunk of a file. -/
lemma nodup_ids_addedTo {jobs : List Job}
    (hjobs : (jobs.map fun j => (j.filename, j.chunkId)).Nodup) (s : σ) (f : Bytes) :
    ((addedTo (copies copy s jobs) f).map (·.chunkId)).Nodup := by
  have hplan := hjobs.sublist ((copies_sublist copy jobs s).map _)
  rw [List.map_map, List.Nodup, List.pairwise_map] at hplan
  simp only [addedTo, List.map_map, List.Nodup, List.pairwise_map]
  have hfiltered := List.Pairwise.filter (fun d : Job × Bytes => decide (d.1.filename = f)) hplan
  refine hfiltered.imp_of_mem ?_
  intro d e hd he hne heq
  have hd := (List.mem_filter.mp hd).2
  have he := (List.mem_filter.mp he).2
  simp only [decide_eq_true_eq] at hd he
  exact hne (Prod.ext (hd.trans he.symm) heq)

lemma copies_all (hcopy : ∀ s job, (copy s job).2.isSome) (jobs : List Job) (s : σ) :
    (copies copy s jobs).map (·.1) = jobs := by
  induction jobs generalizing s with
  | nil => rfl
  | cons job jobs ih =>
      obtain ⟨path, hpath⟩ := Option.isSome_iff_exists.mp (hcopy s job)
      cases hc : copy s job with
      | mk s' result =>
          rw [hc] at hpath
          simp only at hpath
          subst hpath
          simp only [copies, hc, List.map_cons, ih s']

/-- The copies a failover makes successfully. -/
def failoverCopies (registry : ServerRegistry) (health : HealthMonitor) (dead : Bytes) (s : σ)
    (m : MetadataMap) : List (Job × Bytes) :=
  copies copy s (plan m dead (healthyServers registry health dead))

lemma mem_failoverCopies {registry : ServerRegistry} {health : HealthMonitor} {dead : Bytes}
    {s : σ} {m : MetadataMap} {d : Job × Bytes}
    (h : d ∈ failoverCopies copy registry health dead s m) :
    d.1 ∈ plan m dead (healthyServers registry health dead) :=
  (copies_sublist copy _ s).subset (List.mem_map_of_mem h)

lemma healthyServers_ne_dead {registry : ServerRegistry} {health : HealthMonitor} {dead t : Bytes}
    (h : t ∈ healthyServers registry health dead) : t ≠ dead := by
  simp only [healthyServers, List.mem_filter, decide_eq_true_eq] at h
  exact h.2.1

/-- **What a failover does to a file**: with a healthy server available, the file keeps its records
on other servers and gains one for each copy that succeeded. -/
theorem placements_rereplicate {registry : ServerRegistry} {health : HealthMonitor}
    {dead : Bytes} (hhealthy : healthyServers registry health dead ≠ []) (s : σ)
    (m : MetadataMap) (f : Bytes) :
    (rereplicateDeadServerChunks copy registry health dead s m).2.placementsOf f =
      (m.placementsOf f).filter (·.server ≠ dead) ++
        (addedTo (failoverCopies copy registry health dead s m) f).map (·.placement) := by
  -- every added record belongs to a listed file and stands on a server other than the dead one
  have hadded : ∀ r ∈ addedTo (failoverCopies copy registry health dead s m) f,
      (m[f]?).isSome ∧ r.placement.server ≠ dead := by
    intro r hr
    obtain ⟨d, hd, rfl⟩ := List.mem_map.mp hr
    obtain ⟨hd, hname⟩ := List.mem_filter.mp hd
    have hplan := mem_plan.mp (mem_failoverCopies copy hd)
    simp only [decide_eq_true_eq] at hname
    rw [← hname]
    exact ⟨hplan.1, healthyServers_ne_dead (jobOf_spec hplan.2.2).target_healthy⟩
  by_cases hfiles : m.listAllFiles = []
  · have hnone := MetadataMap.listAllFiles_eq_nil hfiles f
    have hnil : addedTo (failoverCopies copy registry health dead s m) f = [] := by
      rw [List.eq_nil_iff_forall_not_mem]
      intro r hr
      simpa [hnone] using (hadded r hr).1
    simp only [rereplicateDeadServerChunks, hfiles, if_true,
      MetadataMap.placements_deleteServerMetadata, hnil, List.map_nil, List.append_nil]
  · have hloop := rereplicateLoop_eq copy m dead (healthyServers registry health dead) (s, ∅)
    have hget := get_foldl_execJob copy (plan m dead (healthyServers registry health dead)) s ∅ f
    simp only [rereplicateDeadServerChunks, hfiles, hhealthy, if_false, hloop,
      MetadataMap.placements_deleteServerMetadata]
    change _ = _ ++ List.map _ (addedTo (copies copy s _) f)
    unfold failoverCopies at hadded
    generalize (plan m dead (healthyServers registry health dead)).foldl (execJob copy) (s, ∅) = acc
      at hget ⊢
    by_cases hnil : addedTo (copies copy s (plan m dead (healthyServers registry health dead))) f
        = []
    · -- nothing is added to this file
      rw [if_pos hnil] at hget
      rw [hnil, List.map_nil, List.append_nil]
      split_ifs
      · rfl
      · rw [MetadataMap.placements_atomicReplaceServerChunks, hget]
        simp
    · rw [if_neg hnil] at hget
      obtain ⟨r, hr⟩ := List.exists_mem_of_ne_nil _ hnil
      obtain ⟨rec, hrec⟩ := Option.isSome_iff_exists.mp (hadded r hr).1
      have hnonempty : acc.2.isEmpty = false := by
        rw [Bool.eq_false_iff]
        intro hempty
        rw [Std.ExtTreeMap.isEmpty_iff] at hempty
        simp [hempty] at hget
      have hkeep : ∀ p ∈ (addedTo (copies copy s
          (plan m dead (healthyServers registry health dead))) f).map (·.placement),
          decide (p.server ≠ dead) = true := by
        intro p hp
        obtain ⟨r, hr, rfl⟩ := List.mem_map.mp hp
        exact decide_eq_true (hadded r hr).2
      rw [if_neg (by simp [hnonempty]), MetadataMap.placements_atomicReplaceServerChunks, hget,
        hrec]
      simp only [Std.ExtTreeMap.getElem?_empty, Option.getD_none, List.nil_append,
        List.filter_append, List.filter_filter, Bool.and_self, List.filter_eq_self.mpr hkeep,
        MetadataMap.placementsOf, hrec, Option.map_some, Option.getD_some]

lemma rereplicate_of_no_healthy {registry : ServerRegistry} {health : HealthMonitor} {dead : Bytes}
    (h : healthyServers registry health dead = []) (s : σ) (m : MetadataMap) (f : Bytes) :
    (rereplicateDeadServerChunks copy registry health dead s m).2.placementsOf f =
      m.placementsOf f := by
  unfold rereplicateDeadServerChunks
  dsimp only
  split_ifs with hfiles
  · have hnone := MetadataMap.listAllFiles_eq_nil hfiles f
    rw [MetadataMap.placements_deleteServerMetadata]
    simp [MetadataMap.placementsOf, hnone]
  · rfl

lemma hashOf_rereplicate (registry : ServerRegistry) (health : HealthMonitor) (dead : Bytes)
    (s : σ) (m : MetadataMap) (f : Bytes) :
    (rereplicateDeadServerChunks copy registry health dead s m).2.hashOf f = m.hashOf f := by
  unfold rereplicateDeadServerChunks
  dsimp only
  split_ifs
  · exact MetadataMap.hashOf_deleteServerMetadata m dead f
  · rfl
  · exact MetadataMap.hashOf_deleteServerMetadata m dead f
  · exact (MetadataMap.hashOf_deleteServerMetadata _ dead f).trans
      (MetadataMap.hashOf_atomicReplaceServerChunks m dead _ f)

/-! ### The state the copies leave -/

/-- The state after the copies of these jobs. -/
def copyAll (s : σ) (jobs : List Job) : σ := jobs.foldl (fun s job => (copy s job).1) s

lemma foldl_execJob_fst (jobs : List Job) (s : σ) (us : Map Bytes (List ChunkRecord)) :
    (jobs.foldl (execJob copy) (s, us)).1 = copyAll copy s jobs := by
  induction jobs generalizing s us with
  | nil => rfl
  | cons job jobs ih =>
      cases hcopy : copy s job with
      | mk s' result =>
          rw [List.foldl_cons, copyAll, List.foldl_cons, hcopy]
          cases result <;> simp only [execJob, hcopy] <;> exact ih s' _

lemma rereplicate_state {registry : ServerRegistry} {health : HealthMonitor} {dead : Bytes}
    (hhealthy : healthyServers registry health dead ≠ []) (s : σ) (m : MetadataMap) :
    (rereplicateDeadServerChunks copy registry health dead s m).1 =
      copyAll copy s (plan m dead (healthyServers registry health dead)) := by
  unfold rereplicateDeadServerChunks
  dsimp only
  by_cases hfiles : m.listAllFiles = []
  · rw [if_pos hfiles, plan, hfiles]
    rfl
  · rw [if_neg hfiles, if_neg hhealthy, rereplicateLoop_eq copy m dead]
    exact foldl_execJob_fst copy _ s ∅

lemma rereplicate_state_of_no_healthy {registry : ServerRegistry} {health : HealthMonitor}
    {dead : Bytes} (h : healthyServers registry health dead = []) (s : σ) (m : MetadataMap) :
    (rereplicateDeadServerChunks copy registry health dead s m).1 = s := by
  unfold rereplicateDeadServerChunks
  dsimp only
  split_ifs <;> rfl

/-- **The rule for the copies of a plan.**  What each copy establishes and no copy of another
chunk destroys holds of every successful copy in the end. -/
theorem copies_rule {jobs : List Job} {s : σ} (inv : σ → Prop) (post : σ → Job → Bytes → Prop)
    (hjobs : (jobs.map fun j => (j.filename, j.chunkId)).Nodup) (hs : inv s)
    (hinv : ∀ s, ∀ job ∈ jobs, inv s → inv (copy s job).1 ∧
      ∀ path, (copy s job).2 = some path → post (copy s job).1 job path)
    (hpost : ∀ s, ∀ job ∈ jobs, ∀ job' ∈ jobs, ∀ path,
      (job.filename, job.chunkId) ≠ (job'.filename, job'.chunkId) → inv s → post s job' path →
        post (copy s job).1 job' path) :
    inv (copyAll copy s jobs) ∧
      ∀ c ∈ copies copy s jobs, post (copyAll copy s jobs) c.1 c.2 := by
  induction jobs generalizing s with
  | nil => exact ⟨hs, by simp [copies]⟩
  | cons job jobs ih =>
      rw [List.map_cons, List.nodup_cons] at hjobs
      obtain ⟨hnew, hjobs⟩ := hjobs
      obtain ⟨hs', hjob⟩ := hinv s job List.mem_cons_self hs
      have htail := ih hjobs hs' (fun s j hj => hinv s j (List.mem_cons_of_mem _ hj))
        fun s j hj j' hj' => hpost s j (List.mem_cons_of_mem _ hj) j' (List.mem_cons_of_mem _ hj')
      refine ⟨htail.1, fun c hc => ?_⟩
      have hcase : (c.1 = job ∧ (copy s job).2 = some c.2) ∨
          c ∈ copies copy (copy s job).1 jobs := by
        cases hcopy : copy s job with
        | mk s' result =>
            cases result with
            | none =>
                simp only [copies, hcopy] at hc
                exact Or.inr hc
            | some path =>
                simp only [copies, hcopy, List.mem_cons] at hc
                rcases hc with rfl | hc
                · exact Or.inl ⟨rfl, rfl⟩
                · exact Or.inr hc
      rcases hcase with ⟨rfl, hpath⟩ | hc
      · -- the copies still to come are of other chunks
        have hkeep : inv (copyAll copy (copy s c.1).1 jobs) ∧
            post (copyAll copy (copy s c.1).1 jobs) c.1 c.2 := by
          refine List.foldlRecOn (motive := fun t => inv t ∧ post t c.1 c.2) jobs _
            ⟨hs', hjob c.2 hpath⟩ ?_
          rintro t ⟨ht, hp⟩ j hj
          refine ⟨(hinv t j (List.mem_cons_of_mem _ hj) ht).1,
            hpost t j (List.mem_cons_of_mem _ hj) c.1 List.mem_cons_self c.2 ?_ ht hp⟩
          intro heq
          exact hnew (List.mem_map.mpr ⟨j, hj, heq⟩)
        exact hkeep.2
      · exact htail.2 c hc

/-- **The rule for a failover**: in the end every record is an old one or that of a copy. -/
theorem rereplicate_rule (registry : ServerRegistry) (health : HealthMonitor) (dead : Bytes)
    (m : MetadataMap) (s : σ) (inv : σ → Prop) (post : σ → Job → Bytes → Prop) (hs : inv s)
    (hinv : ∀ s, ∀ job ∈ plan m dead (healthyServers registry health dead), inv s →
      inv (copy s job).1 ∧ ∀ path, (copy s job).2 = some path → post (copy s job).1 job path)
    (hpost : ∀ s, ∀ job ∈ plan m dead (healthyServers registry health dead), ∀ job' path,
      (job.filename, job.chunkId) ≠ (job'.filename, job'.chunkId) → inv s → post s job' path →
        post (copy s job).1 job' path) :
    let (s', m') := rereplicateDeadServerChunks copy registry health dead s m
    inv s' ∧ ∀ f, ∀ p ∈ m'.placementsOf f, p ∈ m.placementsOf f ∨
      ∃ job path, job.filename = f ∧ post s' job path ∧ p = (job.record path).placement := by
  dsimp only
  by_cases hhealthy : healthyServers registry health dead = []
  · rw [rereplicate_state_of_no_healthy copy hhealthy]
    refine ⟨hs, fun f p hp => Or.inl ?_⟩
    rwa [rereplicate_of_no_healthy copy hhealthy] at hp
  · obtain ⟨hend, hmade⟩ := copies_rule copy inv post
      (nodup_plan m dead (healthyServers registry health dead)) hs hinv
      fun s job hjob job' _ => hpost s job hjob job'
    rw [← rereplicate_state copy hhealthy] at hend hmade
    refine ⟨hend, fun f p hp => ?_⟩
    rw [placements_rereplicate copy hhealthy] at hp
    rcases List.mem_append.mp hp with hp | hp
    · exact Or.inl (List.mem_of_mem_filter hp)
    · obtain ⟨r, hr, rfl⟩ := List.mem_map.mp hp
      obtain ⟨c, hc, rfl⟩ := List.mem_map.mp hr
      obtain ⟨hc, hf⟩ := List.mem_filter.mp hc
      exact Or.inr ⟨c.1, c.2, of_decide_eq_true hf, hmade c hc, rfl⟩

end

end FileGrid
