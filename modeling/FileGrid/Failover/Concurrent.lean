import FileGrid.Core.Runs
import FileGrid.Failover.Preservation

/-!
# Concurrent failovers

Each server that is declared dead gets a detached thread that runs `rereplicateDeadServerChunks`.
The recovery guard (`g_recovering_servers`) admits one thread per address, and each access to the
metadata store is atomic by itself; everything else interleaves.  `failoverStep` takes one step of
one thread: the list of the files, the snapshot of the health map, the snapshot of one file's
records, one chunk copy, the commit (`atomic_replace_server_chunks`), the purge
(`delete_server_metadata`).

* `failoverThread_alone` connects this with the sequential function: a thread that is not
  interrupted does what `rereplicateDeadServerChunks` does.
* A thread picks its targets from snapshots, and the commit appends its records without looking at
  the store again.  So two failovers can pick one target for one chunk, and both record it:
  `concurrent_failovers_collide`.
* **`concurrent_failovers_distinct`**: as long as no failover commits a replica that another one in
  flight has picked too, no server is ever recorded twice for a chunk.  The invariant is that what
  a thread has picked is not in the store (`PhaseOk`).
-/

namespace FileGrid

open MetadataMap

/-- Where a failover thread stands. -/
inductive Phase where
  /-- admitted by the recovery guard -/
  | start
  /-- `list_all_files` is done -/
  | listed (files : List Bytes)
  /-- about to query the next file -/
  | scanning (healthy : List Bytes) (files : List Bytes) (updates : Map Bytes (List ChunkRecord))
  /-- in the loop over the chunks of `filename`, whose records were read before -/
  | copying (healthy : List Bytes) (files : List Bytes) (filename : Bytes)
      (chunks : List (Int × List ChunkRecord)) (updates : Map Bytes (List ChunkRecord))
  /-- about to commit -/
  | replacing (updates : Map Bytes (List ChunkRecord))
  /-- about to purge -/
  | deleting
deriving DecidableEq

/-- What a step reads from outside the store: the registry, the monitor, the outcome of a copy. -/
structure FailoverEnv where
  registry : ServerRegistry
  health : HealthMonitor
  copied : Option Bytes

/-- The store, and the thread of each address in `g_recovering_servers`. -/
structure FailoverSystem where
  store : MetadataMap
  threads : Map Bytes Phase

inductive FailoverEvent where
  /-- the unhealthy callback for an address; the guard lets one thread in -/
  | unhealthy (deadServer : Bytes)
  /-- the vote did not confirm the death, and the thread ends -/
  | rejected (deadServer : Bytes)
  /-- one step of the thread -/
  | advance (deadServer : Bytes) (env : FailoverEnv)

/-- One step of a thread: the store afterwards, and the thread's phase, or `none` at its end. -/
def advancePhase (m : MetadataMap) (dead : Bytes) (env : FailoverEnv) :
    Phase → MetadataMap × Option Phase
  | .start =>
      let files := m.listAllFiles
      (m, some (if files = [] then .deleting else .listed files))
  | .listed files =>
      let healthy := healthyServers env.registry env.health dead
      (m, if healthy = [] then none else some (.scanning healthy files ∅))
  | .scanning _ [] updates => (m, some (if updates.isEmpty then .deleting else .replacing updates))
  | .scanning healthy (f :: files) updates =>
      (m, some (.copying healthy files f (chunkMap (m.queryMetadata f).chunks).toList updates))
  | .copying healthy files _ [] updates => (m, some (.scanning healthy files updates))
  | .copying healthy files f (p :: chunks) updates =>
      match jobOf dead healthy f p.1 p.2 with
      | none => (m, some (.copying healthy files f chunks updates))
      | some job =>
          -- `execJob` with the outcome at hand
          let updates := (execJob (fun (s : Unit) _ => (s, env.copied)) ((), updates) job).2
          (m, some (.copying healthy files f chunks updates))
  | .replacing updates => (m.atomicReplaceServerChunks dead updates, some .deleting)
  | .deleting => (m.deleteServerMetadata dead, none)

/-- One event of the system. -/
def failoverStep (s : FailoverSystem) : FailoverEvent → FailoverSystem
  | .unhealthy dead =>
      match s.threads[dead]? with
      | some _ => s
      | none => { s with threads := s.threads.insert dead .start }
  | .rejected dead =>
      match s.threads[dead]? with
      | some .start => { s with threads := s.threads.erase dead }
      | _ => s
  | .advance dead env =>
      match s.threads[dead]? with
      | none => s
      | some phase =>
          match advancePhase s.store dead env phase with
          | (store, some phase') => { store, threads := s.threads.insert dead phase' }
          | (store, none) => { store, threads := s.threads.erase dead }

/-! ## The ways on of a thread -/

section
variable (m : MetadataMap) (dead : Bytes) (env : FailoverEnv)

/-- The steps after which a thread still runs, one constructor for each way on. -/
inductive PhaseStep : Phase → Phase → Prop
  | noFiles : PhaseStep .start .deleting
  | listFiles : PhaseStep .start (.listed m.listAllFiles)
  | readHealth {files : List Bytes} :
      PhaseStep (.listed files)
        (.scanning (healthyServers env.registry env.health dead) files ∅)
  | noUpdates {healthy : List Bytes} {us : Map Bytes (List ChunkRecord)} :
      PhaseStep (.scanning healthy [] us) .deleting
  | allScanned {healthy : List Bytes} {us : Map Bytes (List ChunkRecord)} :
      PhaseStep (.scanning healthy [] us) (.replacing us)
  | readFile {healthy files : List Bytes} {f : Bytes} {us : Map Bytes (List ChunkRecord)} :
      PhaseStep (.scanning healthy (f :: files) us)
        (.copying healthy files f (chunkMap (m.queryMetadata f).chunks).toList us)
  | fileDone {healthy files : List Bytes} {f : Bytes} {us : Map Bytes (List ChunkRecord)} :
      PhaseStep (.copying healthy files f [] us) (.scanning healthy files us)
  /-- the chunk needs no copy, or its copy failed -/
  | noCopy {healthy files : List Bytes} {f : Bytes} {p : Int × List ChunkRecord}
      {chunks : List (Int × List ChunkRecord)} {us : Map Bytes (List ChunkRecord)} :
      PhaseStep (.copying healthy files f (p :: chunks) us) (.copying healthy files f chunks us)
  | copied {healthy files : List Bytes} {f : Bytes} {p : Int × List ChunkRecord}
      {chunks : List (Int × List ChunkRecord)} {us : Map Bytes (List ChunkRecord)}
      {job : Job} {path : Bytes} (hjob : jobOf dead healthy f p.1 p.2 = some job)
      (hcopied : env.copied = some path) :
      PhaseStep (.copying healthy files f (p :: chunks) us)
        (.copying healthy files f chunks
          (us.insert f ((us[f]?).getD [] ++ [job.record path])))
  | replaced {us : Map Bytes (List ChunkRecord)} : PhaseStep (.replacing us) .deleting

end

/-- A thread that still runs has taken one of these steps. -/
lemma phaseStep_of_advancePhase {m : MetadataMap} {dead : Bytes} {env : FailoverEnv}
    {ph ph' : Phase} (hnext : (advancePhase m dead env ph).2 = some ph') :
    PhaseStep m dead env ph ph' := by
  cases ph with
  | start =>
      simp only [advancePhase, Option.some.injEq] at hnext
      subst hnext
      split_ifs
      · exact .noFiles
      · exact .listFiles
  | listed files =>
      simp only [advancePhase] at hnext
      split_ifs at hnext
      cases hnext
      exact .readHealth
  | scanning healthy files us =>
      cases files with
      | nil =>
          simp only [advancePhase, Option.some.injEq] at hnext
          subst hnext
          split_ifs
          · exact .noUpdates
          · exact .allScanned
      | cons f files =>
          simp only [advancePhase, Option.some.injEq] at hnext
          subst hnext
          exact .readFile
  | copying healthy files f chunks us =>
      cases chunks with
      | nil =>
          simp only [advancePhase, Option.some.injEq] at hnext
          subst hnext
          exact .fileDone
      | cons p chunks =>
          cases hjob : jobOf dead healthy f p.1 p.2 with
          | none =>
              simp only [advancePhase, hjob, Option.some.injEq] at hnext
              subst hnext
              exact .noCopy
          | some job =>
              simp only [advancePhase, hjob, Option.some.injEq] at hnext
              subst hnext
              cases hcopied : env.copied with
              | none => exact .noCopy
              | some path =>
                  simp only [execJob, (jobOf_spec hjob).filename]
                  exact .copied hjob hcopied
  | replacing us =>
      simp only [advancePhase, Option.some.injEq] at hnext
      subst hnext
      exact .replaced
  | deleting => simp [advancePhase] at hnext

/-- What a step leaves in the store: only a commit and a purge write. -/
lemma store_advancePhase {m : MetadataMap} {dead : Bytes} (env : FailoverEnv) (ph : Phase) :
    (advancePhase m dead env ph).1 = m ∨
      (∃ us, ph = .replacing us ∧
        advancePhase m dead env ph = (m.atomicReplaceServerChunks dead us, some .deleting)) ∨
      ph = .deleting ∧ advancePhase m dead env ph = (m.deleteServerMetadata dead, none) := by
  cases ph with
  | start => exact Or.inl rfl
  | listed files => exact Or.inl rfl
  | scanning healthy files us => cases files <;> exact Or.inl rfl
  | copying healthy files f chunks us =>
      left
      cases chunks with
      | nil => rfl
      | cons p chunks =>
          simp only [advancePhase]
          split <;> rfl
  | replacing us => exact Or.inr (Or.inl ⟨us, rfl, rfl⟩)
  | deleting => exact Or.inr (Or.inr ⟨rfl, rfl⟩)

/-! ## What a thread has picked -/

/-- The replicas recorded in `file_chunks_to_update`, as file, chunk and server. -/
def updateSlots (updates : Map Bytes (List ChunkRecord)) : List (Bytes × Int × Bytes) :=
  updates.toList.flatMap fun u => u.2.map fun r => (u.1, r.chunkId, r.server)

/-- The replicas a thread has recorded, or will pick from the snapshot it is working on. -/
def Phase.picked (dead : Bytes) : Phase → List (Bytes × Int × Bytes)
  | .scanning _ _ updates => updateSlots updates
  | .copying healthy _ f chunks updates =>
      updateSlots updates ++ chunks.filterMap fun p =>
        (jobOf dead healthy f p.1 p.2).map fun job => (f, job.chunkId, job.target)
  | .replacing updates => updateSlots updates
  | _ => []

/-- The replicas the next step of a thread commits. -/
def Phase.committing : Phase → List (Bytes × Int × Bytes)
  | .replacing updates => updateSlots updates
  | _ => []

/-- The guard: a commit adds no replica that another failover in flight has picked. -/
def NoSharedPick (s : FailoverSystem) : FailoverEvent → Prop
  | .advance dead _ =>
      ∀ own ∈ s.threads[dead]?, ∀ other ∈ s.threads.toList, other.1 ≠ dead →
        ∀ slot ∈ own.committing, slot ∉ other.2.picked other.1
  | _ => True

instance : ∀ (s : FailoverSystem) (ev : FailoverEvent), Decidable (NoSharedPick s ev)
  | _, .unhealthy _ => isTrue trivial
  | _, .rejected _ => isTrue trivial
  | s, .advance dead _ =>
      inferInstanceAs (Decidable (∀ own ∈ s.threads[dead]?, ∀ other ∈ s.threads.toList,
        other.1 ≠ dead → ∀ slot ∈ own.committing, slot ∉ other.2.picked other.1))

lemma mem_updateSlots {us : Map Bytes (List ChunkRecord)} {f t : Bytes} {c : Int} :
    (f, c, t) ∈ updateSlots us ↔
      ∃ rs, us[f]? = some rs ∧ ∃ r ∈ rs, r.chunkId = c ∧ r.server = t := by
  simp only [updateSlots, List.mem_flatMap, List.mem_map, Prod.mk.injEq, Prod.exists,
    Map.mem_toList]
  constructor
  · rintro ⟨f', rs, hrs, r, hr, rfl, hc, ht⟩
    exact ⟨rs, hrs, r, hr, hc, ht⟩
  · rintro ⟨rs, hrs, r, hr, hc, ht⟩
    exact ⟨f, rs, hrs, r, hr, rfl, hc, ht⟩

/-- The records in `file_chunks_to_update`, with their files. -/
def updateRecords (updates : Map Bytes (List ChunkRecord)) : List (Bytes × ChunkRecord) :=
  updates.toList.flatMap fun u => u.2.map fun r => (u.1, r)

lemma mem_updateRecords {us : Map Bytes (List ChunkRecord)} {f : Bytes} {r : ChunkRecord} :
    (f, r) ∈ updateRecords us ↔ ∃ rs, us[f]? = some rs ∧ r ∈ rs := by
  simp only [updateRecords, List.mem_flatMap, List.mem_map, Prod.mk.injEq, Prod.exists,
    Map.mem_toList]
  constructor
  · rintro ⟨f', rs, hrs, r', hr', rfl, rfl⟩
    exact ⟨rs, hrs, hr'⟩
  · rintro ⟨rs, hrs, hr⟩
    exact ⟨f, rs, hrs, r, hr, rfl, rfl⟩

lemma slot_mem_updateSlots {us : Map Bytes (List ChunkRecord)} {f : Bytes} {r : ChunkRecord}
    (h : (f, r) ∈ updateRecords us) : (f, r.chunkId, r.server) ∈ updateSlots us := by
  obtain ⟨rs, hrs, hr⟩ := mem_updateRecords.mp h
  exact mem_updateSlots.mpr ⟨rs, hrs, r, hr, rfl, rfl⟩

/-! ## The invariant -/

/-- The records a thread is going to commit: at most one per chunk, and none is in the store. -/
def UpdatesOk (m : MetadataMap) (us : Map Bytes (List ChunkRecord)) : Prop :=
  ∀ (f : Bytes) rs, us[f]? = some rs →
    (rs.map (·.chunkId)).Nodup ∧ ∀ r ∈ rs, ∀ p ∈ m.placementsOf f, p.slot ≠ (r.chunkId, r.server)

/-- What is true of a thread wherever it stands: what it has picked is not in the store, and no
chunk is visited twice. -/
def PhaseOk (m : MetadataMap) (dead : Bytes) : Phase → Prop
  | .start => True
  | .listed files => files.Nodup
  | .scanning _ files us => UpdatesOk m us ∧ files.Nodup ∧ ∀ g ∈ files, us[g]? = none
  | .copying healthy files f chunks us =>
      UpdatesOk m us ∧ (f :: files).Nodup ∧ (∀ g ∈ files, us[g]? = none) ∧
      (chunks.map (·.1)).Nodup ∧
      (∀ r ∈ (us[f]?).getD [], r.chunkId ∉ chunks.map (·.1)) ∧
      ∀ p ∈ chunks, ∀ job, jobOf dead healthy f p.1 p.2 = some job →
        ∀ q ∈ m.placementsOf f, q.slot ≠ (job.chunkId, job.target)
  | .replacing us => UpdatesOk m us
  | .deleting => True

lemma UpdatesOk.mono {m m' : MetadataMap} {us : Map Bytes (List ChunkRecord)}
    (hus : UpdatesOk m us)
    (h : ∀ f, ∀ p ∈ m'.placementsOf f,
      p ∈ m.placementsOf f ∨ (f, p.chunkId, p.server) ∉ updateSlots us) :
    UpdatesOk m' us := by
  intro f rs hrs
  obtain ⟨hnodup, hnew⟩ := hus f rs hrs
  refine ⟨hnodup, fun r hr p hp heq => ?_⟩
  rcases h f p hp with hp | hp
  · exact hnew r hr p hp heq
  · obtain ⟨hc, ht⟩ := Prod.mk.inj heq
    exact hp (mem_updateSlots.mpr ⟨rs, hrs, r, hr, hc.symm, ht.symm⟩)

/-- A store that gains nothing the thread has picked keeps the thread in order. -/
lemma PhaseOk.mono {m m' : MetadataMap} {dead : Bytes} {ph : Phase} (hph : PhaseOk m dead ph)
    (h : ∀ f, ∀ p ∈ m'.placementsOf f,
      p ∈ m.placementsOf f ∨ (f, p.chunkId, p.server) ∉ ph.picked dead) :
    PhaseOk m' dead ph := by
  cases ph with
  | start => trivial
  | listed files => exact hph
  | scanning healthy files us => exact ⟨hph.1.mono h, hph.2⟩
  | replacing us => exact UpdatesOk.mono hph h
  | deleting => trivial
  | copying healthy files f chunks us =>
      obtain ⟨hus, hfiles, hrest, hchunks, hseen, hpicked⟩ := hph
      refine ⟨hus.mono fun g p hp => ?_, hfiles, hrest, hchunks, hseen, ?_⟩
      · exact (h g p hp).imp_right fun hn hmem => hn (List.mem_append_left _ hmem)
      · intro p hp job hjob q hq heq
        rcases h f q hq with hq | hq
        · exact hpicked p hp job hjob q hq heq
        · refine hq (List.mem_append_right _ (List.mem_filterMap.mpr ⟨p, hp, ?_⟩))
          obtain ⟨hc, ht⟩ := Prod.mk.inj heq
          rw [hjob, Option.map_some, hc, ht]

/-- Recording a copy keeps the records in order: its chunk is new to the list, and its target new
to the store. -/
lemma UpdatesOk.insert {m : MetadataMap} {us : Map Bytes (List ChunkRecord)} (hus : UpdatesOk m us)
    {f : Bytes} {r : ChunkRecord} (hchunk : ∀ r' ∈ (us[f]?).getD [], r'.chunkId ≠ r.chunkId)
    (hslot : ∀ q ∈ m.placementsOf f, q.slot ≠ (r.chunkId, r.server)) :
    UpdatesOk m (us.insert f ((us[f]?).getD [] ++ [r])) := by
  intro g rs hrs
  rw [Map.get_insert] at hrs
  split_ifs at hrs with hg
  · cases hrs
    subst hg
    have hold : ((us[g]?).getD []).map (·.chunkId) |>.Nodup := by
      cases hug : us[g]? with
      | none => simp
      | some rs => exact (hus g rs hug).1
    refine ⟨?_, fun r' hr' => ?_⟩
    · rw [List.map_append, List.map_singleton, List.nodup_append]
      refine ⟨hold, List.nodup_singleton _, ?_⟩
      intro c hc c' hc' heq
      obtain ⟨r', hr', rfl⟩ := List.mem_map.mp hc
      exact hchunk r' hr' (heq.trans (List.mem_singleton.mp hc'))
    · rcases List.mem_append.mp hr' with hr' | hr'
      · cases hug : us[g]? with
        | none => simp [hug] at hr'
        | some rs =>
            rw [hug] at hr'
            exact (hus g rs hug).2 r' hr'
      · rw [List.mem_singleton.mp hr']
        exact hslot
  · exact hus g rs hrs

/-- The commit of records that are in order keeps servers distinct. -/
lemma UpdatesOk.distinctServers {m : MetadataMap} {us : Map Bytes (List ChunkRecord)}
    (hus : UpdatesOk m us) (hm : DistinctServers m) (dead : Bytes) :
    DistinctServers (m.atomicReplaceServerChunks dead us) := by
  intro f
  rw [placements_atomicReplaceServerChunks]
  split
  · rename_i new rec hnew hrec
    have hplacements : m.placementsOf f = rec.placements := by simp [placementsOf, hrec]
    obtain ⟨hnodup, hslots⟩ := hus f new hnew
    have hold := hm f
    rw [hplacements] at hold hslots
    rw [List.map_append, List.nodup_append]
    refine ⟨hold.sublist (List.filter_sublist.map _), ?_, ?_⟩
    · rw [List.map_map]
      rw [List.Nodup, List.pairwise_map] at hnodup ⊢
      exact hnodup.imp fun hne heq => hne (Prod.mk.inj heq).1
    · intro a ha b hb hab
      obtain ⟨p, hp, rfl⟩ := List.mem_map.mp ha
      obtain ⟨q, hq, rfl⟩ := List.mem_map.mp hb
      obtain ⟨r, hr, rfl⟩ := List.mem_map.mp hq
      exact hslots r hr p (List.mem_of_mem_filter hp) hab
  · exact hm f

lemma mem_placements_atomicReplace {m : MetadataMap} {dead : Bytes}
    {us : Map Bytes (List ChunkRecord)} {f : Bytes} {p : Placement}
    (h : p ∈ (m.atomicReplaceServerChunks dead us).placementsOf f) :
    p ∈ m.placementsOf f ∨ ∃ r, (f, r) ∈ updateRecords us ∧ p = r.placement := by
  rw [placements_atomicReplaceServerChunks] at h
  split at h
  · rename_i new rec hnew hrec
    rcases List.mem_append.mp h with h | h
    · left
      simp only [placementsOf, hrec, Option.map_some, Option.getD_some]
      exact List.mem_of_mem_filter h
    · obtain ⟨r, hr, rfl⟩ := List.mem_map.mp h
      exact Or.inr ⟨r, mem_updateRecords.mpr ⟨new, hnew, hr⟩, rfl⟩
  · exact Or.inl h

/-- The invariant of the system. -/
structure SystemOk (s : FailoverSystem) : Prop where
  distinct : DistinctServers s.store
  threads : ∀ (d : Bytes) ph, s.threads[d]? = some ph → PhaseOk s.store d ph

/-- A snapshot groups the records of a file by chunk. -/
lemma snapshot_records {m : MetadataMap} {f : Bytes} {p : Int × List ChunkRecord}
    (hp : p ∈ (chunkMap (m.queryMetadata f).chunks).toList) : p.2 = recordsOf m f p.1 := by
  obtain ⟨c, records⟩ := p
  obtain ⟨hrecords, hne⟩ := Map.mem_toList_groupBy.mp hp
  have hf : f ≠ [] := by
    rintro rfl
    rw [hrecords] at hne
    simp [queryMetadata] at hne
  simp only [hrecords, queryMetadata, hf, if_false, recordsOf]

/-- A snapshot of a file picks targets that are not in the store. -/
lemma snapshot_picks_new {m : MetadataMap} {dead : Bytes} {healthy : List Bytes} {f : Bytes}
    {p : Int × List ChunkRecord} (hp : p ∈ (chunkMap (m.queryMetadata f).chunks).toList)
    {job : Job} (hjob : jobOf dead healthy f p.1 p.2 = some job) :
    ∀ q ∈ m.placementsOf f, q.slot ≠ (job.chunkId, job.target) := by
  have hspec := jobOf_spec hjob
  intro q hq heq
  obtain ⟨hqc, hqt⟩ := Prod.mk.inj heq
  obtain ⟨r, hr, hrq⟩ := exists_recordsOf hq
  rw [hqc, hspec.chunkId, ← snapshot_records hp] at hr
  refine hspec.target_new r hr ?_
  rw [← hqt, ← hrq]
  rfl

/-- Recording the copy of the first chunk keeps the thread in order: its chunk is new to the list,
and its target new to the store. -/
lemma PhaseOk.copied {m : MetadataMap} {dead : Bytes} {healthy files : List Bytes} {f : Bytes}
    {p : Int × List ChunkRecord} {chunks : List (Int × List ChunkRecord)}
    {us : Map Bytes (List ChunkRecord)} {job : Job} (path : Bytes)
    (hph : PhaseOk m dead (.copying healthy files f (p :: chunks) us))
    (hjob : jobOf dead healthy f p.1 p.2 = some job) :
    PhaseOk m dead (.copying healthy files f chunks
      (us.insert f ((us[f]?).getD [] ++ [job.record path]))) := by
  obtain ⟨hus, hfiles, hrest, hchunks, hseen, hpicked⟩ := hph
  have hspec := jobOf_spec hjob
  simp only [List.map_cons, List.nodup_cons] at hchunks
  refine ⟨hus.insert ?_ (hpicked p List.mem_cons_self job hjob), hfiles, ?_, hchunks.2, ?_,
    fun q hq => hpicked q (List.mem_cons_of_mem _ hq)⟩
  · intro r hr heq
    refine hseen r hr ?_
    rw [heq]
    simp [Job.record, hspec.chunkId]
  · intro g hg
    have hgf : g ≠ f := by
      rintro rfl
      exact (List.nodup_cons.mp hfiles).1 hg
    rw [Map.get_insert, if_neg hgf]
    exact hrest g hg
  · intro r hr
    rw [Map.get_insert, if_pos rfl, Option.getD_some] at hr
    rcases List.mem_append.mp hr with hr | hr
    · intro hmem
      exact hseen r hr (List.mem_cons_of_mem _ hmem)
    · rw [List.mem_singleton.mp hr]
      simpa [Job.record, hspec.chunkId] using hchunks.1

/-- Every way on keeps a thread in order. -/
lemma PhaseStep.ok {m : MetadataMap} {dead : Bytes} {env : FailoverEnv} {ph ph' : Phase}
    (hstep : PhaseStep m dead env ph ph') (hph : PhaseOk m dead ph) : PhaseOk m dead ph' := by
  cases hstep with
  | noFiles => trivial
  | listFiles => exact nodup_listAllFiles m
  | readHealth =>
      refine ⟨fun f rs hrs => ?_, hph, fun g _ => by simp⟩
      simp at hrs
  | noUpdates => trivial
  | allScanned => exact hph.1
  | readFile =>
      obtain ⟨hus, hfiles, hrest⟩ := hph
      refine ⟨hus, hfiles, fun g hg => hrest g (List.mem_cons_of_mem _ hg),
        Map.nodup_keys_toList _, ?_, fun p hp job hjob => snapshot_picks_new hp hjob⟩
      simp [hrest _ List.mem_cons_self]
  | fileDone => exact ⟨hph.1, (List.nodup_cons.mp hph.2.1).2, hph.2.2.1⟩
  | noCopy =>
      obtain ⟨hus, hfiles, hrest, hchunks, hseen, hpicked⟩ := hph
      exact ⟨hus, hfiles, hrest, (List.nodup_cons.mp hchunks).2,
        fun r hr hmem => hseen r hr (List.mem_cons_of_mem _ hmem),
        fun q hq => hpicked q (List.mem_cons_of_mem _ hq)⟩
  | copied hjob _ => exact hph.copied _ hjob
  | replaced => trivial

/-- One step of a thread keeps servers distinct and the thread in order. -/
lemma advancePhase_ok {m : MetadataMap} {dead : Bytes} (env : FailoverEnv) {ph : Phase}
    (hm : DistinctServers m) (hph : PhaseOk m dead ph) :
    DistinctServers (advancePhase m dead env ph).1 ∧
      ∀ ph', (advancePhase m dead env ph).2 = some ph' →
        PhaseOk (advancePhase m dead env ph).1 dead ph' := by
  rcases store_advancePhase env ph with hstore | ⟨us, rfl, hcommit⟩ | ⟨rfl, hpurge⟩
  · rw [hstore]
    exact ⟨hm, fun ph' h => (phaseStep_of_advancePhase h).ok hph⟩
  · rw [hcommit]
    refine ⟨UpdatesOk.distinctServers hph hm dead, fun ph' h => ?_⟩
    cases h
    trivial
  · rw [hpurge]
    refine ⟨fun f => ?_, fun ph' h => by cases h⟩
    simp only [placements_deleteServerMetadata]
    exact (hm f).sublist (List.filter_sublist.map _)

/-- What one step of a thread can add to the store: the records of its commit. -/
lemma mem_advancePhase {m : MetadataMap} {dead : Bytes} {env : FailoverEnv} {ph : Phase}
    {f : Bytes} {p : Placement} (h : p ∈ (advancePhase m dead env ph).1.placementsOf f) :
    p ∈ m.placementsOf f ∨
      ∃ us, ph = .replacing us ∧ ∃ r, (f, r) ∈ updateRecords us ∧ p = r.placement := by
  rcases store_advancePhase env ph with hstore | ⟨us, rfl, hcommit⟩ | ⟨rfl, hpurge⟩
  · rw [hstore] at h
    exact Or.inl h
  · rw [hcommit] at h
    exact (mem_placements_atomicReplace h).imp_right fun hadded => ⟨us, rfl, hadded⟩
  · rw [hpurge] at h
    simp only [placements_deleteServerMetadata] at h
    exact Or.inl (List.mem_of_mem_filter h)

/-- **One event keeps the invariant**, if it commits nothing another failover has picked. -/
theorem failoverStep_ok {s : FailoverSystem} {ev : FailoverEvent} (hs : SystemOk s)
    (hguard : NoSharedPick s ev) : SystemOk (failoverStep s ev) := by
  cases ev with
  | unhealthy dead =>
      cases hd : s.threads[dead]? with
      | some ph => simpa only [failoverStep, hd] using hs
      | none =>
          simp only [failoverStep, hd]
          refine ⟨hs.distinct, fun d ph h => ?_⟩
          rw [Map.get_insert] at h
          split_ifs at h with hdd
          · cases h
            trivial
          · exact hs.threads d ph h
  | rejected dead =>
      simp only [failoverStep]
      split
      · refine ⟨hs.distinct, fun d ph h => ?_⟩
        rw [Map.get_erase] at h
        split_ifs at h
        exact hs.threads d ph h
      · exact hs
  | advance dead env =>
      cases hd : s.threads[dead]? with
      | none => simpa only [failoverStep, hd] using hs
      | some phase =>
          obtain ⟨hdistinct, hown⟩ := advancePhase_ok env hs.distinct (hs.threads dead phase hd)
          -- the other threads: the store gains nothing they have picked
          have hothers : ∀ (d : Bytes) ph, d ≠ dead → s.threads[d]? = some ph →
              PhaseOk (advancePhase s.store dead env phase).1 d ph := by
            intro d ph hne hph
            refine (hs.threads d ph hph).mono fun f p hp => ?_
            rcases mem_advancePhase hp with hp | ⟨us, rfl, r, hr, rfl⟩
            · exact Or.inl hp
            · exact Or.inr (hguard _ hd (d, ph) (Map.mem_toList.mpr hph) hne _
                (slot_mem_updateSlots hr))
          simp only [failoverStep, hd]
          cases hadv : advancePhase s.store dead env phase with
          | mk store next =>
              rw [hadv] at hdistinct hown hothers
              cases next with
              | some ph' =>
                  refine ⟨hdistinct, fun d ph h => ?_⟩
                  rw [Map.get_insert] at h
                  split_ifs at h with hdd
                  · cases h
                    rw [hdd]
                    exact hown ph' rfl
                  · exact hothers d ph hdd h
              | none =>
                  refine ⟨hdistinct, fun d ph h => ?_⟩
                  rw [Map.get_erase] at h
                  split_ifs at h with hdd
                  exact hothers d ph hdd h

/-- **Concurrent failovers keep replicas distinct**: from a store in which no server holds a chunk
twice, along every interleaving in which no failover commits a replica that another one in flight
has picked too, no server is ever recorded twice for a chunk. -/
theorem concurrent_failovers_distinct {m : MetadataMap} (hm : DistinctServers m)
    {evs : List FailoverEvent} (hrun : AlongRun failoverStep NoSharedPick ⟨m, ∅⟩ evs) :
    DistinctServers (evs.foldl failoverStep ⟨m, ∅⟩).store :=
  (foldl_invariant SystemOk (fun _ _ => failoverStep_ok)
    ⟨hm, fun d ph h => by simp at h⟩ hrun).distinct

/-! ### Two failovers at once -/

/-- The registry once servers 1 and 2 have been removed from it. -/
def survivors : ServerRegistry :=
  ((ServerRegistry.addServer {} (ascii "10.0.0.3") 8080 8180 8280).2.addServer
    (ascii "10.0.0.4") 8080 8180 8280).2

/-- Every copy succeeds. -/
def copyingEnv : FailoverEnv := { registry := survivors, health := {}, copied := some (ascii "/q") }

/-- A thread's steps up to its commit, for a store with one file of one chunk. -/
def upToCommit (dead : Bytes) : List FailoverEvent :=
  .unhealthy dead :: List.replicate 6 (.advance dead copyingEnv)

/-- One failover after the other. -/
def oneByOne : List FailoverEvent :=
  upToCommit serverOne ++ [.advance serverOne copyingEnv, .advance serverOne copyingEnv]
    ++ upToCommit serverTwo ++ [.advance serverTwo copyingEnv]

/-- Both failovers read the records before either commits. -/
def bothRead : List FailoverEvent :=
  upToCommit serverOne ++ upToCommit serverTwo
    ++ [.advance serverOne copyingEnv, .advance serverTwo copyingEnv]

theorem concurrent_failovers_distinct_instance :
    DistinctServers (oneByOne.foldl failoverStep
      ⟨oneChunkFile [serverOne, serverTwo, serverThree], ∅⟩).store :=
  concurrent_failovers_distinct (distinctServers_oneChunkFile (by decide)) (by decide +kernel)

/-- **Two failovers record one replica twice**: the chunk is on servers 1, 2 and 3; the failovers
of 1 and 2 both read its records, both pick server 4, and both commit. -/
theorem concurrent_failovers_collide :
    DistinctServers (oneChunkFile [serverOne, serverTwo, serverThree]) ∧
      ((bothRead.foldl failoverStep ⟨oneChunkFile [serverOne, serverTwo, serverThree], ∅⟩
        ).store.placementsOf (ascii "f")).map Placement.slot =
        [(0, serverThree), (0, ascii "10.0.0.4:8080"), (0, ascii "10.0.0.4:8080")] :=
  ⟨distinctServers_oneChunkFile (by decide), by decide +kernel⟩

/-! ## A thread alone -/

/-- The system goes from `a` to `b` by steps of the thread of `dead` alone, which finds the same
registry and monitor throughout. -/
def Alone (registry : ServerRegistry) (health : HealthMonitor) (dead : Bytes)
    (a b : FailoverSystem) : Prop :=
  ∃ outcomes : List (Option Bytes),
    (outcomes.map fun o => FailoverEvent.advance dead ⟨registry, health, o⟩).foldl failoverStep a =
      b

section

variable {registry : ServerRegistry} {health : HealthMonitor} {dead : Bytes}

lemma Alone.refl (a : FailoverSystem) : Alone registry health dead a a := ⟨[], rfl⟩

lemma Alone.trans {a b c : FailoverSystem} (hab : Alone registry health dead a b)
    (hbc : Alone registry health dead b c) : Alone registry health dead a c := by
  obtain ⟨os, rfl⟩ := hab
  obtain ⟨os', rfl⟩ := hbc
  exact ⟨os ++ os', by rw [List.map_append, List.foldl_append]⟩

lemma Alone.step {m m' : MetadataMap} {threads : Map Bytes Phase} {ph ph' : Phase}
    (o : Option Bytes) (h : advancePhase m dead ⟨registry, health, o⟩ ph = (m', some ph')) :
    Alone registry health dead ⟨m, threads.insert dead ph⟩ ⟨m', threads.insert dead ph'⟩ := by
  refine ⟨[o], ?_⟩
  simp [failoverStep, h, Map.insert_insert]

lemma Alone.last {m m' : MetadataMap} {threads : Map Bytes Phase} {ph : Phase}
    (o : Option Bytes) (h : advancePhase m dead ⟨registry, health, o⟩ ph = (m', none)) :
    Alone registry health dead ⟨m, threads.insert dead ph⟩ ⟨m', threads.erase dead⟩ := by
  refine ⟨[o], ?_⟩
  simp [failoverStep, h, Map.erase_insert]

variable {σ : Type} (copy : σ → Job → σ × Option Bytes)

lemma alone_copying (m : MetadataMap) (threads : Map Bytes Phase) (healthy files : List Bytes)
    (f : Bytes) (chunks : List (Int × List ChunkRecord)) (s : σ)
    (us : Map Bytes (List ChunkRecord)) :
    Alone registry health dead ⟨m, threads.insert dead (.copying healthy files f chunks us)⟩
      ⟨m, threads.insert dead (.copying healthy files f []
        (chunks.foldl (chunkStep copy dead healthy f) (s, us)).2)⟩ := by
  induction chunks generalizing s us with
  | nil => exact Alone.refl _
  | cons p chunks ih =>
      rw [List.foldl_cons]
      cases hjob : jobOf dead healthy f p.1 p.2 with
      | none =>
          have hnext : chunkStep copy dead healthy f (s, us) p = (s, us) := by
            simp only [chunkStep, hjob]
          rw [hnext]
          refine (Alone.step none ?_).trans (ih s us)
          simp only [advancePhase, hjob]
      | some job =>
          -- the outcome the thread sees is the one `copy` produces here
          have hnext : chunkStep copy dead healthy f (s, us) p =
              ((copy s job).1,
                (execJob (fun (u : Unit) _ => (u, (copy s job).2)) ((), us) job).2) := by
            simp only [chunkStep, hjob, execJob]
            cases hcopy : copy s job with
            | mk s' result => cases result <;> rfl
          rw [hnext]
          refine (Alone.step (copy s job).2 ?_).trans (ih _ _)
          simp only [advancePhase, hjob]

lemma alone_scanning (m : MetadataMap) (threads : Map Bytes Phase) (healthy files : List Bytes)
    (s : σ) (us : Map Bytes (List ChunkRecord)) :
    Alone registry health dead ⟨m, threads.insert dead (.scanning healthy files us)⟩
      ⟨m, threads.insert dead (.scanning healthy []
        (files.foldl (fileStep copy m dead healthy) (s, us)).2)⟩ := by
  induction files generalizing s us with
  | nil => exact Alone.refl _
  | cons f files ih =>
      rw [List.foldl_cons]
      have hfile : fileStep copy m dead healthy (s, us) f =
          (chunkMap (m.queryMetadata f).chunks).toList.foldl (chunkStep copy dead healthy f)
            (s, us) := by
        unfold fileStep
        dsimp only
        split_ifs with hnil
        · rw [hnil]; rfl
        · rfl
      refine (Alone.step none rfl).trans
        ((alone_copying copy m threads healthy files f _ s us).trans
          ((Alone.step none rfl).trans ?_))
      rw [hfile]
      exact ih _ _

/-- **A thread that is not interrupted is the sequential failover.** -/
theorem failoverThread_alone (m : MetadataMap) (threads : Map Bytes Phase) (s : σ) :
    Alone registry health dead ⟨m, threads.insert dead .start⟩
      ⟨(rereplicateDeadServerChunks copy registry health dead s m).2, threads.erase dead⟩ := by
  have hlist : Alone registry health dead ⟨m, threads.insert dead .start⟩
      ⟨m, threads.insert dead
        (if m.listAllFiles = [] then .deleting else .listed m.listAllFiles)⟩ :=
    Alone.step none rfl
  have hpurge : ∀ m' : MetadataMap, Alone registry health dead ⟨m', threads.insert dead .deleting⟩
      ⟨m'.deleteServerMetadata dead, threads.erase dead⟩ := fun m' => Alone.last none rfl
  by_cases hfiles : m.listAllFiles = []
  · rw [if_pos hfiles] at hlist
    simp only [rereplicateDeadServerChunks, hfiles, if_true]
    exact hlist.trans (hpurge m)
  rw [if_neg hfiles] at hlist
  by_cases hhealthy : healthyServers registry health dead = []
  · simp only [rereplicateDeadServerChunks, hfiles, hhealthy, if_true, if_false]
    refine hlist.trans (Alone.last none ?_)
    simp only [advancePhase, hhealthy, if_true]
  · have hsnapshot : Alone registry health dead ⟨m, threads.insert dead (.listed m.listAllFiles)⟩
        ⟨m, threads.insert dead
          (.scanning (healthyServers registry health dead) m.listAllFiles ∅)⟩ := by
      refine Alone.step none ?_
      simp only [advancePhase, hhealthy, if_false]
    have hscan := @alone_scanning registry health dead σ copy m threads
      (healthyServers registry health dead) m.listAllFiles s ∅
    simp only [rereplicateDeadServerChunks, hfiles, hhealthy, if_false]
    refine hlist.trans (hsnapshot.trans (hscan.trans ((Alone.step none rfl).trans ?_)))
    split_ifs
    · exact hpurge m
    · exact (Alone.step none rfl).trans (hpurge _)

end

end FileGrid
