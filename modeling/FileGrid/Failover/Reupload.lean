import FileGrid.Failover.WithUploads

/-!
# A new version during a failover

A failover reads the records of a file, copies chunks for a while and then appends what it has made
to whatever the store holds by then.  An upload of a new version that commits in between replaces
the records that were read, but not the ones that are on their way: afterwards the file has records
of both versions (`failover_mixes_versions`).

A record's version is its chunk and its checksum.  What a failover may still bring into the store
are the versions of the records it has made and of the copies it is going to make from the snapshot
it works on (`Phase.versions`); anything else it has to read from the store first
(`mem_versions_advancePhase`).

**`reupload_one_version`**: if the failovers in flight have no other version of the file when the
upload commits, in particular if none has read the file yet, then every record of the file is one of
the new version from then on.
-/

namespace FileGrid

open MetadataMap

/-! ## Versions -/

/-- The chunk and the checksum of a record. -/
def Placement.version (p : Placement) : Int × Bytes := (p.chunkId, p.checksum)

/-- What a commit of this upload records. -/
def UploadThread.versions (th : UploadThread) : List (Int × Bytes) :=
  (th.chunks.flatMap readBack).map fun r => r.placement.version

/-- The copies a failover is going to make from the snapshot it works on: file and version. -/
def Phase.snapshot (dead : Bytes) : Phase → List (Bytes × Int × Bytes)
  | .copying healthy _ f chunks _ => chunks.filterMap fun p =>
      (jobOf dead healthy f p.1 p.2).map fun job => (f, job.chunkId, job.checksum)
  | _ => []

/-- What a failover may bring into the store without reading it again. -/
def Phase.versions (dead : Bytes) (ph : Phase) : List (Bytes × Int × Bytes) :=
  ph.added.map (fun a => (a.1, a.2.placement.version)) ++ ph.snapshot dead

/-- The checksum a copy is recorded with is that of a record of the chunk. -/
lemma exists_lastDeadChecksum {dead : Bytes} {records : List ChunkRecord}
    (h : ∃ r ∈ records, r.server = dead) :
    ∃ r ∈ records, r.checksum = lastDeadChecksum dead records := by
  obtain ⟨r, hr, hdead⟩ := h
  have hmem : r ∈ records.filter (·.server = dead) := List.mem_filter.mpr ⟨hr, by simpa using hdead⟩
  cases hlast : (records.filter (·.server = dead)).getLast? with
  | none =>
      rw [List.getLast?_eq_none_iff.mp hlast] at hmem
      simp at hmem
  | some last =>
      refine ⟨last, List.mem_of_mem_filter (List.mem_of_getLast? hlast), ?_⟩
      simp only [lastDeadChecksum, hlast, Option.map_some, Option.getD_some]

lemma snapshot_version {m : MetadataMap} {dead : Bytes} {healthy : List Bytes} {f : Bytes}
    {p : Int × List ChunkRecord} (hp : p ∈ (chunkMap (m.queryMetadata f).chunks).toList)
    {job : Job} (hjob : jobOf dead healthy f p.1 p.2 = some job) :
    ∃ q ∈ m.placementsOf f, q.version = (job.chunkId, job.checksum) := by
  have hspec := jobOf_spec hjob
  obtain ⟨r, hr, hsum⟩ := exists_lastDeadChecksum hspec.dead_record
  rw [← hspec.checksum] at hsum
  rw [snapshot_records hp, ← hspec.chunkId] at hr
  obtain ⟨hmem, hid⟩ := mem_recordsOf_placement hr
  exact ⟨r.placement, hmem, Prod.ext hid hsum⟩

lemma snapshot_tail {dead : Bytes} {healthy files : List Bytes} {f g : Bytes}
    {p : Int × List ChunkRecord} {chunks : List (Int × List ChunkRecord)}
    {us us' : Map Bytes (List ChunkRecord)} {v : Int × Bytes}
    (h : (f, v) ∈ Phase.snapshot dead (.copying healthy files g chunks us')) :
    (f, v) ∈ Phase.snapshot dead (.copying healthy files g (p :: chunks) us) := by
  obtain ⟨q, hq, hv⟩ := List.mem_filterMap.mp h
  exact List.mem_filterMap.mpr ⟨q, List.mem_cons_of_mem _ hq, hv⟩

lemma mem_snapshot_advancePhase {m : MetadataMap} {dead : Bytes} {env : FailoverEnv}
    {ph ph' : Phase} (hnext : (advancePhase m dead env ph).2 = some ph') {f : Bytes}
    {v : Int × Bytes} (h : (f, v) ∈ ph'.snapshot dead) :
    (f, v) ∈ ph.snapshot dead ∨ ∃ q ∈ m.placementsOf f, q.version = v := by
  cases phaseStep_of_advancePhase hnext with
  | noFiles => simp [Phase.snapshot] at h
  | listFiles => simp [Phase.snapshot] at h
  | readHealth => simp [Phase.snapshot] at h
  | noUpdates => simp [Phase.snapshot] at h
  | allScanned => simp [Phase.snapshot] at h
  | readFile =>
      -- the records of a file are read here
      obtain ⟨p, hp, hv⟩ := List.mem_filterMap.mp h
      obtain ⟨job, hjob, heq⟩ := Option.map_eq_some_iff.mp hv
      cases heq
      exact Or.inr (snapshot_version hp hjob)
  | fileDone => simp [Phase.snapshot] at h
  | noCopy => exact Or.inl (snapshot_tail h)
  | copied _ _ => exact Or.inl (snapshot_tail h)
  | replaced => simp [Phase.snapshot] at h

/-- **A failover comes by a version by reading the store**, and in no other way. -/
theorem mem_versions_advancePhase {m : MetadataMap} {dead : Bytes} {env : FailoverEnv}
    {ph ph' : Phase} (hnext : (advancePhase m dead env ph).2 = some ph') {f : Bytes}
    {v : Int × Bytes} (h : (f, v) ∈ ph'.versions dead) :
    (f, v) ∈ ph.versions dead ∨ ∃ q ∈ m.placementsOf f, q.version = v := by
  rcases List.mem_append.mp h with h | h
  · left
    obtain ⟨⟨g, r⟩, hr, heq⟩ := List.mem_map.mp h
    cases heq
    rcases mem_added_advancePhase hnext hr with hr | ⟨job, path, hjob, -, hfile, rfl⟩
    · exact List.mem_append_left _ (List.mem_map_of_mem (f := fun a : Bytes × ChunkRecord =>
        (a.1, a.2.placement.version)) hr)
    · -- the record was made from the chunk at the head of the snapshot
      refine List.mem_append_right _ ?_
      unfold Phase.nextJob at hjob
      split at hjob
      · refine List.mem_filterMap.mpr ⟨_, List.mem_cons_self, ?_⟩
        rw [hjob, Option.map_some, hfile, (jobOf_spec hjob).filename]
        rfl
      · cases hjob
  · rcases mem_snapshot_advancePhase hnext h with h | h
    · exact Or.inl (List.mem_append_right _ h)
    · exact Or.inr h

/-! ## The new version -/

/-- The guard: no upload of the file commits. -/
def NoOtherCommit (f : Bytes) (s : ThreadSystem) : ThreadEvent → Prop
  | .upload (.commit u _) => ∀ th ∈ s.uploads[u]?, th.request.filename ≠ f
  | _ => True

instance : ∀ (f : Bytes) (s : ThreadSystem) (ev : ThreadEvent), Decidable (NoOtherCommit f s ev)
  | f, s, .upload (.commit u _) =>
      inferInstanceAs (Decidable (∀ th ∈ s.uploads[u]?, th.request.filename ≠ f))
  | _, _, .failover _ => isTrue trivial
  | _, _, .upload (.ready _ _ _ _) => isTrue trivial
  | _, _, .upload (.submit _ _) => isTrue trivial
  | _, _, .upload (.transferred _ _ _) => isTrue trivial

/-- Every record of the file, and every one a failover may still bring, has one of the versions. -/
structure OneVersion (f : Bytes) (vs : List (Int × Bytes)) (s : ThreadSystem) : Prop where
  store : ∀ p ∈ s.store.placementsOf f, p.version ∈ vs
  threads : ∀ (dead : Bytes) ph, s.threads[dead]? = some ph →
    ∀ v, (f, v) ∈ ph.versions dead → v ∈ vs

/-- One step keeps the version, if no other upload commits. -/
theorem oneVersion_threadStep {f : Bytes} {vs : List (Int × Bytes)} {s : ThreadSystem}
    {ev : ThreadEvent} (hs : OneVersion f vs s) (hguard : NoOtherCommit f s ev) :
    OneVersion f vs (threadStep s ev) := by
  constructor
  · intro p hp
    rcases mem_store_threadStep hp with hp | ⟨dead, ph, hph, r, hr, rfl⟩ |
      ⟨u, n, th, rfl, hth, hfile, -⟩
    · exact hs.store p hp
    · refine hs.threads dead ph hph _ (List.mem_append_left _ ?_)
      exact List.mem_map_of_mem
        (f := fun a : Bytes × ChunkRecord => (a.1, a.2.placement.version)) hr
    · exact absurd hfile (hguard th hth)
  · intro dead ph' hph' v hv
    rcases threads_threadStep hph' with hph | rfl | ⟨env, ph, rfl, hph, hnext⟩
    · exact hs.threads dead ph' hph v hv
    · simp [Phase.versions, Phase.added, Phase.snapshot] at hv
    · rcases mem_versions_advancePhase hnext hv with hv | ⟨q, hq, rfl⟩
      · exact hs.threads dead ph hph v hv
      · exact hs.store q hq

/-- **A new version replaces the old one.**  An upload commits with `SUCCESS`, and the failovers in
flight have, of its file, only versions that it records; then along every interleaving of failovers
and uploads of other files, every record of the file has a version that the upload recorded. -/
theorem reupload_one_version {s : ThreadSystem} {u : Nat} {th : UploadThread} {n : Int}
    (hth : s.uploads[u]? = some th) (hdone : th.Collected)
    (hsuccess : (th.commit n s.store).2 = success)
    (hread : ∀ t ∈ s.threads.toList, ∀ v ∈ t.2.versions t.1, v.1 = th.request.filename →
      v.2 ∈ th.versions) {evs : List ThreadEvent}
    (hrun : AlongRun threadStep (NoOtherCommit th.request.filename)
      (threadStep s (.upload (.commit u n))) evs) :
    ∀ p ∈ (evs.foldl threadStep (threadStep s (.upload (.commit u n)))).store.placementsOf
      th.request.filename, p.version ∈ th.versions := by
  have hstep : threadStep s (.upload (.commit u n)) =
      { s with store := (th.commit n s.store).1, uploads := s.uploads.erase u } := by
    simp only [threadStep, uploadStep, hth, if_pos hdone]
  have hcommit : (th.commit n s.store).1 = storeMetadata s.store th.request.filename th.chunks
      th.request.fileHash n := by
    rcases th.commit_cases n s.store with ⟨-, hfailed⟩ | ⟨-, hcommit, -⟩
    · exact absurd hsuccess hfailed
    · exact hcommit
  have hstart : OneVersion th.request.filename th.versions
      (threadStep s (.upload (.commit u n))) := by
    rw [hstep]
    constructor
    · intro p hp
      simp only [hcommit] at hp
      rw [placementsOf_storeMetadata _ _ _ th.name.not_mem_newline th.hash.not_mem_newline,
        if_pos rfl] at hp
      obtain ⟨r, hr, rfl⟩ := List.mem_map.mp hp
      exact List.mem_map_of_mem hr
    · intro dead ph hph v hv
      exact hread (dead, ph) (Map.mem_toList.mpr hph) _ hv rfl
  exact (foldl_invariant (OneVersion th.request.filename th.versions)
    (fun _ _ => oneVersion_threadStep) hstart hrun).store

/-! ### An upload during a failover -/

/-- A store with one old file, which server 1 has lost and server 2 still has. -/
def oldVersion : ThreadSystem := ⟨oneChunkFile [serverOne, serverTwo], ∅, ∅⟩

/-- An upload of the file `A`, up to its commit, to the `n` servers that are registered. -/
def uploadOfA (registry : ServerRegistry) (n : Nat) : List ThreadEvent :=
  [.upload (.ready 0 1 oneByteRequest oneByteStream), .upload (.submit 0 { registry })]
    ++ (List.range n).map fun i => .upload (.transferred 0 i (some (ascii "/c/0.dat")))

/-- Steps of the failover of server 1. -/
def recoverySteps (n : Nat) : List ThreadEvent :=
  List.replicate n (.failover (.advance serverOne copyingEnv))

/-- The version of `A`. -/
def versionOfA : Int × Bytes :=
  (0, ascii "559aead08264d5795d3909718cdd05abd49572e84fe55590eef31a88a08fdffd")

set_option maxRecDepth 100000 in
/-- The failover has listed the files when the upload commits, and reads the records afterwards:
its copy is one of the new version. -/
theorem reupload_one_version_instance :
    let s := (.failover (.unhealthy serverOne) ::
      (recoverySteps 2 ++ uploadOfA threeServers 3)).foldl threadStep oldVersion
    ((recoverySteps 8).foldl threadStep (threadStep s (.upload (.commit 0 3)))).store.placementsOf
      (ascii "f") |>.all (·.version = versionOfA) := by
  intro s
  have hconditions : (∃ th ∈ s.uploads[0]?, th.Collected ∧ (th.commit 3 s.store).2 = success ∧
        th.request.filename = ascii "f" ∧ th.versions = [versionOfA, versionOfA, versionOfA]) ∧
      (∀ t ∈ s.threads.toList, t.2.versions t.1 = []) ∧
      AlongRun threadStep (NoOtherCommit (ascii "f")) (threadStep s (.upload (.commit 0 3)))
        (recoverySteps 8) := by decide +kernel
  obtain ⟨⟨th, hth, hdone, hsuccess, hfile, hversions⟩, hthreads, hrun⟩ := hconditions
  have h := reupload_one_version hth hdone hsuccess
    (fun t ht v hv => by rw [hthreads t ht] at hv; simp at hv) (by rw [hfile]; exact hrun)
  rw [hfile, hversions] at h
  rw [List.all_eq_true]
  intro p hp
  simpa using h p hp

set_option maxRecDepth 100000 in
/-- **A failover brings the old version back**: it reads the records and makes its copy, the upload
commits, and then the failover commits and purges. -/
theorem failover_mixes_versions :
    let s := (.failover (.unhealthy serverOne) :: (recoverySteps 6 ++ uploadOfA survivors 2)).foldl
      threadStep oldVersion
    let final := (recoverySteps 2).foldl threadStep (threadStep s (.upload (.commit 0 3)))
    (s.uploads[0]?).map (fun th => decide th.Collected) = some true ∧
      ((threadStep s (.upload (.commit 0 3))).store.placementsOf (ascii "f")).map
        Placement.version = [versionOfA, versionOfA] ∧
      final.threads.isEmpty ∧ final.uploads.isEmpty ∧
      (final.store.placementsOf (ascii "f")).map Placement.version =
        [versionOfA, versionOfA, (0, ascii "s")] := by
  decide +kernel

end FileGrid
