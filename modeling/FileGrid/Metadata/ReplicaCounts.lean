import FileGrid.Metadata.Persistence

/-!
# Replica counts on disk

The number of replicas of a chunk is stored twice: every record carries the number of records of its
chunk, and the file carries the number of records of its lowest chunk.  Both are redundant, and both
are kept by hand: `collect_transfers` counts what was stored, `create_entry` fills in what is
missing, and `load_from_disk`, `atomic_replace_server_chunks` and `delete_server_metadata` count
again.

**The counts of the records.**  A recount leaves exact counts (`exactCounts_recount`), and all
operations but one end with a recount, a restart too, whatever it reads.  The other is a commit.
One whose fields have no white space in them is read back line by line, and where a field is empty
the count is what gets lost (`ChunkInfo.readPlain`) and is filled in.  **`replica_counts_exact`** is
the invariant of all runs.

**The count of the file.**  `atomic_replace_server_chunks` sets it along with the others;
`delete_server_metadata` forgets it.  **`file_count_follows_iff`** says when that does not show.
-/

namespace FileGrid

/-! ## The counts of the records -/

/-- Every record knows how many of the records have its chunk. -/
def ExactCounts (chunks : List ChunkRecord) : Prop :=
  ∀ r ∈ chunks, r.replicaCount = ((chunks.countP (·.chunkId = r.chunkId) : Nat) : Int)

instance (chunks : List ChunkRecord) : Decidable (ExactCounts chunks) :=
  inferInstanceAs (Decidable (∀ r ∈ chunks, _))

def FileRecord.CountsExact (record : FileRecord) : Prop := ExactCounts record.chunks

lemma exactCounts_recount (chunks : List ChunkRecord) : ExactCounts (recount chunks) :=
  fun _ hr => replicaCount_of_mem_recount hr

/-- **A recount leaves exact counts.** -/
lemma countsExact_of_recount {record : FileRecord} {chunks : List ChunkRecord}
    (h : record.chunks = recount chunks) : record.CountsExact := by
  rw [FileRecord.CountsExact, h]
  exact exactCounts_recount chunks

/-! ### What a commit leaves -/

/-- A replica whose fields have no white space in them; the server and the checksum may be empty. -/
structure ChunkInfo.Plain (c : ChunkInfo) : Prop where
  id_lo : -2 ^ 63 ≤ c.chunkId
  id_hi : c.chunkId ≤ 2 ^ 63 - 1
  server : ∀ b ∈ c.serverIp, isSpace b = false
  path : Word c.filePath
  checksum : ∀ b ∈ c.checksum, isSpace b = false

lemma ChunkInfo.Plain.newline_not_mem {c : ChunkInfo} (h : c.Plain) :
    (10 : UInt8) ∉ chunkLine c :=
  (word_dec _).append_not_mem_newline (not_mem_newline_append (not_mem_newline_of_noSpace h.server)
    (h.path.append_not_mem_newline (not_mem_newline_append (not_mem_newline_of_noSpace h.checksum)
      (word_dec _).not_mem_newline)))

/-- The record a plain line is read as: where a field is empty the ones after it move up, and the
count is lost. -/
def ChunkInfo.readPlain (c : ChunkInfo) : ChunkRecord :=
  if c.serverIp = [] then
    if c.checksum = [] then ⟨c.chunkId, c.filePath, dec c.replicaCount, [], 0⟩
    else ⟨c.chunkId, c.filePath, c.checksum, dec c.replicaCount, 0⟩
  else if c.checksum = [] then ⟨c.chunkId, c.serverIp, c.filePath, dec c.replicaCount, 0⟩
  else c.readAs

lemma ChunkInfo.chunkId_readPlain (c : ChunkInfo) : c.readPlain.chunkId = c.chunkId := by
  unfold ChunkInfo.readPlain
  split_ifs <;> rfl

lemma ChunkInfo.replicaCount_readPlain {c : ChunkInfo} (h : 0 ≤ c.replicaCount) :
    c.readPlain.replicaCount = 0 ∨ c.readPlain.replicaCount = c.replicaCount := by
  unfold ChunkInfo.readPlain
  split_ifs
  · exact Or.inl rfl
  · exact Or.inl rfl
  · exact Or.inl rfl
  · exact replicaCount_readAs h

lemma parseChunkLine_plain {c : ChunkInfo} (h : c.Plain) :
    parseChunkLine (chunkLine c) = some c.readPlain := by
  have hid : ∀ s : Bytes, readI64 (dec c.chunkId ++ 32 :: s) = some (c.chunkId, 32 :: s) :=
    fun s => readI64_dec h.id_lo h.id_hi (stops_cons s (by decide))
  have hcount : readWord (dec c.replicaCount) = some (dec c.replicaCount, []) :=
    readWord_last (word_dec _)
  have hend : readWord [] = none := rfl
  have hend' : readI32 [] = none := rfl
  rcases eq_nil_or_word h.server with hserver | hserver
  · rcases eq_nil_or_word h.checksum with hsum | hsum
    · rw [ChunkInfo.readPlain, if_pos hserver, if_pos hsum]
      simp only [parseChunkLine, chunkLine, hid, hserver, hsum, List.nil_append, readWord_blank,
        readWord_field h.path, hcount, hend, Option.bind_eq_bind, Option.bind_some]
      rfl
    · rw [ChunkInfo.readPlain, if_pos hserver, if_neg hsum.1]
      simp only [parseChunkLine, chunkLine, hid, hserver, List.nil_append, readWord_blank,
        readWord_field h.path, readWord_field hsum, hcount, hend', Option.bind_eq_bind,
        Option.bind_some]
      rfl
  · rcases eq_nil_or_word h.checksum with hsum | hsum
    · rw [ChunkInfo.readPlain, if_neg hserver.1, if_pos hsum]
      simp only [parseChunkLine, chunkLine, hid, hsum, List.nil_append, readWord_blank,
        readWord_field hserver, readWord_field h.path, hcount, hend', Option.bind_eq_bind,
        Option.bind_some]
      rfl
    · rw [ChunkInfo.readPlain, if_neg hserver.1, if_neg hsum.1]
      exact parseChunkLine_chunkLine h.id_lo h.id_hi hserver h.path hsum

/-- **A plain replica is read back as one record of its chunk.** -/
lemma readBack_plain {c : ChunkInfo} (h : c.Plain) : readBack c = [c.readPlain] := by
  have hne : chunkLine c ≠ [] := by simp [chunkLine]
  rw [readBack, lines_append [] h.newline_not_mem, List.filter_cons_of_pos (by simpa using hne)]
  simp [lines, parseChunkLine_plain h]

lemma flatMap_readBack_plain {chunks : List ChunkInfo} (h : ∀ c ∈ chunks, c.Plain) :
    chunks.flatMap readBack = chunks.map (·.readPlain) := by
  rw [List.flatMap_congr fun c hc => readBack_plain (h c hc), ← List.map_eq_flatMap]

/-- A call of `store_metadata` with what `collect_transfers` made of any transfers: the numbers are
`int`s, and no field has white space in it. -/
structure PlainCommit where
  filename : Bytes
  fileHash : Bytes
  replicationFactor : Int
  pending : List Transfer
  outcomes : List (Option Bytes)
  name : ∀ b ∈ filename, isSpace b = false
  hash : ∀ b ∈ fileHash, isSpace b = false
  ids : ∀ t ∈ pending, -2 ^ 31 ≤ t.chunkId ∧ t.chunkId ≤ 2 ^ 31 - 1
  servers : ∀ t ∈ pending, ∀ b ∈ t.server, isSpace b = false
  checksums : ∀ t ∈ pending, ∀ b ∈ t.checksum, isSpace b = false
  paths : ∀ outcome ∈ outcomes, ∀ path ∈ outcome, ∀ b ∈ path, isSpace b = false

namespace PlainCommit

variable (u : PlainCommit)

def chunks : List ChunkInfo := collectTransfers u.filename u.pending u.outcomes

def request : Bytes := metadataRequest u.filename u.chunks u.fileHash u.replicationFactor

/-- The path that is recorded is never empty. -/
lemma word_recordedPath {t : Transfer} (ht : t ∈ u.pending) {path : Bytes}
    (hpath : some path ∈ u.outcomes) : Word (t.recordedPath u.filename path) := by
  rw [Transfer.recordedPath]
  split_ifs with hne
  · exact ⟨hne, u.paths _ hpath path rfl⟩
  · have htexts : (∀ b ∈ ascii "_", isSpace b = false) ∧
        ∀ b ∈ ascii "_chunk_", isSpace b = false := by decide +kernel
    simp only [List.append_assoc]
    refine Word.append (by decide) ?_
    simp only [List.mem_append]
    rintro b (hb | hb | hb | hb | hb)
    · exact u.servers t ht b hb
    · exact htexts.1 b hb
    · exact u.name b hb
    · exact htexts.2 b hb
    · exact (word_dec _).2 b hb

lemma plain_of_mem {c : ChunkInfo} (hc : c ∈ u.chunks) : c.Plain := by
  simp only [chunks, collectTransfers, List.mem_filterMap, Option.map_eq_some_iff,
    Prod.exists] at hc
  obtain ⟨t, outcome, hmem, path, rfl, rfl⟩ := hc
  obtain ⟨ht, hpath⟩ := List.of_mem_zip hmem
  have hid := u.ids t ht
  exact ⟨by dsimp only; omega, by dsimp only; omega, u.servers t ht, u.word_recordedPath ht hpath,
    u.checksums t ht⟩

/-- **A commit leaves exact counts**, and touches no other file. -/
lemma createEntry_request (m : MetadataMap) :
    ∃ record, createEntry m u.request = m.insert u.filename record ∧ record.CountsExact := by
  have hcounts := @fillCounts_map ChunkInfo.readPlain ChunkInfo.chunkId_readPlain
    (fun _ => ChunkInfo.replicaCount_readPlain) u.chunks
    fun c hc => collectTransfers_replicaCount hc
  have hstore := storeMetadata_replaceFileChunks m u.chunks u.replicationFactor
    (not_mem_newline_of_noSpace u.name) (not_mem_newline_of_noSpace u.hash)
  rw [flatMap_readBack_plain fun c hc => u.plain_of_mem hc, MetadataMap.replaceFileChunks, hcounts,
    fillCounts_recount] at hstore
  exact ⟨_, hstore, countsExact_of_recount rfl⟩

end PlainCommit

/-! ### Runs -/

/-- What happens to the store: an operation, with the order in which it writes the files out, or a
restart of the head. -/
inductive StoreEvent
  | operation (op : MetadataOp) (order : Schedule)
  | restart

def storeStep (s : MetadataState) : StoreEvent → MetadataState
  | .operation op order => metadataStep s (op, order)
  | .restart => { s with store := loadFromDisk s.disk }

/-- What is committed comes from an upload. -/
def StoreEvent.FromUpload : StoreEvent → Prop
  | .operation (.createEntry request) _ => ∃ u : PlainCommit, request = u.request
  | _ => True

/-- The counts of all files are exact. -/
def CountsExact (m : MetadataMap) : Prop :=
  ∀ (f : Bytes) record, m[f]? = some record → record.CountsExact

/-- Whatever is read from disk is counted again. -/
lemma countsExact_loadFromDisk (content : Bytes) : CountsExact (loadFromDisk content) := by
  intro f record hf
  rw [loadFromDisk, Map.get_map, Option.map_eq_some_iff] at hf
  obtain ⟨loaded, -, rfl⟩ := hf
  exact countsExact_of_recount (chunks_settleCounts loaded)

/-- **Every operation keeps the counts exact.** -/
theorem countsExact_apply {m : MetadataMap} (h : CountsExact m) {op : MetadataOp}
    (hop : ∀ request, op = .createEntry request → ∃ u : PlainCommit, request = u.request) :
    CountsExact (op.apply m) := by
  intro f record hf
  cases op with
  | createEntry request =>
      obtain ⟨u, rfl⟩ := hop request rfl
      obtain ⟨record', hstore, hexact⟩ := u.createEntry_request m
      rw [MetadataOp.apply, hstore, Map.get_insert] at hf
      split_ifs at hf
      · cases hf
        exact hexact
      · exact h f record hf
  | deleteEntry fileName =>
      rw [MetadataOp.apply, MetadataMap.deleteEntry] at hf
      split_ifs at hf
      · exact h f record hf
      · rw [MetadataMap.removeFile, Map.get_erase] at hf
        split_ifs at hf
        exact h f record hf
  | atomicReplaceServerChunks dead updates =>
      rw [MetadataOp.apply, MetadataMap.atomicReplaceServerChunks, Map.get_foldl_modify_toList,
        Option.map_eq_some_iff] at hf
      obtain ⟨old, hold, hrecord⟩ := hf
      cases hnew : updates[f]? with
      | none =>
          rw [hnew] at hrecord
          rw [← hrecord]
          exact h f old hold
      | some new =>
          rw [hnew] at hrecord
          rw [← hrecord]
          exact countsExact_of_recount rfl
  | deleteServerMetadata server =>
      rw [MetadataOp.apply, MetadataMap.deleteServerMetadata, Map.get_map,
        Option.map_eq_some_iff] at hf
      obtain ⟨old, -, rfl⟩ := hf
      exact countsExact_of_recount rfl

lemma countsExact_storeStep {s : MetadataState} (h : CountsExact s.store) {ev : StoreEvent}
    (hev : ev.FromUpload) : CountsExact (storeStep s ev).store := by
  cases ev with
  | restart => exact countsExact_loadFromDisk s.disk
  | operation op order =>
      refine countsExact_apply h ?_
      rintro request rfl
      exact hev

/-- **The counts of the records are exact** in every store that a head comes to, whatever was on
disk when it started. -/
theorem replica_counts_exact (disk : Bytes) (evs : List StoreEvent)
    (hevs : ∀ ev ∈ evs, ev.FromUpload) :
    CountsExact (evs.foldl storeStep { store := loadFromDisk disk, disk }).store := by
  refine List.foldlRecOn (motive := fun s : MetadataState => CountsExact s.store) evs storeStep
    ?_ ?_
  · exact countsExact_loadFromDisk disk
  intro s hs ev hev
  exact countsExact_storeStep hs (hevs ev hev)

/-- Three transfers of one chunk: the first failed, and the last came back without a path, for a
chunk that has no checksum. -/
def plainCommit : PlainCommit where
  filename := ascii "f"
  fileHash := ascii "9f86"
  replicationFactor := 3
  pending := [⟨0, ascii "10.0.0.1:8080", [65], ascii "559a"⟩,
    ⟨0, ascii "10.0.0.2:8080", [65], ascii "559a"⟩, ⟨0, ascii "10.0.0.3:8080", [65], []⟩]
  outcomes := [none, some (ascii "/c/2.dat"), some []]
  name := by decide +kernel
  hash := by decide +kernel
  ids := by decide
  servers := by decide +kernel
  checksums := by decide +kernel
  paths := by decide +kernel

/-- A commit of two replicas of three, a restart, and the loss of one of the two servers. -/
def plainEvents : List StoreEvent :=
  [.operation (.createEntry plainCommit.request) .inOrder, .restart,
    .operation (.deleteServerMetadata (ascii "10.0.0.2:8080")) .inOrder]

theorem replica_counts_exact_of_three :
    CountsExact (plainEvents.foldl storeStep { store := loadFromDisk [], disk := [] }).store :=
  replica_counts_exact [] plainEvents (by
    simp only [plainEvents, List.forall_mem_cons]
    exact ⟨⟨plainCommit, rfl⟩, trivial, trivial, by simp⟩)

/-! ## The count of the file -/

/-- The count of the file is the number of records of its lowest chunk. -/
def FileRecord.CountsLowest (record : FileRecord) : Prop :=
  ∃ r ∈ record.chunks, (∀ r' ∈ record.chunks, r.chunkId ≤ r'.chunkId) ∧
    record.replicaCount = ((record.chunks.countP (·.chunkId = r.chunkId) : Nat) : Int)

instance (record : FileRecord) : Decidable record.CountsLowest :=
  inferInstanceAs (Decidable (∃ r ∈ record.chunks, _))

/-- `cid_counts.begin()` is the lowest chunk. -/
lemma firstCount_eq_lowest {chunks : List ChunkRecord} {r : ChunkRecord} (hr : r ∈ chunks)
    (hlow : ∀ r' ∈ chunks, r.chunkId ≤ r'.chunkId) :
    firstCount chunks = ((chunks.countP (·.chunkId = r.chunkId) : Nat) : Int) := by
  obtain ⟨first, hfirst, hlowest, hcount⟩ := exists_firstCount (List.ne_nil_of_mem hr)
  rw [hcount, le_antisymm (hlowest r hr) (hlow first hfirst)]

@[simp] lemma firstCount_recount (chunks : List ChunkRecord) :
    firstCount (recount chunks) = firstCount chunks := by
  have hcounts : cidCounts (recount chunks) = cidCounts chunks := by
    simp only [cidCounts, recount, List.foldl_map]
  rw [firstCount, firstCount, hcounts]

/-- The count of a file with records is the lowest chunk's exactly if it is the first. -/
lemma countsLowest_iff {record : FileRecord} (h : record.chunks ≠ []) :
    record.CountsLowest ↔ record.replicaCount = firstCount record.chunks := by
  constructor
  · rintro ⟨r, hr, hlow, hcount⟩
    rw [hcount, firstCount_eq_lowest hr hlow]
  · intro hcount
    obtain ⟨r, hr, hlow, hfirst⟩ := exists_firstCount h
    exact ⟨r, hr, hlow, hcount.trans hfirst⟩

/-- The two operations that take a server out of the store. -/
inductive ServerRemoval
  | atomicReplaceServerChunks (deadServer : Bytes) (updates : Map Bytes (List ChunkRecord))
  | deleteServerMetadata (serverAddress : Bytes)

def ServerRemoval.op : ServerRemoval → MetadataOp
  | .atomicReplaceServerChunks dead updates => .atomicReplaceServerChunks dead updates
  | .deleteServerMetadata server => .deleteServerMetadata server

def removeServer (m : MetadataMap) (call : ServerRemoval) : MetadataMap := call.op.apply m

/-- Every file whose records the call changed, and left some of, has the count of its lowest
chunk. -/
def FileCountFollows (m : MetadataMap) (call : ServerRemoval) : Prop :=
  ∀ (f : Bytes) old new, m[f]? = some old → (removeServer m call)[f]? = some new →
    new.chunks ≠ old.chunks → new.chunks ≠ [] → new.CountsLowest

/-- `delete_server_metadata` changes the records of a file: one names the server, or has a wrong
count. -/
def FileRecord.ChangedWithout (server : Bytes) (record : FileRecord) : Prop :=
  recount (MetadataMap.withoutServer server record.chunks) ≠ record.chunks

/-- The count of a file is that of the lowest chunk which has a replica on another server. -/
def FileRecord.FitsWithout (server : Bytes) (record : FileRecord) : Prop :=
  ∀ r ∈ MetadataMap.withoutServer server record.chunks,
    (∀ r' ∈ MetadataMap.withoutServer server record.chunks, r.chunkId ≤ r'.chunkId) →
      record.replicaCount = (((MetadataMap.withoutServer server record.chunks).countP
        (·.chunkId = r.chunkId) : Nat) : Int)

/-- The call has no count to set: it is an `atomic_replace_server_chunks`, which sets them all, or
the files that it changes have the count that is right afterwards. -/
def FileCountFits (m : MetadataMap) : ServerRemoval → Prop
  | .atomicReplaceServerChunks _ _ => True
  | .deleteServerMetadata server => ∀ (f : Bytes) record, m[f]? = some record →
      record.ChangedWithout server → record.FitsWithout server

/-- What `delete_server_metadata` leaves of a file: the records are counted again, the file is
not. -/
def FileRecord.withoutServer (server : Bytes) (record : FileRecord) : FileRecord :=
  { record with chunks := recount (MetadataMap.withoutServer server record.chunks) }

lemma recount_eq_nil {chunks : List ChunkRecord} : recount chunks = [] ↔ chunks = [] := by
  simp [recount]

/-- The count of the file is right afterwards exactly if it was to begin with. -/
lemma countsLowest_withoutServer (server : Bytes) (record : FileRecord) :
    ((record.withoutServer server).chunks ≠ [] → (record.withoutServer server).CountsLowest) ↔
      record.FitsWithout server := by
  constructor
  · intro h r hr hlow
    have hne : (record.withoutServer server).chunks ≠ [] :=
      recount_eq_nil.not.mpr (List.ne_nil_of_mem hr)
    have hcount := (countsLowest_iff hne).mp (h hne)
    rwa [FileRecord.withoutServer, firstCount_recount, firstCount_eq_lowest hr hlow] at hcount
  · intro h hne
    obtain ⟨r, hr, hlow, -⟩ := exists_firstCount (recount_eq_nil.not.mp hne)
    rw [countsLowest_iff hne, FileRecord.withoutServer, firstCount_recount,
      firstCount_eq_lowest hr hlow]
    exact h r hr hlow

/-- A file that gets new records gets their count. -/
lemma countsLowest_replaceIn {dead : Bytes} {new : List ChunkRecord} {record : FileRecord}
    (h : (MetadataMap.replaceIn dead new record).chunks ≠ []) :
    (MetadataMap.replaceIn dead new record).CountsLowest := by
  rw [countsLowest_iff h]
  have hne : MetadataMap.withoutServer dead record.chunks ++ new ≠ [] :=
    recount_eq_nil.not.mp h
  simp only [MetadataMap.replaceIn, if_pos hne, firstCount_recount]

/-- **One call leaves the right counts exactly if it has none to set.** -/
lemma fileCountFollows_iff_fits (m : MetadataMap) (call : ServerRemoval) :
    FileCountFollows m call ↔ FileCountFits m call := by
  cases call with
  | atomicReplaceServerChunks dead updates =>
      refine iff_of_true ?_ trivial
      intro f old new hold hnew hchanged hne
      rw [removeServer, ServerRemoval.op, MetadataOp.apply, MetadataMap.atomicReplaceServerChunks,
        Map.get_foldl_modify_toList, hold, Option.map_some, Option.some.injEq] at hnew
      cases hupdate : updates[f]? with
      | none =>
          rw [hupdate] at hnew
          exact absurd (congrArg FileRecord.chunks hnew.symm) hchanged
      | some replacements =>
          rw [hupdate] at hnew
          subst hnew
          exact countsLowest_replaceIn hne
  | deleteServerMetadata server =>
      have hget : ∀ f : Bytes, (removeServer m (.deleteServerMetadata server))[f]? =
          (m[f]?).map (FileRecord.withoutServer server) := fun f => Map.get_map _ _ _
      constructor
      · intro h f record hf hchanged
        rw [← countsLowest_withoutServer]
        exact h f record _ hf (by rw [hget, hf, Option.map_some]) hchanged
      · intro h f old new hold hnew hchanged
        rw [hget, hold, Option.map_some, Option.some.injEq] at hnew
        subst hnew
        exact (countsLowest_withoutServer server old).mpr (h f old hold hchanged)

/-- **The counts of the files follow the removal of servers exactly if** no
`delete_server_metadata` of the run needs to change one. -/
theorem file_count_follows_iff (m : MetadataMap) (calls : List ServerRemoval) :
    AlongRun removeServer FileCountFollows m calls ↔
      AlongRun removeServer FileCountFits m calls :=
  alongRun_congr fileCountFollows_iff_fits m calls

/-- One of the two servers of an upload is removed, and the file still says two. -/
theorem file_count_stale_after_removal :
    ¬ AlongRun removeServer FileCountFollows (createEntry ∅ smallCommit.request)
      [.deleteServerMetadata (ascii "10.0.0.2:8080")] := by
  rintro ⟨hfollows, -⟩
  have hcount := hfollows (ascii "f") ((createEntry ∅ smallCommit.request).getChunks (ascii "f"))
    (((createEntry ∅ smallCommit.request).getChunks (ascii "f")).withoutServer
      (ascii "10.0.0.2:8080"))
    (by decide +kernel) (by decide +kernel) (by decide +kernel) (by decide +kernel)
  revert hcount
  decide +kernel

end FileGrid
