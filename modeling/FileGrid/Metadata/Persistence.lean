import FileGrid.Core.Runs
import FileGrid.Core.Unordered
import FileGrid.Head.Upload

/-!
# The metadata file

The on-disk backend keeps the whole store in memory and rewrites one text file after every change:
`persist_locked` writes it and `load_from_disk` reads it when the head starts.  A file of the store
is a run of lines that all begin with its name: one for the hash, one for the replica count and one
for each chunk record.  The first two are left out when there is nothing to say, and the reader
recomputes the counts it finds.

**One line.**  `loadLine_hash`, `loadLine_replicas` and `loadLine_record` say what the reader makes
of each kind of line, and `foldl_loadLine_file` what it makes of the lines of one file.

**The whole file.**  `FileRecord.Persistable` collects what makes the omissions and the recounting
harmless.  **`loadFromDisk_persistLocked`**: a store all of whose files are so is read back as it
is, in whatever order the unordered map was written.

**Every store the head builds.**  `persistable_step` shows that the operations keep the invariant,
and `metadata_survives_restart` puts the two together.
-/

namespace FileGrid

/-! ## The writer -/

/-- The line of a chunk record. -/
def recordLine (name : Bytes) (cr : ChunkRecord) : Bytes :=
  name ++ 32 :: (dec cr.chunkId ++ 32 :: (cr.server ++ 32 :: (cr.path ++ 32 :: (cr.checksum ++
    32 :: dec cr.replicaCount))))

/-- The line of a file's hash. -/
def hashLine (name fileHash : Bytes) : Bytes := name ++ 32 :: (ascii "HASH=" ++ fileHash)

/-- The line of a file's replica count. -/
def replicasLine (name : Bytes) (replicaCount : Int) : Bytes :=
  name ++ 32 :: (ascii "REPLICAS=" ++ dec replicaCount)

/-- The lines of one file. -/
def fileLines (name : Bytes) (record : FileRecord) : List Bytes :=
  (if record.fileHash ≠ [] then [hashLine name record.fileHash] else []) ++
    ((if 0 < record.replicaCount then [replicasLine name record.replicaCount] else []) ++
      record.chunks.map (recordLine name))

/-- The files in the order an iteration over the unordered map visits them. -/
def iteration (order : Schedule) (m : MetadataMap) : List (Bytes × FileRecord) :=
  (order.order m.toList.length).filterMap (m.toList[·]?)

/-- `persist_locked`: the bytes that are written. -/
def persistLocked (order : Schedule) (m : MetadataMap) : Bytes :=
  ((iteration order m).flatMap fun p => fileLines p.1 p.2).flatMap (· ++ [10])

/-! ## The reader -/

/-- The rest of a chunk line, after the identifier; checksum and count may be missing. -/
def loadRecord (chunkId : Int) (line : Bytes) : Option ChunkRecord := do
  let (server, rest) ← readWord line
  let (path, rest) ← readWord rest
  match readWord rest with
  | none => return { chunkId, server, path, checksum := [], replicaCount := 1 }
  | some (checksum, rest) =>
      return { chunkId, server, path, checksum
               replicaCount := ((readI32 rest).map (·.1)).getD 1 }

/-- One line of `load_from_disk`.  The right side of an assignment is evaluated before `map[name]`
makes an entry, so a count that is no number leaves no trace. -/
def loadLine (m : MetadataMap) (line : Bytes) : MetadataMap :=
  match readWord line with
  | none => m
  | some (fileName, rest) =>
      match readWord rest with
      | none => m
      | some (token2, rest) =>
          let entry := m.getChunks fileName
          if ascii "HASH=" <+: token2 then
            m.insert fileName { entry with fileHash := token2.drop 5 }
          else if ascii "REPLICAS=" <+: token2 then
            match stoi (token2.drop 9) with
            | none => m
            | some n => m.insert fileName { entry with replicaCount := n }
          else
            match (stoll token2).bind fun chunkId => loadRecord chunkId rest with
            | none => m
            | some record => m.insert fileName { entry with chunks := entry.chunks ++ [record] }

/-- The counts of a file that was loaded, made consistent. -/
def settleCounts (record : FileRecord) : FileRecord :=
  let counts := cidCounts record.chunks
  { record with
    chunks := record.chunks.map fun cr =>
      if cr.replicaCount ≤ 0 ∨ cr.replicaCount ≠ (counts[cr.chunkId]?).getD 0 then
        { cr with replicaCount := (counts[cr.chunkId]?).getD 0 }
      else cr
    replicaCount := fillFileCount record.replicaCount record.chunks }

/-- `load_from_disk`; a file that is not there is an empty one. -/
def loadFromDisk (content : Bytes) : MetadataMap :=
  Std.ExtTreeMap.map (fun _ record => settleCounts record) ((lines content).foldl loadLine ∅)

/-! ## The operations -/

inductive MetadataOp
  | createEntry (request : Bytes)
  | deleteEntry (fileName : Bytes)
  | atomicReplaceServerChunks (deadServer : Bytes) (updates : Map Bytes (List ChunkRecord))
  | deleteServerMetadata (serverAddress : Bytes)

namespace MetadataOp

/-- What an operation does to the store in memory. -/
def apply (m : MetadataMap) : MetadataOp → MetadataMap
  | .createEntry request => FileGrid.createEntry m request
  | .deleteEntry fileName => m.deleteEntry fileName
  | .atomicReplaceServerChunks deadServer updates => m.atomicReplaceServerChunks deadServer updates
  | .deleteServerMetadata serverAddress => m.deleteServerMetadata serverAddress

/-- Whether an operation writes the file: `delete_entry` returns early for an empty name. -/
def persists : MetadataOp → Bool
  | .deleteEntry fileName => fileName ≠ []
  | _ => true

end MetadataOp

/-- The operations as the head calls them: the file that is committed has a name, and so has every
server that a failover moves a chunk to. -/
def MetadataOp.Named : MetadataOp → Prop
  | .createEntry request => (parseOnDisk request).fileName ≠ []
  | .atomicReplaceServerChunks _ updates =>
      ∀ (f : Bytes) new, updates[f]? = some new → ∀ r ∈ new, r.server ≠ []
  | _ => True

namespace MetadataMap

lemma WellFormed.apply {m : MetadataMap} (hm : m.WellFormed) {op : MetadataOp} (hop : op.Named) :
    (op.apply m).WellFormed := by
  cases op with
  | createEntry request =>
      -- what is read off a chunk line is a word
      refine hm.replaceFileChunks hop fun r hr => ?_
      obtain ⟨r', hr', hplacement⟩ := exists_of_mem_fillCounts hr
      obtain ⟨line, -, hline⟩ := List.mem_filterMap.mp hr'
      have hserver : r.server = r'.server := congrArg Placement.server hplacement
      rw [hserver]
      exact (word_of_parseChunkLine hline).1.1
  | deleteEntry fileName =>
      by_cases hname : fileName = []
      · rwa [MetadataOp.apply, MetadataMap.deleteEntry, if_pos hname]
      · exact hm.deleteEntry hname
  | atomicReplaceServerChunks dead updates => exact hm.atomicReplaceServerChunks hop
  | deleteServerMetadata server => exact hm.deleteServerMetadata server

/-- **No store of the head has a nameless file or server**, after any operations. -/
theorem wellFormed_run {ops : List MetadataOp} (hops : ∀ op ∈ ops, op.Named) :
    (ops.foldl MetadataOp.apply ∅).WellFormed :=
  List.foldlRecOn (motive := MetadataMap.WellFormed) ops MetadataOp.apply wellFormed_empty
    fun _ hm _ hop => hm.apply (hops _ hop)

end MetadataMap

/-- The store in memory, and the file. -/
structure MetadataState where
  store : MetadataMap := ∅
  disk : Bytes := []

/-- One operation, and the order in which it writes the files out. -/
def metadataStep (s : MetadataState) (ev : MetadataOp × Schedule) : MetadataState :=
  let store := ev.1.apply s.store
  { store, disk := if ev.1.persists then persistLocked ev.2 store else s.disk }

/-! ## What the reader makes of a line -/

lemma readWord_field {w : Bytes} (hw : Word w) (s : Bytes) :
    readWord (w ++ 32 :: s) = some (w, 32 :: s) :=
  readWord_append hw (stops_cons s (by decide))

lemma readWord_blank (s : Bytes) : readWord (32 :: s) = readWord s := readWord_space s (by decide)

lemma readWord_last {w : Bytes} (hw : Word w) : readWord w = some (w, []) := by
  have h := readWord_append hw (stops_nil (! isSpace ·))
  rwa [List.append_nil] at h

lemma loadLine_hash {name fileHash : Bytes} (hname : Word name) (hhash : Word fileHash)
    (m : MetadataMap) :
    loadLine m (hashLine name fileHash) = m.insert name { m.getChunks name with fileHash } := by
  have htoken : Word (ascii "HASH=" ++ fileHash) :=
    Word.append (by decide) hhash.2
  simp only [loadLine, hashLine, readWord_field hname, readWord_blank, readWord_last htoken,
    List.prefix_append, if_true]
  rfl

lemma not_hash_prefix_replicas (s : Bytes) : ¬ ascii "HASH=" <+: ascii "REPLICAS=" ++ s := by
  simp [ascii, List.cons_prefix_cons]

lemma loadLine_replicas {name : Bytes} (hname : Word name) {n : Int} (hlo : -2 ^ 31 ≤ n)
    (hhi : n ≤ 2 ^ 31 - 1) (m : MetadataMap) :
    loadLine m (replicasLine name n) =
      m.insert name { m.getChunks name with replicaCount := n } := by
  have htoken : Word (ascii "REPLICAS=" ++ dec n) := Word.append (by decide) (word_dec n).2
  have hdrop : (ascii "REPLICAS=" ++ dec n).drop 9 = dec n := rfl
  simp only [loadLine, replicasLine, readWord_field hname, readWord_blank, readWord_last htoken,
    not_hash_prefix_replicas, List.prefix_append, if_true, if_false, hdrop, stoi_dec hlo hhi]

/-- The fields of a record are read back as they are. -/
structure ChunkRecord.Readable (cr : ChunkRecord) : Prop where
  id_lo : -2 ^ 63 ≤ cr.chunkId
  id_hi : cr.chunkId ≤ 2 ^ 63 - 1
  server : Word cr.server
  path : Word cr.path
  checksum : Word cr.checksum

instance (cr : ChunkRecord) : Decidable cr.Readable :=
  decidable_of_iff (-2 ^ 63 ≤ cr.chunkId ∧ cr.chunkId ≤ 2 ^ 63 - 1 ∧ Word cr.server ∧ Word cr.path ∧
      Word cr.checksum)
    ⟨fun ⟨hlo, hhi, hserver, hpath, hsum⟩ => ⟨hlo, hhi, hserver, hpath, hsum⟩,
      fun ⟨hlo, hhi, hserver, hpath, hsum⟩ => ⟨hlo, hhi, hserver, hpath, hsum⟩⟩

/-- A record as it is read back, before the counts are settled. -/
def ChunkRecord.loaded (cr : ChunkRecord) : ChunkRecord :=
  { cr with replicaCount := ((readI32 (32 :: dec cr.replicaCount)).map (·.1)).getD 1 }

lemma not_tag_prefix_dec {c : UInt8} (hdigit : isDigit c = false) (hminus : c ≠ 45) (tag : Bytes)
    (n : Int) : ¬ c :: tag <+: dec n := by
  intro h
  obtain ⟨d, s, hd, hd'⟩ := dec_cons n
  rw [hd, List.cons_prefix_cons] at h
  rcases hd' with hd' | hd'
  · rw [h.1, hd'] at hdigit
    cases hdigit
  · exact hminus (h.1.trans hd')

/-- The line of a replica appends what its fields are read as. -/
lemma loadLine_of_loadRecord {name : Bytes} (hname : Word name) {cr r : ChunkRecord}
    (hlo : -2 ^ 63 ≤ cr.chunkId) (hhi : cr.chunkId ≤ 2 ^ 63 - 1)
    (hrecord : loadRecord cr.chunkId (32 :: (cr.server ++ 32 :: (cr.path ++ 32 ::
      (cr.checksum ++ 32 :: dec cr.replicaCount)))) = some r) (m : MetadataMap) :
    loadLine m (recordLine name cr) = m.insert name
      { m.getChunks name with chunks := (m.getChunks name).chunks ++ [r] } := by
  have hhash : ¬ ascii "HASH=" <+: dec cr.chunkId := not_tag_prefix_dec rfl (by decide) _ _
  have hreplicas : ¬ ascii "REPLICAS=" <+: dec cr.chunkId := not_tag_prefix_dec rfl (by decide) _ _
  have hid : stoll (dec cr.chunkId) = some cr.chunkId := by
    have h := readI64_dec hlo hhi (stops_nil isDigit)
    rw [List.append_nil] at h
    simp [stoll, h]
  simp only [loadLine, recordLine, readWord_field hname, readWord_blank,
    readWord_field (word_dec cr.chunkId), hhash, hreplicas, if_false, hid, Option.bind_some,
    hrecord]

lemma loadLine_record {name : Bytes} (hname : Word name) {cr : ChunkRecord} (hcr : cr.Readable)
    (m : MetadataMap) :
    loadLine m (recordLine name cr) = m.insert name
      { m.getChunks name with chunks := (m.getChunks name).chunks ++ [cr.loaded] } := by
  refine loadLine_of_loadRecord hname hcr.id_lo hcr.id_hi ?_ m
  simp only [loadRecord, readWord_blank, readWord_field hcr.server, readWord_field hcr.path,
    readWord_field hcr.checksum, Option.bind_eq_bind, Option.bind_some]
  rfl

/-! ## What the reader makes of a file -/

/-- What makes the lines of a file an account of it: its fields can be read back, its counts are
those a reader computes, and the count that is left out is the one a reader assumes. -/
structure FileRecord.Persistable (record : FileRecord) : Prop where
  hash : Word record.fileHash
  count_nonneg : 0 ≤ record.replicaCount
  count_le : record.replicaCount ≤ 2 ^ 31 - 1
  uncounted : record.replicaCount = 0 → record.chunks = []
  recounted : recount record.chunks = record.chunks
  readable : ∀ cr ∈ record.chunks, cr.Readable

/-- Every file of the store can be read back. -/
def Persistable (m : MetadataMap) : Prop :=
  ∀ (f : Bytes) record, m[f]? = some record → Word f ∧ record.Persistable

/-- A file as it is read back, before the counts are settled. -/
def FileRecord.loaded (record : FileRecord) : FileRecord :=
  { record with chunks := record.chunks.map (·.loaded) }

lemma getChunks_insert (m : MetadataMap) (name : Bytes) (record : FileRecord) :
    MetadataMap.getChunks (m.insert name record) name = record := by
  simp [MetadataMap.getChunks]

lemma foldl_loadLine_records {name : Bytes} (hname : Word name) {crs : List ChunkRecord}
    (hcrs : ∀ cr ∈ crs, cr.Readable) (m : MetadataMap) (record : FileRecord) :
    (crs.map (recordLine name)).foldl loadLine (m.insert name record) =
      m.insert name { record with chunks := record.chunks ++ crs.map (·.loaded) } := by
  induction crs generalizing record with
  | nil => simp
  | cons cr crs ih =>
      rw [List.map_cons, List.foldl_cons, loadLine_record hname (hcrs cr List.mem_cons_self),
        getChunks_insert, Map.insert_insert, ih fun c hc => hcrs c (List.mem_cons_of_mem _ hc)]
      simp

/-- **The lines of one file are read back as the file.** -/
theorem foldl_loadLine_file {name : Bytes} (hname : Word name) {record : FileRecord}
    (hrecord : record.Persistable) {m : MetadataMap} (hnew : m[name]? = none) :
    (fileLines name record).foldl loadLine m = m.insert name record.loaded := by
  have hempty : m.getChunks name = {} := by simp [MetadataMap.getChunks, hnew]
  have hhash : (if record.fileHash ≠ [] then [hashLine name record.fileHash] else []) =
      [hashLine name record.fileHash] := if_pos hrecord.hash.1
  rw [fileLines, hhash, List.foldl_append, List.foldl_append, List.foldl_cons, List.foldl_nil,
    loadLine_hash hname hrecord.hash, hempty]
  by_cases hcount : 0 < record.replicaCount
  · have hlo : -2 ^ 31 ≤ record.replicaCount := by omega
    rw [if_pos hcount, List.foldl_cons, List.foldl_nil,
      loadLine_replicas hname hlo hrecord.count_le, getChunks_insert, Map.insert_insert,
      foldl_loadLine_records hname hrecord.readable]
    simp [FileRecord.loaded]
  · -- the count is left out: it is zero, and so is the reader's
    have hzero : record.replicaCount = 0 := le_antisymm (not_lt.mp hcount) hrecord.count_nonneg
    rw [if_neg hcount, List.foldl_nil, foldl_loadLine_records hname hrecord.readable]
    simp [FileRecord.loaded, hzero]

/-- Whatever the counts were, the reader ends with those of a recount. -/
lemma chunks_settleCounts (record : FileRecord) :
    (settleCounts record).chunks = recount record.chunks := by
  simp only [settleCounts, recount]
  refine List.map_congr_left fun cr _ => ?_
  split_ifs with h
  · rfl
  · rw [not_or, not_not] at h
    rw [← h.2]

/-- Settling the counts of a file that was read back gives the file. -/
lemma settleCounts_loaded {record : FileRecord} (h : record.Persistable) :
    settleCounts record.loaded = record := by
  have hplacements : (record.chunks.map (·.loaded)).map (·.placement) =
      record.chunks.map (·.placement) := by
    simp only [List.map_map]
    rfl
  have hchunks : (settleCounts record.loaded).chunks = record.chunks := by
    rw [chunks_settleCounts]
    exact (recount_congr hplacements).trans h.recounted
  have hcount : fillFileCount record.replicaCount (record.chunks.map (·.loaded)) =
      record.replicaCount := by
    refine if_neg ?_
    rintro ⟨hle, hne⟩
    have hzero := h.uncounted (le_antisymm hle h.count_nonneg)
    simp [hzero] at hne
  cases record with
  | mk fileHash replicaCount chunks =>
      simp only [settleCounts, FileRecord.loaded] at hchunks hcount ⊢
      rw [hchunks, hcount]

/-! ## What the reader makes of the whole text -/

lemma iteration_perm (order : Schedule) (m : MetadataMap) : (iteration order m).Perm m.toList :=
  order_filterMap_perm order m.toList

lemma mem_iteration {order : Schedule} {m : MetadataMap} {p : Bytes × FileRecord} :
    p ∈ iteration order m ↔ m[p.1]? = some p.2 :=
  (iteration_perm order m).mem_iff.trans Map.mem_toList

lemma newline_not_mem_fileLines {name : Bytes} (hname : (10 : UInt8) ∉ name) {record : FileRecord}
    (hhash : (10 : UInt8) ∉ record.fileHash)
    (hchunks : ∀ cr ∈ record.chunks,
      (10 : UInt8) ∉ cr.server ∧ (10 : UInt8) ∉ cr.path ∧ (10 : UInt8) ∉ cr.checksum) :
    ∀ l ∈ fileLines name record, (10 : UInt8) ∉ l := by
  have htag : ∀ {tag s : Bytes}, (10 : UInt8) ∉ tag → (10 : UInt8) ∉ s → (10 : UInt8) ∉ tag ++ s :=
    fun htag hs hmem => (List.mem_append.mp hmem).elim htag hs
  intro l hl
  simp only [fileLines, List.mem_append, List.mem_map] at hl
  rcases hl with hl | hl | ⟨cr, hcr, rfl⟩
  · split_ifs at hl
    · rw [List.mem_singleton.mp hl]
      exact not_mem_newline_append hname (htag (by decide) hhash)
    · simp at hl
  · split_ifs at hl
    · rw [List.mem_singleton.mp hl]
      exact not_mem_newline_append hname (htag (by decide) (word_dec _).not_mem_newline)
    · simp at hl
  · obtain ⟨hserver, hpath, hsum⟩ := hchunks cr hcr
    exact not_mem_newline_append hname ((word_dec _).append_not_mem_newline
      (not_mem_newline_append hserver (not_mem_newline_append hpath
        (not_mem_newline_append hsum (word_dec _).not_mem_newline))))

/-- Every name is a word and no line has a newline in it, whatever else the records look like. -/
def Separable (m : MetadataMap) : Prop :=
  ∀ (f : Bytes) record, m[f]? = some record → Word f ∧ ∀ l ∈ fileLines f record, (10 : UInt8) ∉ l

lemma Persistable.separable {m : MetadataMap} (hm : Persistable m) : Separable m := by
  intro f record hf
  obtain ⟨hname, hrecord⟩ := hm f record hf
  refine ⟨hname, newline_not_mem_fileLines hname.not_mem_newline hrecord.hash.not_mem_newline ?_⟩
  intro cr hcr
  have hfields := hrecord.readable cr hcr
  exact ⟨hfields.server.not_mem_newline, hfields.path.not_mem_newline,
    hfields.checksum.not_mem_newline⟩

/-- Every line of a file begins with its name. -/
lemma exists_fileLine {f : Bytes} {record : FileRecord} {l : Bytes} (hl : l ∈ fileLines f record) :
    ∃ rest, l = f ++ 32 :: rest := by
  simp only [fileLines, List.mem_append, List.mem_map] at hl
  rcases hl with hl | hl | ⟨cr, -, rfl⟩
  · split_ifs at hl
    · exact ⟨_, List.mem_singleton.mp hl⟩
    · simp at hl
  · split_ifs at hl
    · exact ⟨_, List.mem_singleton.mp hl⟩
    · simp at hl
  · exact ⟨_, rfl⟩

lemma get_loadLine_of_ne {f g : Bytes} (hg : Word g) (hne : f ≠ g) (m : MetadataMap)
    (rest : Bytes) : (loadLine m (g ++ 32 :: rest))[f]? = m[f]? := by
  simp only [loadLine, readWord_field hg]
  split
  · rfl
  · rename_i token2 rest' htoken
    split_ifs
    · rw [Map.get_insert, if_neg hne]
    · split
      · rfl
      · rw [Map.get_insert, if_neg hne]
    · split
      · rfl
      · rw [Map.get_insert, if_neg hne]

lemma get_foldl_loadLine_of_ne {f : Bytes} {files : List (Bytes × FileRecord)}
    (hfiles : ∀ p ∈ files, Word p.1 ∧ p.1 ≠ f) (m : MetadataMap) :
    ((files.flatMap fun p => fileLines p.1 p.2).foldl loadLine m)[f]? = m[f]? := by
  have hlines : ∀ l ∈ files.flatMap fun p => fileLines p.1 p.2,
      ∃ g rest, Word g ∧ f ≠ g ∧ l = g ++ 32 :: rest := by
    intro l hl
    obtain ⟨p, hp, hl⟩ := List.mem_flatMap.mp hl
    obtain ⟨rest, hrest⟩ := exists_fileLine hl
    exact ⟨p.1, rest, (hfiles p hp).1, Ne.symm (hfiles p hp).2, hrest⟩
  generalize (files.flatMap fun p => fileLines p.1 p.2) = ls at hlines
  induction ls generalizing m with
  | nil => rfl
  | cons l ls ih =>
      obtain ⟨g, rest, hg, hne, rfl⟩ := hlines l List.mem_cons_self
      rw [List.foldl_cons, ih _ fun l hl => hlines l (List.mem_cons_of_mem _ hl),
        get_loadLine_of_ne hg hne]

lemma lines_persistLocked (order : Schedule) {m : MetadataMap} (hm : Separable m) :
    lines (persistLocked order m) = (iteration order m).flatMap fun p => fileLines p.1 p.2 := by
  refine lines_flatMap fun l hl => ?_
  obtain ⟨p, hp, hl⟩ := List.mem_flatMap.mp hl
  exact (hm p.1 p.2 (mem_iteration.mp hp)).2 l hl

lemma loadFromDisk_persistLocked_none (order : Schedule) {m : MetadataMap} (hm : Separable m)
    {f : Bytes} (hf : m[f]? = none) : (loadFromDisk (persistLocked order m))[f]? = none := by
  have hothers : ∀ p ∈ iteration order m, Word p.1 ∧ p.1 ≠ f := by
    intro p hp
    have hget := mem_iteration.mp hp
    refine ⟨(hm p.1 p.2 hget).1, fun heq => ?_⟩
    rw [heq, hf] at hget
    cases hget
  rw [loadFromDisk, lines_persistLocked order hm, Map.get_map, get_foldl_loadLine_of_ne hothers]
  simp

/-- **What is read of a file is what its own lines say**, read where nothing is known of it. -/
theorem loadFromDisk_persistLocked_some (order : Schedule) {m : MetadataMap} (hm : Separable m)
    {f : Bytes} {record : FileRecord} (hf : m[f]? = some record) :
    ∃ before : MetadataMap, before[f]? = none ∧ (loadFromDisk (persistLocked order m))[f]? =
      (((fileLines f record).foldl loadLine before)[f]?).map settleCounts := by
  have hnodup : ((iteration order m).map (·.1)).Nodup :=
    ((iteration_perm order m).map _).nodup_iff.mpr (Map.nodup_keys_toList m)
  have hfiles : ∀ p ∈ iteration order m, Word p.1 :=
    fun p hp => (hm p.1 p.2 (mem_iteration.mp hp)).1
  have hlines := lines_persistLocked order hm
  have hmem : (f, record) ∈ iteration order m := mem_iteration.mpr hf
  obtain ⟨before, after, hsplit⟩ := List.append_of_mem hmem
  rw [hsplit] at hlines hfiles hnodup
  rw [List.map_append, List.map_cons, List.nodup_middle, List.nodup_cons, List.mem_append] at hnodup
  have hothers : ∀ p, p ∈ before ∨ p ∈ after → Word p.1 ∧ p.1 ≠ f := by
    intro p hp
    refine ⟨hfiles p ?_, fun heq => hnodup.1 ?_⟩
    · rcases hp with hp | hp
      · exact List.mem_append_left _ hp
      · exact List.mem_append_right _ (List.mem_cons_of_mem _ hp)
    · have hname : p.1 ∈ before.map (·.1) ∨ p.1 ∈ after.map (·.1) :=
        hp.imp List.mem_map_of_mem List.mem_map_of_mem
      rwa [heq] at hname
  refine ⟨(before.flatMap fun p => fileLines p.1 p.2).foldl loadLine ∅, ?_, ?_⟩
  · rw [get_foldl_loadLine_of_ne fun p hp => hothers p (.inl hp)]
    simp
  · rw [loadFromDisk, hlines, Map.get_map, List.flatMap_append, List.flatMap_cons,
      List.foldl_append, List.foldl_append,
      get_foldl_loadLine_of_ne fun p hp => hothers p (.inr hp)]

/-- **A file that can be read back is read back**, whatever the other files of the store are. -/
theorem get_loadFromDisk_persistLocked (order : Schedule) {m : MetadataMap} (hm : Separable m)
    {f : Bytes} {record : FileRecord} (hf : m[f]? = some record) (hrecord : record.Persistable) :
    (loadFromDisk (persistLocked order m))[f]? = some record := by
  obtain ⟨before, hbefore, hread⟩ := loadFromDisk_persistLocked_some order hm hf
  rw [hread, foldl_loadLine_file (hm f record hf).1 hrecord hbefore, Map.get_insert, if_pos rfl,
    Option.map_some, settleCounts_loaded hrecord]

/-- **What is written is read back**, in whatever order it was written. -/
theorem loadFromDisk_persistLocked (order : Schedule) {m : MetadataMap} (hm : Persistable m) :
    loadFromDisk (persistLocked order m) = m := by
  refine Std.ExtTreeMap.ext_getElem? fun f => ?_
  cases hf : m[f]? with
  | none => exact loadFromDisk_persistLocked_none order hm.separable hf
  | some record =>
      exact get_loadFromDisk_persistLocked order hm.separable hf (hm f record hf).2

/-! ## Every store the head builds can be read back -/

/-- A list of replicas each of which knows how many of its chunk there are. -/
lemma collectTransfers_replicaCount {filename : Bytes} {pending : List Transfer}
    {outcomes : List (Option Bytes)} {c : ChunkInfo}
    (h : c ∈ collectTransfers filename pending outcomes) :
    c.replicaCount = (((collectTransfers filename pending outcomes).countP
      (·.chunkId = c.chunkId) : Nat) : Int) := by
  simp only [collectTransfers, List.mem_filterMap] at h
  obtain ⟨⟨t, outcome⟩, -, hc⟩ := h
  cases outcome with
  | none => cases hc
  | some path =>
      cases hc
      simp only [collectTransfers, List.countP_filterMap]
      congr 1
      refine List.countP_congr fun r _ => ?_
      rcases r with ⟨t', outcome'⟩
      cases outcome' <;> simp

/-- The count of a replica is read back, or, if it is no `int`, none is. -/
lemma replicaCount_readAs {c : ChunkInfo} (h : 0 ≤ c.replicaCount) :
    c.readAs.replicaCount = 0 ∨ c.readAs.replicaCount = c.replicaCount := by
  have hblank : readI32 (32 :: dec c.replicaCount) = readI32 (dec c.replicaCount ++ []) := by
    rw [List.append_nil]
    exact readInt_space _ (by decide)
  have hread : readI32 (32 :: dec c.replicaCount) = _ :=
    hblank.trans (readInt_dec_eq (-2 ^ 31) (2 ^ 31 - 1) c.replicaCount (stops_nil isDigit))
  by_cases hfits : c.replicaCount ≤ 2 ^ 31 - 1
  · right
    rw [if_neg (by omega)] at hread
    simp [ChunkInfo.readAs, hread]
  · left
    rw [if_pos (by omega)] at hread
    simp [ChunkInfo.readAs, hread]

/-- What an upload commits has the counts of a recount. -/
lemma fillCounts_map {read : ChunkInfo → ChunkRecord} (hid : ∀ c, (read c).chunkId = c.chunkId)
    (hread : ∀ c, 0 ≤ c.replicaCount →
      (read c).replicaCount = 0 ∨ (read c).replicaCount = c.replicaCount)
    {chunks : List ChunkInfo} (hchunks : ∀ c ∈ chunks,
      c.replicaCount = ((chunks.countP (·.chunkId = c.chunkId) : Nat) : Int)) :
    fillCounts (chunks.map read) = recount (chunks.map read) := by
  refine fillCounts_eq_recount fun r hr => ?_
  obtain ⟨c, hc, rfl⟩ := List.mem_map.mp hr
  have hcount : (chunks.map read).countP (·.chunkId = (read c).chunkId) =
      chunks.countP (·.chunkId = c.chunkId) := by
    simp only [List.countP_map, Function.comp_def, hid]
  have hnonneg : 0 ≤ c.replicaCount := by
    rw [hchunks c hc]
    omega
  rw [hcount, ← hchunks c hc]
  exact (hread c hnonneg).imp_left le_of_eq

/-- A commit of `store_metadata`: replicas as `collect_transfers` delivers them, with fields that
are words, and a replication factor that is a natural number and an `int`. -/
structure UploadCommit where
  filename : Bytes
  fileHash : Bytes
  replicationFactor : Int
  pending : List Transfer
  outcomes : List (Option Bytes)
  name : Word filename
  hash : Word fileHash
  factor_nonneg : 0 ≤ replicationFactor
  factor_le : replicationFactor ≤ 2 ^ 31 - 1
  readable : ∀ c ∈ collectTransfers filename pending outcomes, c.Readable

namespace UploadCommit

variable (u : UploadCommit)

def chunks : List ChunkInfo := collectTransfers u.filename u.pending u.outcomes

def request : Bytes := metadataRequest u.filename u.chunks u.fileHash u.replicationFactor

/-- The file a commit leaves. -/
def committed : FileRecord :=
  { fileHash := u.fileHash
    replicaCount := fillFileCount u.replicationFactor (u.chunks.map (·.readAs))
    chunks := recount (u.chunks.map (·.readAs)) }

/-- **What a commit does to the store**, counts included. -/
theorem createEntry_request (m : MetadataMap) :
    createEntry m u.request = m.insert u.filename u.committed := by
  have hback : u.chunks.flatMap readBack = u.chunks.map (·.readAs) := by
    have hread : ∀ c ∈ u.chunks, readBack c = [c.readAs] := fun c hc =>
      readBack_readAs (u.readable c hc).id_lo (u.readable c hc).id_hi (u.readable c hc).server
        (u.readable c hc).path (u.readable c hc).checksum
    rw [List.flatMap_congr hread, ← List.map_eq_flatMap]
  have hfactor : stoi (dec u.replicationFactor) = some u.replicationFactor := by
    have := u.factor_nonneg
    exact stoi_dec (by omega) u.factor_le
  have hcounts := @fillCounts_map ChunkInfo.readAs (fun _ => rfl) (fun _ => replicaCount_readAs)
    u.chunks fun c hc => collectTransfers_replicaCount hc
  have hlen : (recount (u.chunks.map (·.readAs))).length = (u.chunks.map (·.readAs)).length := by
    simp [recount]
  have hstore := storeMetadata_replaceFileChunks m u.chunks u.replicationFactor
    u.name.not_mem_newline u.hash.not_mem_newline
  rw [hback, hcounts, hfactor, Option.getD_some, MetadataMap.replaceFileChunks, fillCounts_recount,
    fillFileCount_again hlen] at hstore
  exact hstore

end UploadCommit

lemma readable_recount {chunks : List ChunkRecord} (h : ∀ cr ∈ chunks, cr.Readable) :
    ∀ cr ∈ recount chunks, cr.Readable := by
  intro cr hcr
  obtain ⟨r, hr, rfl⟩ := List.mem_map.mp hcr
  obtain ⟨hlo, hhi, hserver, hpath, hsum⟩ := h r hr
  exact ⟨hlo, hhi, hserver, hpath, hsum⟩

/-- Replica counts are `int`s: no file of the store has more records than an `int` can count. -/
def FitsInt (m : MetadataMap) : Prop := ∀ p ∈ m.toList, p.2.chunks.length ≤ 2 ^ 31 - 1

instance (m : MetadataMap) : Decidable (FitsInt m) :=
  inferInstanceAs (Decidable (∀ p ∈ m.toList, p.2.chunks.length ≤ 2 ^ 31 - 1))

lemma FitsInt.get {m : MetadataMap} (h : FitsInt m) {f : Bytes} {record : FileRecord}
    (hf : m[f]? = some record) : record.chunks.length ≤ 2 ^ 31 - 1 :=
  h (f, record) (Map.mem_toList.mpr hf)

/-- A count that was filled in is zero only for a file without records. -/
lemma fillFileCount_spec {n : Int} (hlo : 0 ≤ n) (hhi : n ≤ 2 ^ 31 - 1) {chunks : List ChunkRecord}
    (hlen : chunks.length ≤ 2 ^ 31 - 1) :
    0 ≤ fillFileCount n chunks ∧ fillFileCount n chunks ≤ 2 ^ 31 - 1 ∧
      (fillFileCount n chunks = 0 → chunks = []) := by
  unfold fillFileCount
  split_ifs with h
  · obtain ⟨hpos, hle⟩ := firstCount_range h.2
    exact ⟨by omega, by omega, fun hzero => by omega⟩
  · refine ⟨hlo, hhi, fun hzero => ?_⟩
    by_contra hne
    exact h ⟨hzero.le, hne⟩

/-- What an upload commits can be read back. -/
lemma UploadCommit.persistable (u : UploadCommit)
    (hlen : u.committed.chunks.length ≤ 2 ^ 31 - 1) : u.committed.Persistable := by
  have hlen' : (u.chunks.map (·.readAs)).length ≤ 2 ^ 31 - 1 := by
    simpa [UploadCommit.committed, recount] using hlen
  obtain ⟨hnonneg, hle, hnil⟩ := fillFileCount_spec u.factor_nonneg u.factor_le hlen'
  refine ⟨u.hash, hnonneg, hle, fun hzero => ?_, recount_recount _, readable_recount ?_⟩
  · simp only [UploadCommit.committed] at hzero ⊢
    rw [hnil hzero]
    rfl
  · intro cr hcr
    obtain ⟨c, hc, rfl⟩ := List.mem_map.mp hcr
    obtain ⟨hlo, hhi, hserver, hpath, hsum⟩ := u.readable c hc
    exact ⟨hlo, hhi, hserver, hpath, hsum⟩

/-- Replacing the records of a server by records that can be read back. -/
lemma FileRecord.Persistable.replaceIn {record : FileRecord} (h : record.Persistable)
    (dead : Bytes) {new : List ChunkRecord} (hnew : ∀ cr ∈ new, cr.Readable)
    (hlen : (MetadataMap.replaceIn dead new record).chunks.length ≤ 2 ^ 31 - 1) :
    (MetadataMap.replaceIn dead new record).Persistable := by
  have hreadable : ∀ cr ∈ MetadataMap.withoutServer dead record.chunks ++ new, cr.Readable := by
    intro cr hcr
    rcases List.mem_append.mp hcr with hcr | hcr
    · exact h.readable cr (List.mem_of_mem_filter hcr)
    · exact hnew cr hcr
  have hlen' : (MetadataMap.withoutServer dead record.chunks ++ new).length ≤ 2 ^ 31 - 1 := by
    simpa [MetadataMap.replaceIn, recount] using hlen
  by_cases hne : MetadataMap.withoutServer dead record.chunks ++ new ≠ []
  · obtain ⟨hpos, hle⟩ := firstCount_range hne
    have hcount : (MetadataMap.replaceIn dead new record).replicaCount =
        firstCount (MetadataMap.withoutServer dead record.chunks ++ new) := if_pos hne
    refine ⟨h.hash, by omega, by omega, fun hzero => by omega, recount_recount _,
      readable_recount hreadable⟩
  · have hcount : (MetadataMap.replaceIn dead new record).replicaCount = record.replicaCount :=
      if_neg hne
    refine ⟨h.hash, hcount ▸ h.count_nonneg, hcount ▸ h.count_le, fun _ => ?_, recount_recount _,
      readable_recount hreadable⟩
    simp only [MetadataMap.replaceIn, not_not.mp hne]
    rfl

lemma FileRecord.Persistable.withoutServer {record : FileRecord} (h : record.Persistable)
    (server : Bytes) :
    FileRecord.Persistable
      { record with chunks := recount (MetadataMap.withoutServer server record.chunks) } := by
  refine ⟨h.hash, h.count_nonneg, h.count_le, fun hzero => ?_, recount_recount _,
    readable_recount fun cr hcr => h.readable cr (List.mem_of_mem_filter hcr)⟩
  simp only [h.uncounted hzero]
  rfl

namespace MetadataOp

/-- The operations as the head calls them: uploads commit what their transfers stored, and the
records of a failover have words for their fields. -/
def Valid : MetadataOp → Prop
  | .createEntry request => ∃ u : UploadCommit, request = u.request
  | .deleteEntry _ => True
  | .atomicReplaceServerChunks _ updates =>
      ∀ p ∈ updates.toList, ∀ cr ∈ p.2, cr.Readable
  | .deleteServerMetadata _ => True

end MetadataOp

/-- **Every operation keeps the store readable.** -/
theorem persistable_step {m : MetadataMap} (hm : Persistable m) {op : MetadataOp} (hop : op.Valid)
    (hfits : FitsInt (op.apply m)) : Persistable (op.apply m) := by
  intro f record hf
  have hlen := hfits.get hf
  cases op with
  | createEntry request =>
      obtain ⟨u, rfl⟩ := hop
      simp only [MetadataOp.apply, u.createEntry_request, Map.get_insert] at hf
      split_ifs at hf with hfu
      · cases hf
        exact ⟨hfu ▸ u.name, u.persistable hlen⟩
      · exact hm f record hf
  | deleteEntry fileName =>
      simp only [MetadataOp.apply, MetadataMap.deleteEntry] at hf
      split_ifs at hf
      · exact hm f record hf
      · rw [MetadataMap.removeFile, Map.get_erase] at hf
        split_ifs at hf
        exact hm f record hf
  | atomicReplaceServerChunks dead updates =>
      simp only [MetadataOp.apply, MetadataMap.atomicReplaceServerChunks,
        Map.get_foldl_modify_toList, Option.map_eq_some_iff] at hf
      obtain ⟨old, hold, hrecord⟩ := hf
      obtain ⟨hname, hpersistable⟩ := hm f old hold
      cases hnew : updates[f]? with
      | none =>
          rw [hnew] at hrecord
          exact ⟨hname, hrecord ▸ hpersistable⟩
      | some new =>
          rw [hnew] at hrecord
          cases hrecord
          exact ⟨hname, hpersistable.replaceIn dead
            (hop (f, new) (Map.mem_toList.mpr hnew)) hlen⟩
  | deleteServerMetadata server =>
      simp only [MetadataOp.apply, MetadataMap.deleteServerMetadata, Map.get_map,
        Option.map_eq_some_iff] at hf
      obtain ⟨old, hold, rfl⟩ := hf
      exact ⟨(hm f old hold).1, (hm f old hold).2.withoutServer server⟩

/-! ## A restart -/

/-- The guard of a step: the operation is one the head makes, and its counts are `int`s. -/
def MetadataGuard (s : MetadataState) (ev : MetadataOp × Schedule) : Prop :=
  ev.1.Valid ∧ FitsInt (ev.1.apply s.store)

/-- What holds between two operations: the file says what the store says. -/
structure OnDisk (s : MetadataState) : Prop where
  persistable : Persistable s.store
  loads : loadFromDisk s.disk = s.store

lemma onDisk_empty : OnDisk {} where
  persistable := fun f record hf => by simp at hf
  loads := by
    refine Std.ExtTreeMap.ext_getElem? fun f => ?_
    simp [loadFromDisk, lines]

lemma onDisk_step {s : MetadataState} {ev : MetadataOp × Schedule} (hs : OnDisk s)
    (hguard : MetadataGuard s ev) : OnDisk (metadataStep s ev) := by
  have hstore := persistable_step hs.persistable hguard.1 hguard.2
  refine ⟨hstore, ?_⟩
  cases hpersists : ev.1.persists with
  | true =>
      simp only [metadataStep, hpersists, if_true]
      exact loadFromDisk_persistLocked ev.2 hstore
  | false =>
      -- only `delete_entry` of the empty name returns without writing
      have hsame : ev.1.apply s.store = s.store := by
        obtain ⟨op, order⟩ := ev
        cases op with
        | deleteEntry fileName =>
            have hnil : fileName = [] := by simpa [MetadataOp.persists] using hpersists
            simp [MetadataOp.apply, MetadataMap.deleteEntry, hnil]
        | createEntry request => cases hpersists
        | atomicReplaceServerChunks dead updates => cases hpersists
        | deleteServerMetadata server => cases hpersists
      simp only [metadataStep, hpersists, Bool.false_eq_true, if_false, hsame]
      exact hs.loads

/-- **The metadata survives a restart.**  After any operations of the head from an empty store,
what `load_from_disk` reads is the store in memory: the same files, with the same hash, count and
records. -/
theorem metadata_survives_restart {evs : List (MetadataOp × Schedule)}
    (hrun : AlongRun metadataStep MetadataGuard {} evs) :
    loadFromDisk (evs.foldl metadataStep {}).disk = (evs.foldl metadataStep {}).store :=
  (foldl_invariant OnDisk (fun _ _ => onDisk_step) onDisk_empty hrun).loads

/-- An upload of one chunk to two servers. -/
def smallCommit : UploadCommit where
  filename := ascii "f"
  fileHash := ascii "9f86"
  replicationFactor := 2
  pending := [⟨0, ascii "10.0.0.1:8080", [65], ascii "559a"⟩,
    ⟨0, ascii "10.0.0.2:8080", [65], ascii "559a"⟩]
  outcomes := [some (ascii "/c/1.dat"), some (ascii "/c/2.dat")]
  name := by decide
  hash := by decide
  factor_nonneg := by decide
  factor_le := by decide
  readable := by decide +kernel

/-- The replica on the first server, copied to a third. -/
def smallUpdates : Map Bytes (List ChunkRecord) :=
  (∅ : Map Bytes (List ChunkRecord)).insert (ascii "f")
    [{ chunkId := 0, server := ascii "10.0.0.3:8080", path := ascii "/c/3.dat",
       checksum := ascii "559a", replicaCount := 2 }]

/-- An upload, a failover, and the deletion of a file that is not there. -/
def smallOps : List (MetadataOp × Schedule) :=
  [(.createEntry smallCommit.request, .inOrder),
    (.atomicReplaceServerChunks (ascii "10.0.0.1:8080") smallUpdates, .inOrder),
    (.deleteServerMetadata (ascii "10.0.0.1:8080"), .inOrder),
    (.deleteEntry (ascii "g"), .inOrder)]

theorem metadata_survives_restart_instance :
    loadFromDisk (smallOps.foldl metadataStep {}).disk = (smallOps.foldl metadataStep {}).store :=
  metadata_survives_restart
    ⟨⟨⟨smallCommit, rfl⟩, by decide +kernel⟩,
      ⟨show ∀ p ∈ smallUpdates.toList, ∀ cr ∈ p.2, cr.Readable from by decide +kernel,
        by decide +kernel⟩,
      ⟨trivial, by decide +kernel⟩, ⟨trivial, by decide +kernel⟩, trivial⟩

end FileGrid
