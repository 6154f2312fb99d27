import FileGrid.Metadata.CrashAtomic

/-!
# Chunk lines across a restart

`create_entry` takes a chunk line of three fields: the checksum is then empty, and the count is
filled in.  `persist_locked` writes five fields all the same, with nothing between the blanks around
the checksum, and `load_from_disk`, which skips blanks, takes the count for the checksum.

* `ChunkRecord.reloaded` is what the reader makes of one line, and `placementsOf_reload` what it
  makes of the whole text: of every record of every file, in order, that.  It needs little of the
  store (`Acceptable`): names that are words, and records as `create_entry` makes them.  The hash
  may be anything without a newline in it, and the counts do not matter.
* A name that is not a word is not read back at all (`word_of_loadFromDisk`).

**`chunk_lines_survive_restart_iff`** puts the two together: for any requests, the records of a file
come back exactly if its name is a word and none of its lines lacks the checksum.
-/

namespace FileGrid

/-! ## One line -/

/-- A record as `create_entry` reads it off a line; the checksum may be missing. -/
structure Placement.Accepted (p : Placement) : Prop where
  id_lo : -2 ^ 63 ≤ p.chunkId
  id_hi : p.chunkId ≤ 2 ^ 63 - 1
  server : Word p.server
  path : Word p.path
  checksum : ∀ b ∈ p.checksum, isSpace b = false

/-- The placement that is read back: the count stands in for a checksum that is missing. -/
def ChunkRecord.reloaded (cr : ChunkRecord) : Placement :=
  { cr.placement with checksum := if cr.checksum = [] then dec cr.replicaCount else cr.checksum }

lemma ChunkRecord.reloaded_eq_iff {cr : ChunkRecord} :
    cr.reloaded = cr.placement ↔ cr.checksum ≠ [] := by
  constructor
  · intro h hnil
    have hsum := congrArg Placement.checksum h
    simp only [ChunkRecord.reloaded, ChunkRecord.placement, hnil] at hsum
    exact (word_dec _).1 hsum
  · intro hne
    simp only [ChunkRecord.reloaded, if_neg hne]
    rfl

/-- What `load_from_disk` reads after the identifier. -/
lemma loadRecord_of_accepted {cr : ChunkRecord} (h : cr.placement.Accepted) :
    ∃ r, loadRecord cr.chunkId (32 :: (cr.server ++ 32 :: (cr.path ++ 32 :: (cr.checksum ++
      32 :: dec cr.replicaCount)))) = some r ∧ r.placement = cr.reloaded := by
  have hserver : Word cr.server := h.server
  have hpath : Word cr.path := h.path
  rcases eq_nil_or_word (w := cr.checksum) h.checksum with hsum | hsum
  · -- both blanks are skipped, and the count is the next word
    refine ⟨⟨cr.chunkId, cr.server, cr.path, dec cr.replicaCount, 1⟩, ?_, ?_⟩
    · simp only [loadRecord, hsum, List.nil_append, readWord_blank, readWord_field hserver,
        readWord_field hpath, readWord_last (word_dec _), Option.bind_eq_bind, Option.bind_some]
      rfl
    · simp only [ChunkRecord.reloaded, if_pos hsum]
      rfl
  · refine ⟨cr.loaded, ?_, (ChunkRecord.reloaded_eq_iff.mpr hsum.1).symm⟩
    simp only [loadRecord, readWord_blank, readWord_field hserver, readWord_field hpath,
      readWord_field hsum, Option.bind_eq_bind, Option.bind_some]
    rfl

lemma placementsOf_insert (m : MetadataMap) (name : Bytes) (record : FileRecord) (f : Bytes) :
    MetadataMap.placementsOf (m.insert name record) f =
      if f = name then record.placements else m.placementsOf f := by
  simp only [MetadataMap.placementsOf, Map.get_insert]
  split_ifs
  · rfl
  · rfl

lemma placementsOf_insert_same (m : MetadataMap) {name : Bytes} {record : FileRecord}
    (h : record.chunks = (m.getChunks name).chunks) (f : Bytes) :
    MetadataMap.placementsOf (m.insert name record) f = m.placementsOf f := by
  rw [placementsOf_insert]
  split_ifs with hf
  · rw [hf, FileRecord.placements, h]
    exact MetadataMap.placements_getChunks m name
  · rfl

lemma placementsOf_loadLine_hash {name : Bytes} (hname : Word name) (fileHash : Bytes)
    (m : MetadataMap) (f : Bytes) :
    (loadLine m (hashLine name fileHash)).placementsOf f = m.placementsOf f := by
  have htag : Word (ascii "HASH=") := by decide
  simp only [loadLine, hashLine, readWord_field hname, readWord_blank,
    readWord_append_takeWhile htag, List.prefix_append, if_true]
  refine placementsOf_insert_same m ?_ f
  rfl

lemma placementsOf_loadLine_replicas {name : Bytes} (hname : Word name) (n : Int) (m : MetadataMap)
    (f : Bytes) : (loadLine m (replicasLine name n)).placementsOf f = m.placementsOf f := by
  have htoken : Word (ascii "REPLICAS=" ++ dec n) := Word.append (by decide) (word_dec n).2
  simp only [loadLine, replicasLine, readWord_field hname, readWord_blank, readWord_last htoken,
    not_hash_prefix_replicas, List.prefix_append, if_true, if_false]
  cases stoi ((ascii "REPLICAS=" ++ dec n).drop 9) with
  | none => rfl
  | some n =>
      refine placementsOf_insert_same m ?_ f
      rfl

lemma placementsOf_loadLine_record {name : Bytes} (hname : Word name) {cr : ChunkRecord}
    (hcr : cr.placement.Accepted) (m : MetadataMap) (f : Bytes) :
    (loadLine m (recordLine name cr)).placementsOf f =
      m.placementsOf f ++ if f = name then [cr.reloaded] else [] := by
  obtain ⟨r, hrecord, hr⟩ := loadRecord_of_accepted hcr
  rw [loadLine_of_loadRecord hname hcr.id_lo hcr.id_hi hrecord, placementsOf_insert]
  split_ifs with hf
  · rw [hf, ← MetadataMap.placements_getChunks, ← hr]
    simp [FileRecord.placements]
  · rw [List.append_nil]

/-! ## One file, and all of them -/

lemma placementsOf_foldl_records {name : Bytes} (hname : Word name) {crs : List ChunkRecord}
    (hcrs : ∀ cr ∈ crs, cr.placement.Accepted) (m : MetadataMap) (f : Bytes) :
    ((crs.map (recordLine name)).foldl loadLine m).placementsOf f =
      m.placementsOf f ++ if f = name then crs.map (·.reloaded) else [] := by
  induction crs generalizing m with
  | nil => simp
  | cons cr crs ih =>
      rw [List.map_cons, List.foldl_cons, ih fun c hc => hcrs c (List.mem_cons_of_mem _ hc),
        placementsOf_loadLine_record hname (hcrs cr List.mem_cons_self)]
      split_ifs
      · simp
      · simp

/-- The lines of a file append its records, as they are read back, to what there is. -/
lemma placementsOf_foldl_fileLines {name : Bytes} (hname : Word name) {record : FileRecord}
    (hchunks : ∀ cr ∈ record.chunks, cr.placement.Accepted) (m : MetadataMap) (f : Bytes) :
    ((fileLines name record).foldl loadLine m).placementsOf f =
      m.placementsOf f ++ if f = name then record.chunks.map (·.reloaded) else [] := by
  rw [fileLines, List.foldl_append, List.foldl_append, placementsOf_foldl_records hname hchunks]
  congr 1
  split_ifs
  · rw [List.foldl_cons, List.foldl_nil, List.foldl_cons, List.foldl_nil,
      placementsOf_loadLine_replicas hname, placementsOf_loadLine_hash hname]
  · rw [List.foldl_cons, List.foldl_nil, List.foldl_nil, placementsOf_loadLine_hash hname]
  · rw [List.foldl_cons, List.foldl_nil, List.foldl_nil, placementsOf_loadLine_replicas hname]
  · rfl

/-- A file of a store that only `create_entry` fills. -/
structure Acceptable (name : Bytes) (record : FileRecord) : Prop where
  name : Word name
  hash : (10 : UInt8) ∉ record.fileHash
  chunks : ∀ cr ∈ record.chunks, cr.placement.Accepted

lemma separable_of_acceptable {m : MetadataMap}
    (hm : ∀ (f : Bytes) record, m[f]? = some record → Acceptable f record) : Separable m := by
  intro f record hf
  obtain ⟨hname, hhash, hchunks⟩ := hm f record hf
  refine ⟨hname, newline_not_mem_fileLines hname.not_mem_newline hhash fun cr hcr => ?_⟩
  have hfields := hchunks cr hcr
  exact ⟨hfields.server.not_mem_newline, hfields.path.not_mem_newline,
    not_mem_newline_of_noSpace hfields.checksum⟩

/-- **What a restart does to the placements of every file.** -/
theorem placementsOf_reload (order : Schedule) {m : MetadataMap}
    (hm : ∀ (f : Bytes) record, m[f]? = some record → Acceptable f record) (f : Bytes) :
    (loadFromDisk (persistLocked order m)).placementsOf f =
      (m.getChunks f).chunks.map (·.reloaded) := by
  have hsettled : ∀ record, (settleCounts record).placements = record.placements := by
    intro record
    simp only [FileRecord.placements, chunks_settleCounts, placements_recount]
  have hsep := separable_of_acceptable hm
  rw [MetadataMap.placementsOf, MetadataMap.getChunks]
  cases hf : m[f]? with
  | none =>
      rw [loadFromDisk_persistLocked_none order hsep hf]
      rfl
  | some record =>
      obtain ⟨hname, -, hchunks⟩ := hm f record hf
      obtain ⟨before, hbefore, hread⟩ := loadFromDisk_persistLocked_some order hsep hf
      have hlines := placementsOf_foldl_fileLines hname hchunks before f
      rw [MetadataMap.placementsOf, MetadataMap.placementsOf, hbefore, if_pos rfl] at hlines
      rw [hread, Option.map_map]
      simpa [Function.comp_def, hsettled] using hlines

/-! ## What requests leave -/

lemma accepted_of_parseChunkLine {line : Bytes} {r : ChunkRecord}
    (h : parseChunkLine line = some r) : r.placement.Accepted := by
  obtain ⟨hid, -⟩ := range_of_parseChunkLine h
  obtain ⟨hserver, hpath⟩ := word_of_parseChunkLine h
  exact ⟨hid.1, hid.2, hserver, hpath, noSpace_checksum_of_parseChunkLine h⟩

lemma takeHeader_subset (tag : Bytes) (ls : List Bytes) :
    (∀ v ∈ (takeHeader tag ls).1, ∃ l ∈ ls, v ⊆ l) ∧ (takeHeader tag ls).2 ⊆ ls := by
  cases ls with
  | nil => simp [takeHeader]
  | cons l ls =>
      rw [takeHeader]
      split_ifs
      · refine ⟨?_, List.subset_cons_self l ls⟩
        rintro v hv
        cases hv
        exact ⟨l, List.mem_cons_self, List.drop_subset _ _⟩
      · exact ⟨by simp, List.Subset.refl _⟩

/-- The hash of a request stands on one of its lines, and so do its records. -/
lemma acceptable_parseOnDisk (request : Bytes) :
    (10 : UInt8) ∉ (parseOnDisk request).fileHash ∧
      ∀ r ∈ (parseOnDisk request).chunks, r.placement.Accepted := by
  constructor
  · simp only [parseOnDisk]
    generalize hraw : ((lines request).drop 1).filter (· ≠ []) = raw
    have hlines : ∀ l ∈ (takeHeader (ascii "TTL=") raw).2, (10 : UInt8) ∉ l := by
      intro l hl
      have hmem : l ∈ raw := (takeHeader_subset _ raw).2 hl
      rw [← hraw] at hmem
      exact lines_newline_not_mem request l (List.mem_of_mem_drop (List.mem_of_mem_filter hmem))
    have hhash := (takeHeader_subset (ascii "HASH=") (takeHeader (ascii "TTL=") raw).2).1
    cases hv : (takeHeader (ascii "HASH=") (takeHeader (ascii "TTL=") raw).2).1 with
    | none => simp
    | some v =>
        obtain ⟨l, hl, hsub⟩ := hhash v hv
        exact fun hmem => hlines l hl (hsub hmem)
  · intro r hr
    simp only [parseOnDisk] at hr
    obtain ⟨line, -, hline⟩ := List.mem_filterMap.mp hr
    exact accepted_of_parseChunkLine hline

lemma createEntry_insert (m : MetadataMap) (request : Bytes) :
    ∃ record, createEntry m request = m.insert (parseOnDisk request).fileName record ∧
      record.fileHash = (parseOnDisk request).fileHash ∧
      record.placements = (parseOnDisk request).chunks.map (·.placement) := by
  refine ⟨_, rfl, rfl, ?_⟩
  simp only [FileRecord.placements, placements_fillCounts]

/-- **A request with a word for its name leaves an acceptable store.** -/
lemma acceptable_createEntry {m : MetadataMap}
    (hm : ∀ (f : Bytes) record, m[f]? = some record → Acceptable f record) {request : Bytes}
    (hname : Word (parseOnDisk request).fileName) (f : Bytes) (record : FileRecord)
    (hf : (createEntry m request)[f]? = some record) : Acceptable f record := by
  obtain ⟨new, hstore, hhash, hplacements⟩ := createEntry_insert m request
  obtain ⟨hnewline, haccepted⟩ := acceptable_parseOnDisk request
  rw [hstore, Map.get_insert] at hf
  split_ifs at hf with hfname
  · obtain rfl : new = record := Option.some.inj hf
    refine ⟨hfname ▸ hname, hhash ▸ hnewline, ?_⟩
    intro cr hcr
    have hmem : cr.placement ∈ new.placements := List.mem_map_of_mem hcr
    rw [hplacements] at hmem
    obtain ⟨r, hr, heq⟩ := List.mem_map.mp hmem
    exact heq ▸ haccepted r hr
  · exact hm f record hf

lemma acceptable_foldl {requests : List Bytes}
    (hnames : ∀ r ∈ requests, Word (parseOnDisk r).fileName) (f : Bytes) (record : FileRecord)
    (hf : (requests.foldl createEntry ∅)[f]? = some record) : Acceptable f record := by
  refine List.foldlRecOn
    (motive := fun m : MetadataMap =>
      ∀ (f : Bytes) record, m[f]? = some record → Acceptable f record)
    requests createEntry ?_ ?_ f record hf
  · intro g record hg
    simp at hg
  · intro m hm request hrequest
    exact acceptable_createEntry hm (hnames request hrequest)

/-- Requests for other files leave a file alone. -/
lemma get_foldl_createEntry_of_ne {f : Bytes} {requests : List Bytes}
    (hother : ∀ r ∈ requests, (parseOnDisk r).fileName ≠ f) (m : MetadataMap) :
    (requests.foldl createEntry m)[f]? = m[f]? := by
  refine List.foldlRecOn (motive := fun m' : MetadataMap => m'[f]? = m[f]?) requests createEntry
    rfl ?_
  intro m' hm' request hrequest
  obtain ⟨record, hstore, -⟩ := createEntry_insert m' request
  rw [hstore, Map.get_insert, if_neg (Ne.symm (hother request hrequest)), hm']

/-- The requests that make up the store: some request, in between others, that is the last for its
file. -/
def requestsAround (earlier : List Bytes) (request : Bytes) (later : List Bytes) : MetadataMap :=
  (earlier ++ request :: later).foldl createEntry ∅

lemma placementsOf_requestsAround {earlier later : List Bytes} {request : Bytes}
    (hlater : ∀ r ∈ later, (parseOnDisk r).fileName ≠ (parseOnDisk request).fileName) :
    (requestsAround earlier request later).placementsOf (parseOnDisk request).fileName =
      (parseOnDisk request).chunks.map (·.placement) := by
  obtain ⟨record, hstore, -, hplacements⟩ :=
    createEntry_insert (earlier.foldl createEntry ∅) request
  rw [MetadataMap.placementsOf, requestsAround, List.foldl_append, List.foldl_cons,
    get_foldl_createEntry_of_ne hlater, hstore, Map.get_insert, if_pos rfl, Option.map_some,
    Option.getD_some, hplacements]

/-- **The chunk lines of a request survive a restart exactly if** the name of the file is a word,
and every line has its checksum.  (A request without a name, or without chunk lines, has nothing to
lose.) -/
theorem chunk_lines_survive_restart_iff {earlier later : List Bytes}
    (hearlier : ∀ r ∈ earlier, Word (parseOnDisk r).fileName)
    (hlater : ∀ r ∈ later, Word (parseOnDisk r).fileName) (request : Bytes)
    (hlast : ∀ r ∈ later, (parseOnDisk r).fileName ≠ (parseOnDisk request).fileName)
    (order : Schedule) :
    let name := (parseOnDisk request).fileName
    let store := requestsAround earlier request later
    ((loadFromDisk (persistLocked order store)).queryMetadata name).placements =
        (store.queryMetadata name).placements ↔
      name = [] ∨ ∀ r ∈ (parseOnDisk request).chunks, Word name ∧ r.checksum ≠ [] := by
  intro name store
  have hbefore : store.placementsOf name = (parseOnDisk request).chunks.map (·.placement) :=
    placementsOf_requestsAround hlast
  by_cases hnil : name = []
  · refine iff_of_true ?_ (Or.inl hnil)
    simp only [MetadataMap.queryMetadata, if_pos hnil]
  rw [MetadataMap.placements_queryMetadata _ hnil, MetadataMap.placements_queryMetadata _ hnil,
    or_iff_right hnil]
  by_cases hname : Word name
  · have hwords : ∀ r ∈ earlier ++ request :: later, Word (parseOnDisk r).fileName := by
      intro r hr
      rcases List.mem_append.mp hr with hr | hr
      · exact hearlier r hr
      · rcases List.mem_cons.mp hr with rfl | hr
        · exact hname
        · exact hlater r hr
    have hsame : (store.getChunks name).chunks.map (·.placement) =
        (parseOnDisk request).chunks.map (·.placement) := by
      rw [← hbefore, ← MetadataMap.placements_getChunks]
      rfl
    have hsums : (∀ cr ∈ (store.getChunks name).chunks, cr.checksum ≠ []) ↔
        ∀ r ∈ (parseOnDisk request).chunks, r.checksum ≠ [] := by
      have hall := congrArg (fun l : List Placement => ∀ p ∈ l, p.checksum ≠ []) hsame
      simp only [List.forall_mem_map] at hall
      exact iff_of_eq hall
    have hstore : ∀ (f : Bytes) record, store[f]? = some record → Acceptable f record :=
      acceptable_foldl hwords
    rw [placementsOf_reload order hstore, hbefore, ← hsame, List.map_inj_left]
    simp only [ChunkRecord.reloaded_eq_iff, hsums, hname, true_and]
  · -- the file is not there after the restart
    have hgone : (loadFromDisk (persistLocked order store)).placementsOf name = [] := by
      rw [MetadataMap.placementsOf]
      cases hget : (loadFromDisk (persistLocked order store))[name]? with
      | none => rfl
      | some record => exact absurd (word_of_loadFromDisk (by rw [hget]; rfl)) hname
    rw [hgone, hbefore]
    simp only [hname, false_and]
    rw [eq_comm, List.map_eq_nil_iff, List.eq_nil_iff_forall_not_mem]

/-- Two files: one chunk line with a checksum and a count, one with a checksum. -/
def fullRequests : List Bytes :=
  [ascii "f\nHASH=9f86\n0 10.0.0.1:8080 /c/1.dat 559a 2\n",
    ascii "g\nHASH=9f86\n0 10.0.0.1:8080 /c/2.dat 559a\n"]

theorem chunk_lines_survive_restart_full :
    let store := requestsAround [] (fullRequests.headD []) fullRequests.tail
    ((loadFromDisk (persistLocked .inOrder store)).queryMetadata (ascii "f")).placements =
      (store.queryMetadata (ascii "f")).placements :=
  (chunk_lines_survive_restart_iff (by decide) (by decide +kernel) (fullRequests.headD [])
    (by decide +kernel) .inOrder).mpr (Or.inr (by decide +kernel))

/-- A chunk line of three fields: after the restart its checksum is `1`. -/
theorem chunk_line_without_checksum_changes :
    let store := requestsAround [] (ascii "f\nHASH=9f86\n0 10.0.0.1:8080 /c/1.dat\n") []
    ((loadFromDisk (persistLocked .inOrder store)).queryMetadata (ascii "f")).placements ≠
      (store.queryMetadata (ascii "f")).placements := by
  decide +kernel

end FileGrid
