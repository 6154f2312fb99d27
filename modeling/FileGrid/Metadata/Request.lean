import FileGrid.Metadata.Store

/-!
# The metadata request

An upload commits its metadata as a text: `FileChunker::store_metadata` writes the name of the
file, three header lines and one line per stored replica, and `create_entry` of the on-disk
backend takes that text apart again with `std::getline` and `>>`.

What arrives is what was written as far as the fields are words.  `placementsOf_storeMetadata` says
what a commit does to the placements of every file in general: the file gets what each line reads
back as (`readBack`).  A replica whose server and path are words is read back as itself
(`readBack_eq`), and whatever is read back has words for its server and path
(`word_of_mem_readBack`), so a field with a blank in it is not recovered.
-/

namespace FileGrid

/-- `ChunkInfo`: a stored replica, as the upload handler hands it over. -/
structure ChunkInfo where
  chunkId : Int
  serverIp : Bytes
  filePath : Bytes
  size : Nat
  checksum : Bytes
  replicaCount : Int := 1
deriving DecidableEq

def ChunkInfo.placement (c : ChunkInfo) : Placement :=
  { chunkId := c.chunkId, server := c.serverIp, path := c.filePath, checksum := c.checksum }

/-! ## The writer and the reader -/

/-- The line of one replica, without its newline. -/
def chunkLine (c : ChunkInfo) : Bytes :=
  dec c.chunkId ++ 32 :: (c.serverIp ++ 32 :: (c.filePath ++ 32 :: (c.checksum ++
    32 :: dec c.replicaCount)))

/-- The request `store_metadata` builds. -/
def metadataRequest (filename : Bytes) (chunks : List ChunkInfo) (fileHash : Bytes)
    (replicationFactor : Int) : Bytes :=
  filename ++ 10 :: (ascii "TTL=3600" ++ 10 :: (ascii "HASH=" ++ fileHash ++ 10 ::
    (ascii "REPLICAS=" ++ dec replicationFactor ++ 10 ::
      chunks.flatMap fun c => chunkLine c ++ [10])))

/-- One header line: if the first line begins with the tag, what follows it, and the other
lines. -/
def takeHeader (tag : Bytes) : List Bytes → Option Bytes × List Bytes
  | [] => (none, [])
  | l :: ls => if tag <+: l then (some (l.drop tag.length), ls) else (none, l :: ls)

/-- A chunk line; checksum and count may be missing. -/
def parseChunkLine (line : Bytes) : Option ChunkRecord := do
  let (chunkId, rest) ← readI64 line
  let (server, rest) ← readWord rest
  let (path, rest) ← readWord rest
  match readWord rest with
  | none => return { chunkId, server, path, checksum := [], replicaCount := 0 }
  | some (checksum, rest) =>
      return { chunkId, server, path, checksum
               replicaCount := ((readI32 rest).map (·.1)).getD 0 }

/-- What `create_entry` reads off a request, before it fills in the counts that are missing. -/
structure ParsedRequest where
  fileName : Bytes
  fileHash : Bytes
  replicaCount : Int
  chunks : List ChunkRecord
deriving DecidableEq

/-- The parser of the on-disk backend: the header lines come in a fixed order, each if it is
there. -/
def parseOnDisk (request : Bytes) : ParsedRequest :=
  let ls := lines request
  let rawLines := (ls.drop 1).filter (· ≠ [])
  let (_, rawLines) := takeHeader (ascii "TTL=") rawLines
  let (hash, rawLines) := takeHeader (ascii "HASH=") rawLines
  let (replicas, rawLines) := takeHeader (ascii "REPLICAS=") rawLines
  { fileName := ls.headD []
    fileHash := hash.getD []
    replicaCount := (replicas.bind stoi).getD 0
    chunks := rawLines.filterMap parseChunkLine }

/-- `create_entry` of the on-disk backend. -/
def createEntry (m : MetadataMap) (request : Bytes) : MetadataMap :=
  let parsed := parseOnDisk request
  m.replaceFileChunks parsed.fileName parsed.fileHash (fillCounts parsed.chunks)
    (fillFileCount parsed.replicaCount parsed.chunks)

/-- `store_metadata`. -/
def storeMetadata (m : MetadataMap) (filename : Bytes) (chunks : List ChunkInfo)
    (fileHash : Bytes) (replicationFactor : Int) : MetadataMap :=
  createEntry m (metadataRequest filename chunks fileHash replicationFactor)

/-! ## What is read back -/

/-- The records that the line of one replica is read back as. -/
def readBack (c : ChunkInfo) : List ChunkRecord :=
  ((lines (chunkLine c ++ [10])).filter (· ≠ [])).filterMap parseChunkLine

lemma takeHeader_append (tag rest : Bytes) (ls : List Bytes) :
    takeHeader tag ((tag ++ rest) :: ls) = (some rest, ls) := by
  simp [takeHeader]

lemma lines_flatMap_chunkLine (chunks : List ChunkInfo) :
    lines (chunks.flatMap fun c => chunkLine c ++ [10]) =
      chunks.flatMap fun c => lines (chunkLine c ++ [10]) := by
  induction chunks with
  | nil => rfl
  | cons c chunks ih =>
      rw [List.flatMap_cons, List.flatMap_cons, List.append_assoc, List.singleton_append,
        lines_append_newline, ih]

lemma lines_metadataRequest {filename fileHash : Bytes} (chunks : List ChunkInfo)
    (replicationFactor : Int) (hname : (10 : UInt8) ∉ filename) (hhash : (10 : UInt8) ∉ fileHash) :
    lines (metadataRequest filename chunks fileHash replicationFactor) =
      filename :: ascii "TTL=3600" :: (ascii "HASH=" ++ fileHash) ::
        (ascii "REPLICAS=" ++ dec replicationFactor) ::
          chunks.flatMap fun c => lines (chunkLine c ++ [10]) := by
  have hhash' : (10 : UInt8) ∉ ascii "HASH=" ++ fileHash := by
    intro h
    rcases List.mem_append.mp h with h | h
    · revert h; decide
    · exact hhash h
  have hrep : (10 : UInt8) ∉ ascii "REPLICAS=" ++ dec replicationFactor := by
    intro h
    rcases List.mem_append.mp h with h | h
    · revert h; decide
    · exact (word_dec _).not_mem_newline h
  rw [metadataRequest, lines_append _ hname, lines_append _ (by decide), lines_append _ hhash',
    lines_append _ hrep, lines_flatMap_chunkLine]

/-- **What the on-disk backend reads off a request of `store_metadata`.** -/
theorem parseOnDisk_metadataRequest {filename fileHash : Bytes} (chunks : List ChunkInfo)
    (replicationFactor : Int) (hname : (10 : UInt8) ∉ filename) (hhash : (10 : UInt8) ∉ fileHash) :
    parseOnDisk (metadataRequest filename chunks fileHash replicationFactor) =
      { fileName := filename
        fileHash
        replicaCount := (stoi (dec replicationFactor)).getD 0
        chunks := chunks.flatMap readBack } := by
  have hkeep : ∀ (tag s : Bytes) (ls : List Bytes), tag ≠ [] →
      ((tag ++ s) :: ls).filter (· ≠ []) = (tag ++ s) :: ls.filter (· ≠ []) := by
    intro tag s ls htag
    exact List.filter_cons_of_pos (by simp [htag])
  have hraw : ((chunks.flatMap fun c => lines (chunkLine c ++ [10])).filter (· ≠ [])).filterMap
      parseChunkLine = chunks.flatMap readBack := by
    rw [List.filter_flatMap, List.filterMap_flatMap]
    rfl
  rw [parseOnDisk, lines_metadataRequest chunks replicationFactor hname hhash]
  simp only [List.headD_cons, List.drop_one, List.tail_cons]
  rw [show ascii "TTL=3600" = ascii "TTL=" ++ ascii "3600" from by decide, hkeep _ _ _ (by decide),
    hkeep _ _ _ (by decide), hkeep _ _ _ (by decide)]
  simp only [takeHeader_append, hraw, Option.getD_some, Option.bind_some]

/-- **A commit replaces the records of its file by what its lines read back as.** -/
theorem storeMetadata_replaceFileChunks (m : MetadataMap) {filename fileHash : Bytes}
    (chunks : List ChunkInfo) (replicationFactor : Int) (hname : (10 : UInt8) ∉ filename)
    (hhash : (10 : UInt8) ∉ fileHash) :
    storeMetadata m filename chunks fileHash replicationFactor =
      m.replaceFileChunks filename fileHash (fillCounts (chunks.flatMap readBack))
        (fillFileCount ((stoi (dec replicationFactor)).getD 0) (chunks.flatMap readBack)) := by
  rw [storeMetadata, createEntry,
    parseOnDisk_metadataRequest chunks replicationFactor hname hhash]

/-- The same, where the count of the file does not matter. -/
lemma storeMetadata_eq (m : MetadataMap) {filename fileHash : Bytes} (chunks : List ChunkInfo)
    (replicationFactor : Int) (hname : (10 : UInt8) ∉ filename) (hhash : (10 : UInt8) ∉ fileHash) :
    ∃ n, storeMetadata m filename chunks fileHash replicationFactor =
      m.replaceFileChunks filename fileHash (fillCounts (chunks.flatMap readBack)) n :=
  ⟨_, storeMetadata_replaceFileChunks m chunks replicationFactor hname hhash⟩

/-- What a commit does to the placements of every file. -/
theorem placementsOf_storeMetadata (m : MetadataMap) {filename fileHash : Bytes}
    (chunks : List ChunkInfo) (replicationFactor : Int) (hname : (10 : UInt8) ∉ filename)
    (hhash : (10 : UInt8) ∉ fileHash) (f : Bytes) :
    (storeMetadata m filename chunks fileHash replicationFactor).placementsOf f =
      if f = filename then (chunks.flatMap readBack).map (·.placement) else m.placementsOf f := by
  obtain ⟨n, h⟩ := storeMetadata_eq m chunks replicationFactor hname hhash
  rw [h, MetadataMap.placements_replaceFileChunks, placements_fillCounts]

/-- What a line was read as tells how it was read, field by field. -/
lemma fields_of_parseChunkLine {line : Bytes} {r : ChunkRecord}
    (h : parseChunkLine line = some r) :
    ∃ s₁ s₂ s₃, readI64 line = some (r.chunkId, s₁) ∧ readWord s₁ = some (r.server, s₂) ∧
      readWord s₂ = some (r.path, s₃) ∧ (r.checksum = [] ∧ r.replicaCount = 0 ∨
        ∃ s₄, readWord s₃ = some (r.checksum, s₄) ∧
          r.replicaCount = ((readI32 s₄).map (·.1)).getD 0) := by
  simp only [parseChunkLine, Option.bind_eq_bind, Option.bind_eq_some_iff, Prod.exists] at h
  obtain ⟨chunkId, s₁, hid, server, s₂, hserver, path, s₃, hpath, hrec⟩ := h
  cases hsum : readWord s₃ with
  | none =>
      rw [hsum] at hrec
      cases hrec
      exact ⟨s₁, s₂, s₃, hid, hserver, hpath, Or.inl ⟨rfl, rfl⟩⟩
  | some p =>
      rw [hsum] at hrec
      cases hrec
      exact ⟨s₁, s₂, s₃, hid, hserver, hpath, Or.inr ⟨p.2, hsum, rfl⟩⟩

lemma word_of_parseChunkLine {line : Bytes} {r : ChunkRecord} (h : parseChunkLine line = some r) :
    Word r.server ∧ Word r.path := by
  obtain ⟨s₁, s₂, s₃, -, hserver, hpath, -⟩ := fields_of_parseChunkLine h
  exact ⟨readWord_word hserver, readWord_word hpath⟩

lemma noSpace_checksum_of_parseChunkLine {line : Bytes} {r : ChunkRecord}
    (h : parseChunkLine line = some r) : ∀ b ∈ r.checksum, isSpace b = false := by
  obtain ⟨s₁, s₂, s₃, -, -, -, ⟨hnone, -⟩ | ⟨s₄, hsum, -⟩⟩ := fields_of_parseChunkLine h
  · simp [hnone]
  · exact (readWord_word hsum).2

lemma range_of_parseChunkLine {line : Bytes} {r : ChunkRecord} (h : parseChunkLine line = some r) :
    (-2 ^ 63 ≤ r.chunkId ∧ r.chunkId ≤ 2 ^ 63 - 1) ∧ r.replicaCount ≤ 2 ^ 31 - 1 := by
  obtain ⟨s₁, s₂, s₃, hid, -, -, hcount⟩ := fields_of_parseChunkLine h
  refine ⟨readInt_range hid, ?_⟩
  rcases hcount with ⟨-, hcount⟩ | ⟨s₄, -, hcount⟩
  · simp [hcount]
  · rw [hcount]
    cases hread : readI32 s₄ with
    | none => simp
    | some q => simpa using (readInt_range hread).2

/-- The texts of a record stand in the line it was read from. -/
lemma subset_of_parseChunkLine {line : Bytes} {r : ChunkRecord} (h : parseChunkLine line = some r) :
    r.server ⊆ line ∧ r.path ⊆ line ∧ r.checksum ⊆ line := by
  obtain ⟨s₁, s₂, s₃, hid, hserver, hpath, hchecksum⟩ := fields_of_parseChunkLine h
  have h₁ := readInt_subset hid
  obtain ⟨hserver, h₂⟩ := readWord_subset hserver
  obtain ⟨hpath, h₃⟩ := readWord_subset hpath
  have h₂' := List.Subset.trans h₂ h₁
  refine ⟨List.Subset.trans hserver h₁, List.Subset.trans hpath h₂', ?_⟩
  rcases hchecksum with ⟨hnone, -⟩ | ⟨s₄, hsum, -⟩
  · simp [hnone]
  · exact List.Subset.trans (readWord_subset hsum).1 (List.Subset.trans h₃ h₂')

lemma range_of_mem_readBack {c : ChunkInfo} {r : ChunkRecord} (h : r ∈ readBack c) :
    (-2 ^ 63 ≤ r.chunkId ∧ r.chunkId ≤ 2 ^ 63 - 1) ∧ r.replicaCount ≤ 2 ^ 31 - 1 := by
  obtain ⟨line, -, hline⟩ := List.mem_filterMap.mp h
  exact range_of_parseChunkLine hline

lemma word_of_mem_readBack {c : ChunkInfo} {r : ChunkRecord} (h : r ∈ readBack c) :
    Word r.server ∧ Word r.path := by
  obtain ⟨line, -, hline⟩ := List.mem_filterMap.mp h
  exact word_of_parseChunkLine hline

/-- A line that is one line and begins with an identifier and a word is read back, if it is, as a
record on that server. -/
lemma server_of_mem_readBack {c : ChunkInfo} (hlo : -2 ^ 63 ≤ c.chunkId)
    (hhi : c.chunkId ≤ 2 ^ 63 - 1) (hserver : Word c.serverIp) (hpath : (10 : UInt8) ∉ c.filePath)
    (hsum : Word c.checksum) {r : ChunkRecord} (h : r ∈ readBack c) : r.server = c.serverIp := by
  have hline : (10 : UInt8) ∉ chunkLine c := by
    have htail := hsum.append_not_mem_newline (word_dec c.replicaCount).not_mem_newline
    refine (word_dec _).append_not_mem_newline (hserver.append_not_mem_newline fun hmem => ?_)
    rcases List.mem_append.mp hmem with hmem | hmem
    · exact hpath hmem
    · exact htail ((List.mem_cons.mp hmem).resolve_left (by decide))
  have hne : chunkLine c ≠ [] := by simp [chunkLine]
  rw [readBack, lines_append [] hline, List.filter_cons_of_pos (by simpa using hne)] at h
  obtain ⟨line, hmem, hparse⟩ := List.mem_filterMap.mp h
  obtain rfl : line = chunkLine c := by simpa [lines] using hmem
  obtain ⟨s₁, s₂, s₃, hid, hword, -⟩ := fields_of_parseChunkLine hparse
  rw [chunkLine, readI64_dec hlo hhi (stops_cons _ (by decide))] at hid
  obtain ⟨-, rfl⟩ := Prod.mk.inj (Option.some.inj hid)
  rw [readWord_space _ (show isSpace 32 = true by decide),
    readWord_append hserver (stops_cons _ (show (! isSpace 32) = false by decide))] at hword
  exact (congrArg Prod.fst (Option.some.inj hword)).symm

/-- The record a replica is read back as; a count that is no `int` is taken for none. -/
def ChunkInfo.readAs (c : ChunkInfo) : ChunkRecord :=
  { chunkId := c.chunkId, server := c.serverIp, path := c.filePath, checksum := c.checksum
    replicaCount := ((readI32 (32 :: dec c.replicaCount)).map (·.1)).getD 0 }

lemma parseChunkLine_chunkLine {c : ChunkInfo} (hlo : -2 ^ 63 ≤ c.chunkId)
    (hhi : c.chunkId ≤ 2 ^ 63 - 1) (hserver : Word c.serverIp) (hpath : Word c.filePath)
    (hsum : Word c.checksum) : parseChunkLine (chunkLine c) = some c.readAs := by
  have hspace : ∀ s : Bytes, Stops (! isSpace ·) (32 :: s) := fun s => stops_cons s (by decide)
  have hdigit : ∀ s : Bytes, Stops isDigit (32 :: s) := fun s => stops_cons s (by decide)
  have hblank : ∀ s : Bytes, readWord (32 :: s) = readWord s := fun s =>
    readWord_space s (by decide)
  simp only [parseChunkLine, chunkLine, readI64_dec hlo hhi (hdigit _), Option.bind_eq_bind,
    Option.bind_some, hblank, readWord_append hserver (hspace _), readWord_append hpath (hspace _),
    readWord_append hsum (hspace _)]
  rfl

lemma readBack_readAs {c : ChunkInfo} (hlo : -2 ^ 63 ≤ c.chunkId) (hhi : c.chunkId ≤ 2 ^ 63 - 1)
    (hserver : Word c.serverIp) (hpath : Word c.filePath) (hsum : Word c.checksum) :
    readBack c = [c.readAs] := by
  have hline : (10 : UInt8) ∉ chunkLine c :=
    (word_dec _).append_not_mem_newline (hserver.append_not_mem_newline
      (hpath.append_not_mem_newline (hsum.append_not_mem_newline (word_dec _).not_mem_newline)))
  have hne : chunkLine c ≠ [] := by
    simp [chunkLine]
  rw [readBack, lines_append [] hline, List.filter_cons_of_pos (by simpa using hne)]
  simp [lines, parseChunkLine_chunkLine hlo hhi hserver hpath hsum]

/-- **A replica whose fields are words is read back as itself.** -/
theorem readBack_eq {c : ChunkInfo} (hlo : -2 ^ 63 ≤ c.chunkId) (hhi : c.chunkId ≤ 2 ^ 63 - 1)
    (hserver : Word c.serverIp) (hpath : Word c.filePath) (hsum : Word c.checksum) :
    (readBack c).map (·.placement) = [c.placement] := by
  rw [readBack_readAs hlo hhi hserver hpath hsum]
  rfl

/-- The fields of the replica are read back as they are. -/
structure ChunkInfo.Readable (c : ChunkInfo) : Prop where
  id_lo : -2 ^ 63 ≤ c.chunkId
  id_hi : c.chunkId ≤ 2 ^ 63 - 1
  server : Word c.serverIp
  path : Word c.filePath
  checksum : Word c.checksum

instance (c : ChunkInfo) : Decidable c.Readable :=
  decidable_of_iff (-2 ^ 63 ≤ c.chunkId ∧ c.chunkId ≤ 2 ^ 63 - 1 ∧ Word c.serverIp ∧
      Word c.filePath ∧ Word c.checksum)
    ⟨fun ⟨hlo, hhi, hserver, hpath, hsum⟩ => ⟨hlo, hhi, hserver, hpath, hsum⟩,
      fun ⟨hlo, hhi, hserver, hpath, hsum⟩ => ⟨hlo, hhi, hserver, hpath, hsum⟩⟩

/-- A commit of readable replicas records exactly them. -/
theorem placementsOf_storeMetadata_readable (m : MetadataMap) {filename fileHash : Bytes}
    {chunks : List ChunkInfo} (replicationFactor : Int) (hname : (10 : UInt8) ∉ filename)
    (hhash : (10 : UInt8) ∉ fileHash) (h : ∀ c ∈ chunks, c.Readable) (f : Bytes) :
    (storeMetadata m filename chunks fileHash replicationFactor).placementsOf f =
      if f = filename then chunks.map (·.placement) else m.placementsOf f := by
  have hback : (chunks.flatMap readBack).map (·.placement) = chunks.map (·.placement) := by
    induction chunks with
    | nil => rfl
    | cons c chunks ih =>
        obtain ⟨hlo, hhi, hserver, hpath, hsum⟩ := h c List.mem_cons_self
        rw [List.flatMap_cons, List.map_append, readBack_eq hlo hhi hserver hpath hsum,
          ih fun c hc => h c (List.mem_cons_of_mem _ hc)]
        rfl
  rw [placementsOf_storeMetadata m chunks replicationFactor hname hhash, hback]

lemma hashOf_storeMetadata (m : MetadataMap) {filename fileHash : Bytes} (chunks : List ChunkInfo)
    (replicationFactor : Int) (hname : (10 : UInt8) ∉ filename) (hhash : (10 : UInt8) ∉ fileHash)
    (f : Bytes) : (storeMetadata m filename chunks fileHash replicationFactor).hashOf f =
      if f = filename then some fileHash else m.hashOf f := by
  obtain ⟨n, h⟩ := storeMetadata_eq m chunks replicationFactor hname hhash
  rw [h, MetadataMap.hashOf_replaceFileChunks]

end FileGrid
