import FileGrid.Metadata.RedisBackend

/-!
# An entry created again on Redis

`replace_file_chunks` of the on-disk backend sets the record of a file.  `create_entry` on Redis
merges its fields into the hash that is there, and takes none out.

**What a commit leaves.**  `hgetall_commit`: the fields of the hash before, with those of the
request over them.  `get_commitInto_chunk` reads a chunk field off it.

**Two ways to differ.**  A chunk field of the old record that the request does not set again is
still there, and is read as a record of the new one (`old_chunk_survives`).  And a hash has one
field per chunk and server, with bars between the parts of its value: a request that names a pair
twice, or has a bar in a field, is not read back as it is, whatever was there before.
**`recreate_replaces_iff`** says that there is no third way.
-/

namespace FileGrid

/-! ## What a commit leaves -/

/-- The fields a request sets. -/
def commitFields (records : List ChunkRecord) (fileHash : Bytes) (replicaCount : Int) :
    List (Bytes × Bytes) :=
  (fillCounts records).flatMap chunkFields
    ++ (if fileHash ≠ [] then [(ascii "file_hash", fileHash)] else [])
    ++ (if 0 < replicaCount then [(ascii "replica_count", dec replicaCount)] else [])

/-- An `HSET` that is left out has nothing to set. -/
lemma hgetall_optional (s : Redis) (key k : Bytes) (c : Prop) [Decidable c]
    (fields : List (Bytes × Bytes)) :
    ((if c then [HashCommand.hset key fields] else []).foldl HashStore.exec s).hgetall k =
      if k = key then
        (if c then fields else []).foldl (fun h p => h.insert p.1 p.2) (s.hgetall key)
      else s.hgetall k := by
  by_cases hc : c
  · simp [hc]
  · by_cases hk : k = key
    · simp [hc, hk]
    · simp [hc, hk]

/-- **The fields of the request come over those that were there.** -/
theorem hgetall_commit (s : Redis) (filename : Bytes) (records : List ChunkRecord)
    (fileHash : Bytes) (replicaCount : Int) :
    ((commitCommands filename records fileHash replicaCount).foldl HashStore.exec s).hgetall
        (fileKey filename) =
      (commitFields records fileHash replicaCount).foldl (fun h p => h.insert p.1 p.2)
        (s.hgetall (fileKey filename)) := by
  have hrecords : (if records ≠ [] then (fillCounts records).flatMap chunkFields else []) =
      (fillCounts records).flatMap chunkFields := by
    split_ifs with h
    · rfl
    · rw [not_not.mp h]
      rfl
  simp only [commitCommands, commitFields, List.foldl_append, List.foldl_cons, List.foldl_nil,
    HashStore.hgetall_expire, hgetall_optional, if_true, hrecords]

lemma mem_commitFields {records : List ChunkRecord} {fileHash : Bytes} {replicaCount : Int}
    {field value : Bytes} : (field, value) ∈ commitFields records fileHash replicaCount ↔
      (∃ r ∈ fillCounts records, (field = r.field ∧ value = chunkValue r) ∨
        (field = chunkReplicasField r.chunkId ∧ value = dec r.replicaCount)) ∨
      (fileHash ≠ [] ∧ field = ascii "file_hash" ∧ value = fileHash) ∨
      (0 < replicaCount ∧ field = ascii "replica_count" ∧ value = dec replicaCount) := by
  simp only [commitFields, List.mem_append, List.mem_flatMap, chunkFields, List.mem_cons,
    List.not_mem_nil, or_false, Prod.mk.injEq, or_assoc]
  refine or_congr Iff.rfl (or_congr ?_ ?_)
  · split_ifs with h <;> simp [h]
  · split_ifs with h <;> simp [h]

/-- The chunk fields among them are those of the records. -/
lemma chunkField_of_mem_commitFields {records : List ChunkRecord} {fileHash : Bytes}
    {replicaCount : Int} {field value : Bytes}
    (h : (field, value) ∈ commitFields records fileHash replicaCount)
    (hsome : (chunkIdOf field).isSome) :
    ∃ r ∈ fillCounts records, field = r.field ∧ value = chunkValue r := by
  rcases mem_commitFields.mp h with ⟨r, hr, hfield | ⟨rfl, -⟩⟩ | ⟨-, rfl, -⟩ | ⟨-, rfl, -⟩
  · exact ⟨r, hr, hfield⟩
  · rw [chunkIdOf_chunkReplicasField] at hsome
    cases hsome
  · cases hsome
  · cases hsome

lemma field_ne_fileHash (r : ChunkRecord) : ascii "file_hash" ≠ r.field := by
  simp [ChunkRecord.field, chunkField, ascii]

lemma field_ne_replicaCount (r : ChunkRecord) : ascii "replica_count" ≠ r.field := by
  simp [ChunkRecord.field, chunkField, ascii]

section

variable (h : Map Bytes Bytes) (records : List ChunkRecord) (fileHash : Bytes) (replicaCount : Int)

/-- The hash of a file after a commit. -/
def commitInto : Map Bytes Bytes :=
  (commitFields records fileHash replicaCount).foldl (fun h p => h.insert p.1 p.2) h

lemma get_commitInto_fileHash :
    (commitInto h records fileHash replicaCount)[ascii "file_hash"]? =
      if fileHash ≠ [] then some fileHash else h[ascii "file_hash"]? := by
  refine Map.get_foldl_insert_unique (fun v => ?_) h
  rw [mem_commitFields]
  constructor
  · rintro (⟨r, -, ⟨hfield, -⟩ | ⟨hfield, -⟩⟩ | ⟨hne, -, hv⟩ | ⟨-, hfield, -⟩)
    · exact absurd hfield (field_ne_fileHash r)
    · simp [chunkReplicasField, ascii] at hfield
    · exact ⟨hne, hv⟩
    · exact absurd hfield (by decide)
  · rintro ⟨hne, hv⟩
    exact .inr (.inl ⟨hne, rfl, hv⟩)

lemma get_commitInto_replicaCount :
    (commitInto h records fileHash replicaCount)[ascii "replica_count"]? =
      if 0 < replicaCount then some (dec replicaCount) else h[ascii "replica_count"]? := by
  refine Map.get_foldl_insert_unique (fun v => ?_) h
  rw [mem_commitFields]
  constructor
  · rintro (⟨r, -, ⟨hfield, -⟩ | ⟨hfield, -⟩⟩ | ⟨-, hfield, -⟩ | ⟨hpos, -, hv⟩)
    · exact absurd hfield (field_ne_replicaCount r)
    · simp [chunkReplicasField, ascii] at hfield
    · exact absurd hfield (by decide)
    · exact ⟨hpos, hv⟩
  · rintro ⟨hpos, hv⟩
    exact .inr (.inr ⟨hpos, rfl, hv⟩)

/-- A chunk field that is there after a commit is one of the request, or it was there and is none
of the request. -/
lemma get_commitInto_chunk {field value : Bytes} (hsome : (chunkIdOf field).isSome)
    (hget : (commitInto h records fileHash replicaCount)[field]? = some value) :
    (∃ r ∈ fillCounts records, field = r.field ∧ value = chunkValue r) ∨
      (h[field]? = some value ∧ ∀ r ∈ fillCounts records, field ≠ r.field) := by
  by_cases hmem : field ∈ (commitFields records fileHash replicaCount).map (·.1)
  · left
    obtain ⟨v, hv, hget'⟩ := Map.exists_get_foldl_insert hmem h
    obtain rfl : v = value := Option.some.inj (hget'.symm.trans hget)
    exact chunkField_of_mem_commitFields hv hsome
  · right
    refine ⟨(Map.get_foldl_insert_of_notMem hmem h).symm.trans hget, ?_⟩
    rintro r hr rfl
    exact hmem (List.mem_map.mpr ⟨(r.field, chunkValue r),
      mem_commitFields.mpr (.inl ⟨r, hr, .inl ⟨rfl, rfl⟩⟩), rfl⟩)

lemma exists_get_commitInto {field value : Bytes} (hget : h[field]? = some value) :
    ∃ v, (commitInto h records fileHash replicaCount)[field]? = some v := by
  by_cases hmem : field ∈ (commitFields records fileHash replicaCount).map (·.1)
  · obtain ⟨v, -, hv⟩ := Map.exists_get_foldl_insert hmem h
    exact ⟨v, hv⟩
  · exact ⟨value, (Map.get_foldl_insert_of_notMem hmem h).trans hget⟩

/-- The field of a record of the request has the value of a record with that field. -/
lemma get_commitInto_field {r : ChunkRecord} (hr : r ∈ fillCounts records)
    (hsome : (chunkIdOf r.field).isSome) :
    ∃ r' ∈ fillCounts records, r.field = r'.field ∧
      (commitInto h records fileHash replicaCount)[r.field]? = some (chunkValue r') := by
  have hmem : r.field ∈ (commitFields records fileHash replicaCount).map (·.1) :=
    List.mem_map.mpr ⟨(r.field, chunkValue r),
      mem_commitFields.mpr (.inl ⟨r, hr, .inl ⟨rfl, rfl⟩⟩), rfl⟩
  obtain ⟨v, hv, hget⟩ := Map.exists_get_foldl_insert hmem h
  obtain ⟨r', hr', hfield, rfl⟩ := chunkField_of_mem_commitFields hv hsome
  exact ⟨r', hr', hfield, hget⟩

end

lemma chunkIdOf_field {r : ChunkRecord} (h : r.IdFits) : chunkIdOf r.field = some r.chunkId :=
  chunkIdOf_chunkField h.1 h.2 _

/-! ## What a query makes of a hash -/

/-- A key that is not there needs no case of its own. -/
lemma queryMetadata_redis (s : Redis) (order : Schedule) {filename : Bytes}
    (hname : filename ≠ []) :
    s.queryMetadata order filename =
      { fileHash := ((s.hgetall (fileKey filename))[ascii "file_hash"]?).getD []
        replicaCount := fillFileCount
          (((s.hgetall (fileKey filename))[ascii "replica_count"]?).bind stoi |>.getD 0)
          (chunksOf (order.visit (s.hgetall (fileKey filename)).toList))
        chunks := fillCounts (chunksOf (order.visit (s.hgetall (fileKey filename)).toList)) } := by
  rw [Redis.queryMetadata, if_neg hname]
  dsimp only
  split_ifs with hempty
  · have hvisit : order.visit (∅ : Map Bytes Bytes).toList = [] :=
      List.perm_nil.mp (order.visit_perm _)
    rw [Std.ExtTreeMap.isEmpty_iff.mp hempty, hvisit]
    rfl
  · rfl

lemma mem_chunksOf {visited : List (Bytes × Bytes)} {r : ChunkRecord} :
    r ∈ chunksOf visited ↔ ∃ field value chunkId, (field, value) ∈ visited ∧
      chunkIdOf field = some chunkId ∧ decodeChunk (perChunkRep visited) chunkId value = r := by
  simp only [chunksOf, List.mem_filterMap, Option.map_eq_some_iff, Prod.exists]
  constructor
  · rintro ⟨field, value, hmem, chunkId, hid, hr⟩
    exact ⟨field, value, chunkId, hmem, hid, hr⟩
  · rintro ⟨field, value, chunkId, hmem, hid, hr⟩
    exact ⟨field, value, hmem, chunkId, hid, hr⟩

lemma noBar_of_mem_chunksOf {visited : List (Bytes × Bytes)} {r : ChunkRecord}
    (h : r ∈ chunksOf visited) : r.placement.NoBar := by
  obtain ⟨field, value, chunkId, -, -, rfl⟩ := mem_chunksOf.mp h
  exact noBar_decodeChunk _ _ _

lemma length_chunksOf (visited : List (Bytes × Bytes)) :
    (chunksOf visited).length = (visited.filter fun kv => (chunkIdOf kv.1).isSome).length := by
  rw [chunksOf, List.length_filterMap_eq_countP, List.countP_eq_length_filter]
  simp only [Option.isSome_map]

/-! ## When a commit replaces -/

/-- A query shows this record, the chunks in any order. -/
def Redis.Shows (s : Redis) (filename : Bytes) (record : FileRecord) : Prop :=
  ∀ order, (s.queryMetadata order filename).fileHash = record.fileHash ∧
    (s.queryMetadata order filename).replicaCount = record.replicaCount ∧
    (s.queryMetadata order filename).chunks.Perm record.chunks

/-- The request for a file takes the place of what was there: a query shows what it shows on the
on-disk backend, and every chunk field is one of the request. -/
structure Replaces (s : Redis) (m : MetadataMap) (filename : Bytes) (chunks : List ChunkInfo)
    (fileHash : Bytes) (replicationFactor : Int) : Prop where
  shows_new : (s.storeMetadata filename chunks fileHash replicationFactor []).Shows filename
    ((storeMetadata m filename chunks fileHash replicationFactor).queryMetadata filename)
  none_earlier : ∀ field value,
    ((s.storeMetadata filename chunks fileHash replicationFactor []).hgetall
      (fileKey filename))[field]? = some value → (chunkIdOf field).isSome →
    ∃ r ∈ chunks.flatMap readBack, field = r.field

/-- The records of a request can take the place of a hash: the hash has no chunk field that they do
not have, no two of them have one field, none has a bar in it, and what the request leaves out is
what the hash has. -/
structure Replaceable (old : Map Bytes Bytes) (records : List ChunkRecord) (fileHash : Bytes)
    (replicationFactor : Int) : Prop where
  covered : ∀ field value, old[field]? = some value → (chunkIdOf field).isSome →
    ∃ r ∈ records, field = r.field
  distinct : (records.map (·.field)).Nodup
  noBar : ∀ r ∈ records, r.placement.NoBar
  hash : fileHash ≠ [] ∨ (old[ascii "file_hash"]?).getD [] = []
  count : 0 < replicationFactor ∨ records ≠ [] ∨
    ((old[ascii "replica_count"]?).bind stoi).getD 0 = replicationFactor

lemma fields_fillCounts (records : List ChunkRecord) :
    (fillCounts records).map (·.field) = records.map (·.field) := by
  simp only [fillCounts, List.map_map]
  refine List.map_congr_left fun r _ => ?_
  simp only [Function.comp_apply]
  split_ifs <;> rfl

lemma mem_fillCounts_field {records : List ChunkRecord} {field : Bytes} :
    (∃ r ∈ fillCounts records, field = r.field) ↔ ∃ r ∈ records, field = r.field := by
  have hmem : field ∈ (fillCounts records).map (·.field) ↔ field ∈ records.map (·.field) := by
    rw [fields_fillCounts]
  simpa only [List.mem_map, eq_comm] using hmem

lemma idFits_fillCounts {records : List ChunkRecord} (h : ∀ r ∈ records, r.IdFits) {r : ChunkRecord}
    (hr : r ∈ fillCounts records) : r.IdFits := by
  obtain ⟨r', hr', heq⟩ := exists_of_mem_fillCounts hr
  have hid : r.chunkId = r'.chunkId := congrArg Placement.chunkId heq
  rw [ChunkRecord.IdFits, hid]
  exact h r' hr'

lemma idFits_readBack (chunks : List ChunkInfo) : ∀ r ∈ chunks.flatMap readBack, r.IdFits := by
  intro r hr
  obtain ⟨c, -, hr⟩ := List.mem_flatMap.mp hr
  exact (range_of_mem_readBack hr).1

/-- Records whose numbers are of the types of the source, and can be counted. -/
structure Counted (records : List ChunkRecord) : Prop where
  ids : ∀ r ∈ records, r.IdFits
  counts : ∀ r ∈ records, r.replicaCount ≤ 2 ^ 31 - 1
  length : (records.length : Int) ≤ 2 ^ 31 - 1

lemma counted_readBack {chunks : List ChunkInfo}
    (hlen : (chunks.flatMap readBack).length ≤ 2 ^ 31 - 1) : Counted (chunks.flatMap readBack) where
  ids := idFits_readBack chunks
  counts := by
    intro r hr
    obtain ⟨c, -, hr⟩ := List.mem_flatMap.mp hr
    exact (range_of_mem_readBack hr).2
  length := by omega

namespace Counted

variable {records : List ChunkRecord} (h : Counted records)
include h

lemma one_le {r : ChunkRecord} (hr : r ∈ fillCounts records) : 1 ≤ r.replicaCount :=
  (fillCounts_range h.length h.counts hr).1

lemma idFits {r : ChunkRecord} (hr : r ∈ fillCounts records) : r.IdFits :=
  idFits_fillCounts h.ids hr

/-- Once the counts are filled in they are read back as they are. -/
lemma decoded_fillCounts : (fillCounts records).map (·.decoded) = fillCounts records := by
  refine (List.map_congr_left fun r hr => ?_).trans (List.map_id _)
  obtain ⟨hlo, hhi⟩ := fillCounts_range h.length h.counts hr
  have hread : stoi (dec r.replicaCount) = some r.replicaCount := stoi_dec (by omega) hhi
  simp only [ChunkRecord.decoded, hread, Option.getD_some, id_eq]

end Counted

lemma hgetall_storeMetadata (s : Redis) {filename fileHash : Bytes} (chunks : List ChunkInfo)
    (replicationFactor : Int) (hname : (10 : UInt8) ∉ filename) (hhash : (10 : UInt8) ∉ fileHash) :
    (s.storeMetadata filename chunks fileHash replicationFactor []).hgetall (fileKey filename) =
      commitInto (s.hgetall (fileKey filename)) (chunks.flatMap readBack) fileHash
        (fillFileCount ((stoi (dec replicationFactor)).getD 0) (chunks.flatMap readBack)) := by
  rw [Redis.storeMetadata, Redis.createEntry,
    createCommands_metadataRequest chunks replicationFactor hname hhash]
  dsimp only
  rw [HashStore.execAll_nil, hgetall_commit]
  rfl

lemma key_commitCommands {filename : Bytes} {records : List ChunkRecord} {fileHash : Bytes}
    {replicaCount : Int} {c : RedisCommand}
    (hc : c ∈ commitCommands filename records fileHash replicaCount) :
    c.key = fileKey filename := by
  simp only [commitCommands, List.mem_append] at hc
  rcases hc with ((hc | hc) | hc) | hc
  · split_ifs at hc <;> simp_all [HashCommand.key]
  · split_ifs at hc <;> simp_all [HashCommand.key]
  · split_ifs at hc <;> simp_all [HashCommand.key]
  · simp_all [HashCommand.key]

lemma hgetall_storeMetadata_of_ne (s : Redis) {filename fileHash : Bytes} (chunks : List ChunkInfo)
    (replicationFactor : Int) (hname : (10 : UInt8) ∉ filename) (hhash : (10 : UInt8) ∉ fileHash)
    {f : Bytes} (hf : f ≠ filename) :
    (s.storeMetadata filename chunks fileHash replicationFactor []).hgetall (fileKey f) =
      s.hgetall (fileKey f) := by
  rw [Redis.storeMetadata, Redis.createEntry,
    createCommands_metadataRequest chunks replicationFactor hname hhash]
  dsimp only
  rw [HashStore.execAll_nil, HashStore.hgetall_foldl_exec, List.filter_eq_nil_iff.mpr]
  · rfl
  · intro c hc
    rw [key_commitCommands hc]
    simpa using fun heq => hf (fileKey_inj heq).symm

lemma queryMetadata_storeMetadata (m : MetadataMap) {filename fileHash : Bytes}
    (chunks : List ChunkInfo) (replicationFactor : Int) (hne : filename ≠ [])
    (hname : (10 : UInt8) ∉ filename) (hhash : (10 : UInt8) ∉ fileHash)
    (hrecords : Counted (chunks.flatMap readBack)) :
    (storeMetadata m filename chunks fileHash replicationFactor).queryMetadata filename =
      { fileHash
        replicaCount :=
          fillFileCount ((stoi (dec replicationFactor)).getD 0) (chunks.flatMap readBack)
        chunks := fillCounts (chunks.flatMap readBack) } := by
  have hsame :
      (fillCounts (chunks.flatMap readBack)).length = (chunks.flatMap readBack).length := by
    simp [fillCounts]
  rw [storeMetadata_replaceFileChunks m chunks replicationFactor hname hhash,
    MetadataMap.queryMetadata_of_ne _ hne, MetadataMap.replaceFileChunks,
    Map.get_insert, if_pos rfl, Option.getD_some, fillFileCount_again hsame,
    fillCounts_of_pos fun r hr => hrecords.one_le hr]

/-! ### The condition suffices -/

/-- The chunk fields after the commit spell out the records of the request. -/
lemma Replaceable.spells {old : Map Bytes Bytes} {records : List ChunkRecord} {fileHash : Bytes}
    {replicationFactor : Int} (h : Replaceable old records fileHash replicationFactor)
    (hrecords : Counted records) (n : Int) :
    Spells (commitInto old records fileHash n) (fillCounts records) where
  of_field := by
    intro field value hget hsome
    rcases get_commitInto_chunk old records fileHash n hsome hget with hnew | ⟨hold, hnot⟩
    · exact hnew
    · obtain ⟨r, hr, hfield⟩ := mem_fillCounts_field.mpr (h.covered field value hold hsome)
      exact absurd hfield (hnot r hr)
  field_of := by
    intro r hr
    have hsome : (chunkIdOf r.field).isSome := by simp [chunkIdOf_field (hrecords.idFits hr)]
    obtain ⟨r', hr', hfield, hget⟩ := get_commitInto_field old records fileHash n hr hsome
    have hnodup : ((fillCounts records).map (·.field)).Nodup := by
      rw [fields_fillCounts]
      exact h.distinct
    rw [hget, List.inj_on_of_nodup_map hnodup hr hr' hfield]

lemma Replaceable.count_commitInto {old : Map Bytes Bytes} {records : List ChunkRecord}
    {fileHash : Bytes} {replicationFactor : Int}
    (h : Replaceable old records fileHash replicationFactor) (hrecords : Counted records)
    (hlo : -2 ^ 31 ≤ replicationFactor) (hhi : replicationFactor ≤ 2 ^ 31 - 1) :
    (((commitInto old records fileHash (fillFileCount replicationFactor records))[
      ascii "replica_count"]?).bind stoi).getD 0 = fillFileCount replicationFactor records := by
  rw [get_commitInto_replicaCount]
  split_ifs with hpos
  · have hle : fillFileCount replicationFactor records ≤ 2 ^ 31 - 1 := by
      unfold fillFileCount
      split_ifs with hfill
      · exact (firstCount_range hfill.2).2.trans hrecords.length
      · exact hhi
    simp [stoi_dec (by omega) hle]
  · -- nothing was filled in, so the request has no records and no count
    have hnil : records = [] := by
      by_contra hne
      have hone := fillFileCount_pos hne replicationFactor
      omega
    subst hnil
    have hcount : fillFileCount replicationFactor [] = replicationFactor := by simp [fillFileCount]
    rw [hcount] at hpos ⊢
    rcases h.count with hcount | hcount | hcount
    · omega
    · exact absurd rfl hcount
    · exact hcount

lemma Replaceable.noBar_fillCounts {old : Map Bytes Bytes} {records : List ChunkRecord}
    {fileHash : Bytes} {replicationFactor : Int}
    (h : Replaceable old records fileHash replicationFactor) {r : ChunkRecord}
    (hr : r ∈ fillCounts records) : r.placement.NoBar := by
  obtain ⟨r', hr', heq⟩ := exists_of_mem_fillCounts hr
  exact heq ▸ h.noBar r' hr'

lemma Replaceable.chunks_perm {old : Map Bytes Bytes} {records : List ChunkRecord}
    {fileHash : Bytes} {replicationFactor : Int}
    (h : Replaceable old records fileHash replicationFactor)
    (hrecords : Counted records) (n : Int) {visited : List (Bytes × Bytes)}
    (hvisited : visited.Perm (commitInto old records fileHash n).toList) :
    (chunksOf visited).Perm (fillCounts records) := by
  have hnodup : ((fillCounts records).map (·.field)).Nodup := by
    rw [fields_fillCounts]
    exact h.distinct
  have hperm := chunksOf_perm (h.spells hrecords n) hnodup (fun r hr => hrecords.idFits hr)
    (fun r hr => h.noBar_fillCounts hr) hvisited
  rwa [hrecords.decoded_fillCounts] at hperm

lemma Replaceable.hash_commitInto {old : Map Bytes Bytes} {records : List ChunkRecord}
    {fileHash : Bytes} {replicationFactor : Int}
    (h : Replaceable old records fileHash replicationFactor) (n : Int) :
    ((commitInto old records fileHash n)[ascii "file_hash"]?).getD [] = fileHash := by
  rw [get_commitInto_fileHash]
  split_ifs with hne
  · rfl
  · rw [h.hash.resolve_left hne, not_not.mp hne]

/-! ### The condition is needed -/

section

variable {old : Map Bytes Bytes} {records : List ChunkRecord} {fileHash : Bytes} {n : Int}
  {visited : List (Bytes × Bytes)}

/-- The fields of a hash are distinct, so as many records as the request has come from distinct
fields. -/
lemma nodup_fields_of_length {h : Map Bytes Bytes} (hvisited : visited.Perm h.toList)
    (hnew : ∀ field value, h[field]? = some value → (chunkIdOf field).isSome →
      ∃ r ∈ records, field = r.field)
    (hlength : (chunksOf visited).length = records.length) : (records.map (·.field)).Nodup := by
  have hkeys : (visited.map (·.1)).Nodup :=
    (hvisited.map _).nodup_iff.mpr (Map.nodup_keys_toList h)
  have hnodup : ((visited.filter fun kv => (chunkIdOf kv.1).isSome).map (·.1)).Nodup :=
    hkeys.sublist (List.filter_sublist.map _)
  have hsubset : (visited.filter fun kv => (chunkIdOf kv.1).isSome).map (·.1) ⊆
      records.map (·.field) := by
    intro field hfield
    obtain ⟨⟨f, value⟩, hmem, rfl⟩ := List.mem_map.mp hfield
    obtain ⟨hmem, hsome⟩ := List.mem_filter.mp hmem
    obtain ⟨r, hr, hfr⟩ := hnew f value (Map.mem_toList.mp (hvisited.mem_iff.mp hmem)) hsome
    exact List.mem_map.mpr ⟨r, hr, hfr.symm⟩
  have hperm := (List.subperm_of_subset hnodup hsubset).perm_of_length_le (by
    rw [List.length_map, List.length_map, ← length_chunksOf, hlength])
  exact hperm.nodup_iff.mp hnodup

lemma noBar_of_shown (hperm : (fillCounts (chunksOf visited)).Perm (fillCounts records))
    {r : ChunkRecord} (hr : r ∈ records) : r.placement.NoBar := by
  have hplacements := hperm.map ChunkRecord.placement
  rw [placements_fillCounts, placements_fillCounts] at hplacements
  obtain ⟨r', hr', heq⟩ := List.mem_map.mp (hplacements.mem_iff.mpr (List.mem_map_of_mem hr))
  exact heq ▸ noBar_of_mem_chunksOf hr'

/-- A hash that shows the request after the commit could be replaced before it. -/
lemma replaceable_of_shown {replicationFactor : Int}
    (hn : n = fillFileCount replicationFactor records)
    (hvisited : visited.Perm (commitInto old records fileHash n).toList)
    (hhash : ((commitInto old records fileHash n)[ascii "file_hash"]?).getD [] = fileHash)
    (hcount : fillFileCount (((commitInto old records fileHash n)[ascii "replica_count"]?).bind stoi
      |>.getD 0) (chunksOf visited) = n)
    (hperm : (fillCounts (chunksOf visited)).Perm (fillCounts records))
    (hnone : ∀ field value, (commitInto old records fileHash n)[field]? = some value →
      (chunkIdOf field).isSome → ∃ r ∈ records, field = r.field) :
    Replaceable old records fileHash replicationFactor := by
  have hlength : (chunksOf visited).length = records.length := by
    simpa [fillCounts] using hperm.length_eq
  refine ⟨?_, nodup_fields_of_length hvisited hnone hlength, fun r hr => noBar_of_shown hperm hr,
    ?_, ?_⟩
  · intro field value hget hsome
    obtain ⟨v, hv⟩ := exists_get_commitInto old records fileHash n hget
    exact hnone field v hv hsome
  · rw [get_commitInto_fileHash] at hhash
    split_ifs at hhash with hgiven
    · exact .inl hgiven
    · exact .inr (hhash.trans (not_not.mp hgiven))
  · by_cases hpos : 0 < replicationFactor
    · exact .inl hpos
    · by_cases hnil : records = []
      · -- nothing is filled in, so the count is the one that was there
        subst hnil
        have hzero : chunksOf visited = [] := List.length_eq_zero_iff.mp hlength
        rw [hzero, get_commitInto_replicaCount, hn] at hcount
        simp only [fillFileCount, ne_eq, not_true_eq_false, and_false, if_false, hpos] at hcount
        exact .inr (.inr hcount)
      · exact .inr (.inl hnil)

end

/-! ### The result -/

/-- **A request takes the place of what was there exactly if it sets every chunk field that was
there**, and names no pair of a chunk and a server twice, has no bar in a record, and gives the hash
and the count of the file. -/
theorem recreate_replaces_iff (s : Redis) (m : MetadataMap) {filename fileHash : Bytes}
    {chunks : List ChunkInfo} {replicationFactor : Int} (hne : filename ≠ [])
    (hname : (10 : UInt8) ∉ filename) (hhash : (10 : UInt8) ∉ fileHash)
    (hlo : -2 ^ 31 ≤ replicationFactor) (hhi : replicationFactor ≤ 2 ^ 31 - 1)
    (hlen : (chunks.flatMap readBack).length ≤ 2 ^ 31 - 1) :
    Replaces s m filename chunks fileHash replicationFactor ↔
      Replaceable (s.hgetall (fileKey filename)) (chunks.flatMap readBack) fileHash
        replicationFactor := by
  have hrecords := counted_readBack hlen
  have hdisk := queryMetadata_storeMetadata m chunks replicationFactor hne hname hhash hrecords
  have hredis := hgetall_storeMetadata s chunks replicationFactor hname hhash
  rw [stoi_dec hlo hhi, Option.getD_some] at hdisk hredis
  constructor
  · rintro ⟨hshows, hnone⟩
    obtain ⟨hhash', hcount, hperm⟩ := hshows .inOrder
    rw [hdisk, queryMetadata_redis _ _ hne] at hhash' hcount hperm
    rw [hredis] at hhash' hcount hperm hnone
    exact replaceable_of_shown rfl (Schedule.visit_perm _ _) hhash' hcount hperm hnone
  · intro h
    constructor
    · intro order
      have hperm := h.chunks_perm hrecords
        (fillFileCount replicationFactor (chunks.flatMap readBack)) (order.visit_perm _)
      have hlength := hperm.length_eq
      rw [fillCounts, List.length_map] at hlength
      rw [hdisk, queryMetadata_redis _ _ hne, hredis, h.hash_commitInto,
        h.count_commitInto hrecords hlo hhi, fillFileCount_again hlength,
        fillCounts_of_pos fun r hr => hrecords.one_le (hperm.mem_iff.mp hr)]
      exact ⟨rfl, rfl, hperm⟩
    · intro field value hget hsome
      rw [hredis] at hget
      obtain ⟨r, hr, hfield, -⟩ := (h.spells hrecords _).of_field field value hget hsome
      exact mem_fillCounts_field.mp ⟨r, hr, hfield⟩

/-- A replica of one chunk of a small file, on a server. -/
def smallChunk (chunkId : Int) (server : Bytes) : ChunkInfo :=
  { chunkId, serverIp := server, filePath := ascii "p", size := 1, checksum := ascii "c" }

/-- A file that was stored with a chunk on each of two servers. -/
def twoChunks : Redis :=
  Redis.storeMetadata {} (ascii "f") [smallChunk 0 (ascii "a:1"), smallChunk 1 (ascii "b:1")]
    (ascii "old") 1 []

/-- The same two pairs, with another hash. -/
theorem recreate_replaces_same_fields :
    Replaces twoChunks ∅ (ascii "f") [smallChunk 1 (ascii "b:1"), smallChunk 0 (ascii "a:1")]
      (ascii "new") 1 := by
  refine (recreate_replaces_iff twoChunks ∅ (by decide) (by decide) (by decide) (by decide)
    (by decide) (by decide +kernel)).mpr ⟨?_, by decide +kernel, by decide +kernel, by decide,
      by decide⟩
  have hfields : ∀ p ∈ (twoChunks.hgetall (fileKey (ascii "f"))).toList, (chunkIdOf p.1).isSome →
      ∃ r ∈ [smallChunk 1 (ascii "b:1"), smallChunk 0 (ascii "a:1")].flatMap readBack,
        p.1 = r.field := by
    decide +kernel
  intro field value hget
  exact hfields (field, value) (Map.mem_toList.mpr hget)

/-- **A chunk of the old version is shown as one of the new.** -/
theorem old_chunk_survives :
    let s := twoChunks.storeMetadata (ascii "f") [smallChunk 0 (ascii "a:1")] (ascii "new") 1 []
    (s.queryMetadata .inOrder (ascii "f")).placements =
        [(smallChunk 0 (ascii "a:1")).placement, (smallChunk 1 (ascii "b:1")).placement] ∧
      ¬Replaces twoChunks ∅ (ascii "f") [smallChunk 0 (ascii "a:1")] (ascii "new") 1 := by
  have hshown : ((twoChunks.storeMetadata (ascii "f") [smallChunk 0 (ascii "a:1")] (ascii "new") 1
      []).queryMetadata .inOrder (ascii "f")).placements =
        [(smallChunk 0 (ascii "a:1")).placement, (smallChunk 1 (ascii "b:1")).placement] := by
    decide +kernel
  refine ⟨hshown, fun h => ?_⟩
  have hlength := ((h.shows_new .inOrder).2.2.map ChunkRecord.placement).length_eq
  rw [← FileRecord.placements, hshown] at hlength
  revert hlength
  decide +kernel

end FileGrid
