import FileGrid.Head.Upload
import FileGrid.Metadata.CrashAtomic
import FileGrid.Metadata.RedisRecreate

/-!
# What `SUCCESS` says of the metadata

`handle_client_upload` answers `SUCCESS` once `store_metadata` has returned.  That function returns
nothing, and what it calls catches its errors: `create_entry` of the Redis backend logs the
exception of a command that failed, and `persist_locked` of the on-disk one logs that the file could
not be opened and does not look at the stream again.  So the answer does not depend on how the store
fares.

**How a store can fare.**  On Redis each command of the script is answered, fails, or takes effect
without an answer, and the first that is not answered ends the script.  On disk the file is not
opened, or is cut short at some byte, or is written to its end (`WriteOutcome`).

**What is asked.**  `FullRecord`: the hash of the file, its replication factor and every replica
that the upload stored.  `CommittedOnRedis` and `CommittedOnDisk` ask it of a query after an upload
that was answered with `SUCCESS`, whatever the store held before; on disk also of the head that
reads the file after a restart.  A restart of the head leaves Redis as it is.

**The result**, `success_committed_iff`, has two sides.  Every `HSET` must take effect, and the file
must be written to its end.  And the replicas must be such that they can be stored: words for
servers and paths; on Redis no bar in them, and no two records for one chunk on one server.
-/

namespace FileGrid

/-! ## What is asked -/

/-- The record has the hash, the factor and every one of the replicas. -/
structure FullRecord (record : FileRecord) (fileHash : Bytes) (replicationFactor : Int)
    (stored : List ChunkInfo) : Prop where
  hash : record.fileHash = fileHash
  count : record.replicaCount = replicationFactor
  placements : ∀ c ∈ stored, c.placement ∈ record.placements

/-- How the write of `persist_locked` ends. -/
inductive WriteOutcome
  | notOpened
  | cut (length : Nat)
  | complete
deriving DecidableEq

/-- The file after the write of a text. -/
def WriteOutcome.written (outcome : WriteOutcome) (disk text : Bytes) : Bytes :=
  match outcome with
  | .notOpened => disk
  | .cut length => text.take length
  | .complete => text

/-- `store_metadata` on disk, with the order in which the files are written and how that ends. -/
def storeOnDisk (order : Schedule) (outcome : WriteOutcome) (s : MetadataState) (filename : Bytes)
    (chunks : List ChunkInfo) (fileHash : Bytes) (replicationFactor : Int) : MetadataState :=
  let store := storeMetadata s.store filename chunks fileHash replicationFactor
  { store, disk := outcome.written s.disk (persistLocked order store) }

/-- `store_metadata` on Redis, with how its commands end. -/
def storeOnRedis (outcomes : List CommandOutcome) (s : Redis) (filename : Bytes)
    (chunks : List ChunkInfo) (fileHash : Bytes) (replicationFactor : Int) : Redis :=
  Redis.storeMetadata s filename chunks fileHash replicationFactor outcomes

/-- The record of the file is full, and so is what a head reads after a restart. -/
structure RecordedOnDisk (s : MetadataState) (filename fileHash : Bytes) (replicationFactor : Int)
    (stored : List ChunkInfo) : Prop where
  store : FullRecord (s.store.queryMetadata filename) fileHash replicationFactor stored
  restarted : FullRecord ((loadFromDisk s.disk).queryMetadata filename) fileHash replicationFactor
    stored

section

variable (env : UploadEnv) (transfers : Nat → Option Bytes) (initialReq stream : Bytes)

/-- The replicas of an upload whose transfers end like this. -/
abbrev replicasOf (r : UploadRequest) : List ChunkInfo :=
  storedReplicas (withOutcomes transfers) env () stream r

/-- `SUCCESS` means that the record is there, on Redis. -/
def CommittedOnRedis (outcomes : List CommandOutcome) : Prop :=
  ∀ s : Redis, ∀ r, parseUploadRequest env.chunkSize initialReq = .ok r →
    let result := handleClientUploadOn (withOutcomes transfers) (storeOnRedis outcomes) env () s
      initialReq stream
    result.2.2 = success → ∀ order, FullRecord (Redis.queryMetadata result.2.1 order r.filename)
      r.fileHash env.replicationFactor (replicasOf env transfers stream r)

/-- `SUCCESS` means that the record is there, on disk, before and after a restart. -/
def CommittedOnDisk (outcome : WriteOutcome) : Prop :=
  ∀ s : MetadataState, Separable s.store → ∀ order, ∀ r,
    parseUploadRequest env.chunkSize initialReq = .ok r →
    let result := handleClientUploadOn (withOutcomes transfers) (storeOnDisk order outcome) env () s
      initialReq stream
    result.2.2 = success → RecordedOnDisk result.2.1 r.filename r.fileHash env.replicationFactor
      (replicasOf env transfers stream r)

/-- The upload is accepted: the stream comes to its end, the hash is right, and something was stored
unless the file is empty. -/
def UploadAccepted (r : UploadRequest) : Prop :=
  parseUploadRequest env.chunkSize initialReq = .ok r ∧ r.Accepted stream ∧
    (r.fileSize = 0 ∨ replicasOf env transfers stream r ≠ [])

end

/-- The `HSET`s of an upload: one for the replicas, if there are any, one for the hash and one for
the count. -/
def hsets (stored : List ChunkInfo) : Nat := if stored = [] then 2 else 3

/-- The replicas can be stored on Redis. -/
structure StorableOnRedis (stored : List ChunkInfo) : Prop where
  readable : ∀ c ∈ stored, c.Readable
  noBar : ∀ c ∈ stored, c.placement.NoBar
  one_per_slot : ∀ c ∈ stored, ∀ c' ∈ stored, c.chunkId = c'.chunkId → c.serverIp = c'.serverIp →
    c.placement = c'.placement

/-! ## The replicas of an upload -/

section

variable {env : UploadEnv} {transfers : Nat → Option Bytes} {initialReq stream : Bytes}
  {r : UploadRequest}

/-- A factor that is not positive selects no server. -/
lemma storedReplicas_of_factor (h : env.replicationFactor ≤ 0) :
    replicasOf env transfers stream r = [] := by
  have hnone : env.selectServersForChunk = [] := by
    rw [UploadEnv.selectServersForChunk, Int.toNat_of_nonpos h, List.take_zero]
  have hpending : env.pending (r.received stream).1 = [] := by
    rw [UploadEnv.pending, hnone]
    simp
  rw [replicasOf, storedReplicas, hpending]
  rfl

/-- The identifier and the checksum of a stored replica are always read back. -/
lemma readable_of_words {c : ChunkInfo}
    (hc : c ∈ replicasOf env transfers stream r)
    (hserver : Word c.serverIp) (hpath : Word c.filePath) : c.Readable := by
  obtain ⟨t, path, ⟨i, hi, -⟩, hplacement⟩ := mem_storedReplicas.mp (List.mem_map_of_mem hc)
  obtain ⟨k, hk, server, -, rfl⟩ := mem_pending.mp (List.mem_of_getElem? hi)
  obtain ⟨hlo, hhi, hsum⟩ := UploadRequest.received_spec hk
  have hid : c.chunkId = k.chunkId := congrArg Placement.chunkId hplacement
  have hchecksum : c.checksum = k.checksum := congrArg Placement.checksum hplacement
  refine ⟨by omega, by omega, hserver, hpath, ?_⟩
  rw [hchecksum, hsum]
  exact word_sha256 _

end

lemma flatMap_readBack {stored : List ChunkInfo} (h : ∀ c ∈ stored, c.Readable) :
    stored.flatMap readBack = stored.map (·.readAs) := by
  have hread : ∀ c ∈ stored, readBack c = [c.readAs] := fun c hc =>
    readBack_readAs (h c hc).id_lo (h c hc).id_hi (h c hc).server (h c hc).path (h c hc).checksum
  rw [List.flatMap_congr hread, ← List.map_eq_flatMap]

lemma noBar_of_mem_readBack {c : ChunkInfo} (hc : c.placement.NoBar) {r : ChunkRecord}
    (hr : r ∈ readBack c) : r.placement.NoBar := by
  have hbar : ∀ n : Int, (124 : UInt8) ∉ dec n := by
    intro n hmem
    rcases mem_dec hmem with h | h
    · exact absurd h (by decide)
    · exact absurd h (by decide)
  have hline : (124 : UInt8) ∉ chunkLine c ++ [10] := by
    have hserver : (124 : UInt8) ∉ c.serverIp := hc.server
    have hpath : (124 : UInt8) ∉ c.filePath := hc.path
    have hsum : (124 : UInt8) ∉ c.checksum := hc.checksum
    simp [chunkLine, hbar, hserver, hpath, hsum]
  obtain ⟨line, hmem, hparse⟩ := List.mem_filterMap.mp hr
  have hsub := lines_subset (List.mem_of_mem_filter hmem)
  obtain ⟨hserver, hpath, hsum⟩ := subset_of_parseChunkLine hparse
  exact ⟨fun h => hline (hsub (hserver h)), fun h => hline (hsub (hpath h)),
    fun h => hline (hsub (hsum h))⟩

/-! ## Redis -/

section

variable {filename fileHash : Bytes} {records : List ChunkRecord} {n : Int}

/-- The `HSET`s of the script without that of the count. -/
def fieldCommands (filename : Bytes) (records : List ChunkRecord) (fileHash : Bytes) :
    List RedisCommand :=
  (if records ≠ [] then [.hset (fileKey filename) ((fillCounts records).flatMap chunkFields)]
    else []) ++
    (if fileHash ≠ [] then [.hset (fileKey filename) [(ascii "file_hash", fileHash)]] else [])

lemma commitCommands_of_pos (hn : 0 < n) : commitCommands filename records fileHash n =
    fieldCommands filename records fileHash ++
      [.hset (fileKey filename) [(ascii "replica_count", dec n)],
        .expire (fileKey filename) 3600] := by
  simp [commitCommands, fieldCommands, hn]

lemma commitCommands_of_nonpos (hn : ¬0 < n) : commitCommands filename records fileHash n =
    fieldCommands filename records fileHash ++ [.expire (fileKey filename) 3600] := by
  simp [commitCommands, fieldCommands, hn]

lemma keeps_fieldCommands {c : RedisCommand} (hc : c ∈ fieldCommands filename records fileHash) :
    c.Keeps (ascii "replica_count") := by
  rcases List.mem_append.mp hc with hc | hc
  · split_ifs at hc
    · obtain rfl := List.mem_singleton.mp hc
      intro hmem
      obtain ⟨⟨field, value⟩, hfield, heq⟩ := List.mem_map.mp hmem
      obtain ⟨r, -, hfield⟩ := List.mem_flatMap.mp hfield
      simp only [chunkFields, List.mem_cons, List.not_mem_nil, or_false, Prod.mk.injEq] at hfield
      dsimp only at heq
      rcases hfield with ⟨rfl, -⟩ | ⟨rfl, -⟩
      · exact field_ne_replicaCount r heq.symm
      · simp [chunkReplicasField, ascii] at heq
    · simp at hc
  · split_ifs at hc
    · obtain rfl := List.mem_singleton.mp hc
      simp [HashCommand.Keeps, ascii]
    · simp at hc

/-- If a script is cut before the count, the count is the one that was there. -/
lemma get_replicaCount_of_cut (s : Redis) {k : Nat}
    (hcut : ¬(0 < n ∧ (commitCommands filename records fileHash n).length ≤ k + 1)) :
    ((((commitCommands filename records fileHash n).take k).foldl HashStore.exec s).hgetall
      (fileKey filename))[ascii "replica_count"]? =
      (s.hgetall (fileKey filename))[ascii "replica_count"]? := by
  refine HashStore.get_foldl_exec_keeps (fun c hc => ?_) s _
  by_cases hn : 0 < n
  · rw [commitCommands_of_pos hn] at hc hcut
    have hk : k ≤ (fieldCommands filename records fileHash).length := by
      have hlt := not_le.mp fun hle => hcut ⟨hn, hle⟩
      simp only [List.length_append, List.length_cons, List.length_nil] at hlt
      omega
    rw [List.take_append_of_le_length hk] at hc
    exact keeps_fieldCommands (List.mem_of_mem_take hc)
  · rw [commitCommands_of_nonpos hn] at hc
    rcases List.mem_append.mp (List.mem_of_mem_take hc) with hc | hc
    · exact keeps_fieldCommands hc
    · obtain rfl := List.mem_singleton.mp hc
      trivial

/-- If all the `HSET`s take effect, the fields are those of the whole script. -/
lemma hgetall_of_hsets (s : Redis) {k : Nat}
    (hall : (commitCommands filename records fileHash n).length ≤ k + 1) :
    (((commitCommands filename records fileHash n).take k).foldl HashStore.exec s).hgetall
      (fileKey filename) = commitInto (s.hgetall (fileKey filename)) records fileHash n := by
  have hwhole := hgetall_commit s filename records fileHash n
  obtain ⟨sets, hscript⟩ : ∃ sets, commitCommands filename records fileHash n =
      sets ++ [.expire (fileKey filename) 3600] := ⟨_, rfl⟩
  rw [hscript] at hwhole hall ⊢
  rw [commitInto, ← hwhole]
  rcases Nat.lt_or_ge k (sets ++ [HashCommand.expire (fileKey filename) 3600]).length with hk | hk
  · -- only the expiry is missing
    have hlen : k = sets.length := by
      simp only [List.length_append, List.length_cons, List.length_nil] at hall hk
      omega
    rw [hlen, List.take_left, List.foldl_append, List.foldl_cons, List.foldl_nil,
      HashStore.hgetall_expire]
  · rw [List.take_of_length_le hk]

end

section

variable {s : Redis} {old : Map Bytes Bytes} {filename fileHash : Bytes} {n : Int}
  {stored : List ChunkInfo} {order : Schedule}

/-- What a query shows of a replica: a field of the request with a value of a record that has it. -/
lemma mem_placements_queryMetadata (hne : filename ≠ []) {p : Placement} :
    p ∈ (Redis.queryMetadata s order filename).placements ↔
      ∃ field value chunkId, (s.hgetall (fileKey filename))[field]? = some value ∧
        chunkIdOf field = some chunkId ∧
        p = (decodeChunk (perChunkRep (order.visit (s.hgetall (fileKey filename)).toList)) chunkId
          value).placement := by
  rw [queryMetadata_redis s order hne, FileRecord.placements, placements_fillCounts, List.mem_map]
  constructor
  · rintro ⟨r, hr, rfl⟩
    obtain ⟨field, value, chunkId, hmem, hid, rfl⟩ := mem_chunksOf.mp hr
    have hget := Map.mem_toList.mp ((order.visit_perm _).mem_iff.mp hmem)
    exact ⟨field, value, chunkId, hget, hid, rfl⟩
  · rintro ⟨field, value, chunkId, hget, hid, rfl⟩
    exact ⟨_, mem_chunksOf.mpr ⟨field, value, chunkId,
      (order.visit_perm _).mem_iff.mpr (Map.mem_toList.mpr hget), hid, rfl⟩, rfl⟩

/-- **Replicas that can be stored on Redis are shown.** -/
theorem fullRecord_of_commitInto (hne : filename ≠ []) (hhash : fileHash ≠ []) (hpos : 0 < n)
    (hhi : n ≤ 2 ^ 31 - 1) (hstored : StorableOnRedis stored)
    (hget : s.hgetall (fileKey filename) = commitInto old (stored.flatMap readBack) fileHash n) :
    FullRecord (Redis.queryMetadata s order filename) fileHash n stored := by
  have hback := flatMap_readBack hstored.readable
  constructor
  · rw [queryMetadata_redis s order hne, hget, get_commitInto_fileHash, if_pos hhash]
    rfl
  · rw [queryMetadata_redis s order hne, hget, get_commitInto_replicaCount, if_pos hpos,
      Option.bind_some, stoi_dec (by omega) hhi]
    exact if_neg fun h => absurd h.1 (not_le.mpr hpos)
  · intro c hc
    rw [mem_placements_queryMetadata hne, hget]
    -- the record of the replica, and the one whose value its field has
    have hmem : c.placement ∈ (fillCounts (stored.flatMap readBack)).map (·.placement) := by
      rw [placements_fillCounts, hback, List.map_map]
      exact List.mem_map_of_mem hc
    obtain ⟨r, hr, hplacement⟩ := List.mem_map.mp hmem
    have hid := chunkIdOf_field (idFits_fillCounts (idFits_readBack _) hr)
    obtain ⟨r', hr', hfield, hvalue⟩ :=
      get_commitInto_field old (stored.flatMap readBack) fileHash n hr (by rw [hid]; rfl)
    obtain ⟨hsameid, hsameserver⟩ := chunkField_inj hfield
    obtain ⟨r'', hr'', hplacement'⟩ := exists_of_mem_fillCounts hr'
    rw [hback] at hr''
    obtain ⟨c', hc', rfl⟩ := List.mem_map.mp hr''
    have hsame : c.placement = r'.placement := by
      have hcid : c.chunkId = c'.chunkId :=
        (congrArg Placement.chunkId hplacement).symm.trans
          (hsameid.trans (congrArg Placement.chunkId hplacement'))
      have hcserver : c.serverIp = c'.serverIp :=
        (congrArg Placement.server hplacement).symm.trans
          (hsameserver.trans (congrArg Placement.server hplacement'))
      exact (hstored.one_per_slot c hc c' hc' hcid hcserver).trans hplacement'.symm
    have hbar : r'.placement.NoBar := hsame ▸ hstored.noBar c hc
    refine ⟨r.field, chunkValue r', r'.chunkId, hvalue, ?_, ?_⟩
    · rw [hid, hsameid]
    · rw [decodeChunk_chunkValue hbar, hsame, ChunkRecord.placement_decoded]

/-- What a query shows after a commit, if there was no chunk field before. -/
lemma shown_of_commitInto (hne : filename ≠ [])
    (hold : ∀ field, (chunkIdOf field).isSome → old[field]? = none)
    (hget : s.hgetall (fileKey filename) = commitInto old (stored.flatMap readBack) fileHash n)
    {p : Placement} (hp : p ∈ (Redis.queryMetadata s order filename).placements) :
    ∃ r ∈ fillCounts (stored.flatMap readBack),
      (s.hgetall (fileKey filename))[r.field]? = some (chunkValue r) ∧
        p = (decodeChunk (perChunkRep (order.visit (s.hgetall (fileKey filename)).toList)) r.chunkId
          (chunkValue r)).placement := by
  obtain ⟨field, value, chunkId, hvalue, hid, rfl⟩ := (mem_placements_queryMetadata hne).mp hp
  have hsome : (chunkIdOf field).isSome := by rw [hid]; rfl
  rw [hget] at hvalue
  rcases get_commitInto_chunk _ _ _ _ hsome hvalue with ⟨r, hr, rfl, rfl⟩ | ⟨hfield, -⟩
  · obtain rfl : r.chunkId = chunkId :=
      Option.some.inj ((chunkIdOf_field (idFits_fillCounts (idFits_readBack _) hr)).symm.trans hid)
    exact ⟨r, hr, by rw [hget]; exact hvalue, rfl⟩
  · rw [hold field hsome] at hfield
    cases hfield

section

variable (hne : filename ≠ []) (hold : ∀ field, (chunkIdOf field).isSome → old[field]? = none)
  (hget : s.hgetall (fileKey filename) = commitInto old (stored.flatMap readBack) fileHash n)
  (hshown : ∀ c ∈ stored, c.placement ∈ (Redis.queryMetadata s order filename).placements)
include hne hold hget hshown

/-- Nothing that a query shows has a bar in it. -/
lemma noBar_of_shown_replica {c : ChunkInfo} (hc : c ∈ stored) : c.placement.NoBar := by
  obtain ⟨r, -, -, heq⟩ := shown_of_commitInto hne hold hget (hshown c hc)
  rw [heq]
  exact noBar_decodeChunk _ _ _

/-- So neither has a record that was read from the request. -/
lemma noBar_of_shown_record {r : ChunkRecord} (hr : r ∈ fillCounts (stored.flatMap readBack)) :
    r.placement.NoBar := by
  obtain ⟨r', hr', heq⟩ := exists_of_mem_fillCounts hr
  obtain ⟨c, hc, hr'⟩ := List.mem_flatMap.mp hr'
  rw [heq]
  exact noBar_of_mem_readBack (noBar_of_shown_replica hne hold hget hshown hc) hr'

/-- Without a bar a value is read back as the record it was written for. -/
lemma exists_record_of_shown {c : ChunkInfo} (hc : c ∈ stored) :
    ∃ r ∈ fillCounts (stored.flatMap readBack),
      (s.hgetall (fileKey filename))[r.field]? = some (chunkValue r) ∧
        c.placement = r.placement := by
  obtain ⟨r, hr, hvalue, heq⟩ := shown_of_commitInto hne hold hget (hshown c hc)
  rw [decodeChunk_chunkValue (noBar_of_shown_record hne hold hget hshown hr),
    ChunkRecord.placement_decoded] at heq
  exact ⟨r, hr, hvalue, heq⟩

/-- **Replicas that are shown can be stored on Redis**, if nothing was there before. -/
theorem storable_of_shown
    (hreadable : ∀ c ∈ stored, Word c.serverIp → Word c.filePath → c.Readable) :
    StorableOnRedis stored where
  readable := by
    intro c hc
    obtain ⟨r, hr, -, heq⟩ := exists_record_of_shown hne hold hget hshown hc
    obtain ⟨r', hr', heq'⟩ := exists_of_mem_fillCounts hr
    obtain ⟨c₀, -, hr'⟩ := List.mem_flatMap.mp hr'
    obtain ⟨hwserver, hwpath⟩ := word_of_mem_readBack hr'
    have hcserver : c.serverIp = r'.server := congrArg Placement.server (heq.trans heq')
    have hcpath : c.filePath = r'.path := congrArg Placement.path (heq.trans heq')
    exact hreadable c hc (hcserver ▸ hwserver) (hcpath ▸ hwpath)
  noBar := fun c hc => noBar_of_shown_replica hne hold hget hshown hc
  one_per_slot := by
    intro c hc c' hc' hid hserver
    obtain ⟨r, hr, hvalue, heq⟩ := exists_record_of_shown hne hold hget hshown hc
    obtain ⟨r', hr', hvalue', heq'⟩ := exists_record_of_shown hne hold hget hshown hc'
    have hrid : r.chunkId = r'.chunkId :=
      (congrArg Placement.chunkId heq).symm.trans (hid.trans (congrArg Placement.chunkId heq'))
    have hrserver : r.server = r'.server :=
      (congrArg Placement.server heq).symm.trans
        (hserver.trans (congrArg Placement.server heq'))
    have hfield : r.field = r'.field := by
      rw [ChunkRecord.field, ChunkRecord.field, hrid, hrserver]
    rw [hfield, hvalue'] at hvalue
    -- one field has one value, and a value is read in one way
    have hread : ∀ r₀ ∈ fillCounts (stored.flatMap readBack),
        (decodeChunk ∅ r₀.chunkId (chunkValue r₀)).placement = r₀.placement := by
      intro r₀ hr₀
      rw [decodeChunk_chunkValue (noBar_of_shown_record hne hold hget hshown hr₀),
        ChunkRecord.placement_decoded]
    rw [heq, heq', ← hread r hr, ← hread r' hr', hrid, Option.some.inj hvalue]

end

end

/-- The count that is committed is the replication factor. -/
lemma fillFileCount_factor (env : UploadEnv) (transfers : Nat → Option Bytes) (stream : Bytes)
    (r : UploadRequest) :
    fillFileCount env.replicationFactor
        ((replicasOf env transfers stream r).flatMap readBack) =
      env.replicationFactor := by
  refine if_neg ?_
  rintro ⟨hle, hne⟩
  rw [storedReplicas_of_factor hle] at hne
  exact hne rfl

/-- A key with nothing but a count. -/
def onlyCount (filename : Bytes) (count : Int) : Redis :=
  HashStore.exec {} (.hset (fileKey filename) [(ascii "replica_count", dec count)])

lemma hgetall_onlyCount (filename : Bytes) (count : Int) :
    (onlyCount filename count).hgetall (fileKey filename) =
      (∅ : Map Bytes Bytes).insert (ascii "replica_count") (dec count) := by
  rw [onlyCount, HashStore.hgetall_hset, if_pos rfl]
  rfl

lemma get_onlyCount_chunk (filename : Bytes) (count : Int) (field : Bytes)
    (hfield : (chunkIdOf field).isSome) :
    ((onlyCount filename count).hgetall (fileKey filename))[field]? = none := by
  have hne : field ≠ ascii "replica_count" := by
    rintro rfl
    exact absurd hfield (by decide)
  rw [hgetall_onlyCount, Map.get_insert, if_neg hne]
  simp

/-- A query that does not show the count that was there was preceded by all the `HSET`s. -/
lemma executed_of_fullRecord {filename fileHash : Bytes} {records : List ChunkRecord}
    {factor count : Int} {k : Nat} {stored : List ChunkInfo} {order : Schedule}
    (hne : filename ≠ []) (hpos : 0 < count) (hle : count ≤ 2 ^ 31 - 1) (hother : count ≠ factor)
    (hfull : FullRecord (Redis.queryMetadata
      (((commitCommands filename records fileHash factor).take k).foldl HashStore.exec
        (onlyCount filename count)) order filename) fileHash factor stored) :
    0 < factor ∧ (commitCommands filename records fileHash factor).length ≤ k + 1 := by
  by_contra hcut
  have hget := get_replicaCount_of_cut (onlyCount filename count) hcut
  rw [hgetall_onlyCount, Map.get_insert, if_pos rfl] at hget
  have hcount := hfull.count
  rw [queryMetadata_redis _ _ hne, hget, Option.bind_some, stoi_dec (by omega) hle,
    Option.getD_some] at hcount
  exact hother ((if_neg fun h => absurd h.1 (not_le.mpr hpos)).symm.trans hcount)

lemma length_commitCommands {stored : List ChunkInfo} (hreadable : ∀ c ∈ stored, c.Readable)
    (filename : Bytes) {fileHash : Bytes} (hhash : fileHash ≠ []) {n : Int} (hn : 0 < n) :
    (commitCommands filename (stored.flatMap readBack) fileHash n).length = hsets stored + 1 := by
  rw [flatMap_readBack hreadable]
  cases stored with
  | nil => simp [commitCommands, hsets, hhash, hn]
  | cons c stored => simp [commitCommands, hsets, hhash, hn]

section

variable {filename fileHash : Bytes} {stored : List ChunkInfo} {factor : Int}
  (outcomes : List CommandOutcome)

/-- What `store_metadata` leaves on Redis: as much of its script as takes effect. -/
lemma storeOnRedis_eq (hname : Word filename) (hhash : Word fileHash) (hlo : -2 ^ 31 ≤ factor)
    (hhi : factor ≤ 2 ^ 31 - 1) (hfactor : fillFileCount factor (stored.flatMap readBack) = factor)
    (s : Redis) :
    let script := commitCommands filename (stored.flatMap readBack) fileHash factor
    storeOnRedis outcomes s filename stored fileHash factor =
      (script.take (HashStore.executed script.length outcomes)).foldl HashStore.exec s := by
  rw [storeOnRedis, Redis.storeMetadata, Redis.createEntry, createCommands_metadataRequest _ _
    hname.not_mem_newline hhash.not_mem_newline, stoi_dec hlo hhi, Option.getD_some, hfactor]
  exact HashStore.execAll_eq s _ outcomes

/-- **When `store_metadata` can be trusted on Redis**, whatever was there before. -/
theorem storedOnRedis_iff (hname : Word filename) (hhash : Word fileHash) (hlo : -2 ^ 31 ≤ factor)
    (hhi : factor ≤ 2 ^ 31 - 1) (hfactor : fillFileCount factor (stored.flatMap readBack) = factor)
    (hreadable : ∀ c ∈ stored, Word c.serverIp → Word c.filePath → c.Readable) :
    (∀ s order, FullRecord
      (Redis.queryMetadata (storeOnRedis outcomes s filename stored fileHash factor) order filename)
      fileHash factor stored) ↔
      StorableOnRedis stored ∧ 0 < factor ∧
        hsets stored ≤ HashStore.executed (hsets stored + 1) outcomes := by
  constructor
  · intro h
    -- a key with nothing but a count that is not the right one
    let count : Int := if factor = 1 then 2 else 1
    have hcount : 0 < count ∧ count ≤ 2 ^ 31 - 1 ∧ count ≠ factor := by
      simp only [count]
      split_ifs with hone
      · omega
      · omega
    have hfull := h (onlyCount filename count) .inOrder
    rw [storeOnRedis_eq outcomes hname hhash hlo hhi hfactor] at hfull
    obtain ⟨hpos, hall⟩ := executed_of_fullRecord hname.1 hcount.1 hcount.2.1 hcount.2.2 hfull
    have hget := hgetall_of_hsets (onlyCount filename count) hall
    have hstorable := storable_of_shown hname.1 (get_onlyCount_chunk filename count) hget
      hfull.placements hreadable
    refine ⟨hstorable, hpos, ?_⟩
    rw [length_commitCommands hstorable.readable filename hhash.1 hpos] at hall
    omega
  · rintro ⟨hstorable, hpos, hexecuted⟩ s order
    have hlength := length_commitCommands hstorable.readable filename hhash.1 hpos
    rw [storeOnRedis_eq outcomes hname hhash hlo hhi hfactor]
    refine fullRecord_of_commitInto hname.1 hhash.1 hpos hhi hstorable (hgetall_of_hsets s ?_)
    rw [hlength]
    omega

end

/-! ## The file of the on-disk backend -/

/-! ### Every store that uploads build is separable -/

/-- The texts of a record that was read have no newline in them. -/
lemma newline_of_mem_readBack {c : ChunkInfo} {r : ChunkRecord} (hr : r ∈ readBack c) :
    (10 : UInt8) ∉ r.server ∧ (10 : UInt8) ∉ r.path ∧ (10 : UInt8) ∉ r.checksum := by
  obtain ⟨line, hmem, hparse⟩ := List.mem_filterMap.mp hr
  have hline := lines_newline_not_mem _ line (List.mem_of_mem_filter hmem)
  obtain ⟨hserver, hpath, hsum⟩ := subset_of_parseChunkLine hparse
  exact ⟨fun h => hline (hserver h), fun h => hline (hpath h), fun h => hline (hsum h)⟩

lemma separable_empty : Separable ∅ := by
  intro f record hf
  simp at hf

/-- **An upload keeps the store separable**, whatever its replicas look like. -/
theorem separable_storeMetadata {m : MetadataMap} (hm : Separable m) {filename fileHash : Bytes}
    (hname : Word filename) (hhash : Word fileHash) (chunks : List ChunkInfo)
    (replicationFactor : Int) :
    Separable (storeMetadata m filename chunks fileHash replicationFactor) := by
  intro f record hf
  rw [storeMetadata_replaceFileChunks m chunks replicationFactor hname.not_mem_newline
    hhash.not_mem_newline, MetadataMap.replaceFileChunks, Map.get_insert] at hf
  split_ifs at hf with hfile
  · cases hf
    subst hfile
    refine ⟨hname, newline_not_mem_fileLines hname.not_mem_newline hhash.not_mem_newline ?_⟩
    intro r hr
    obtain ⟨r₁, hr₁, heq₁⟩ := exists_of_mem_fillCounts hr
    obtain ⟨r₂, hr₂, heq₂⟩ := exists_of_mem_fillCounts hr₁
    obtain ⟨c, -, hr₂⟩ := List.mem_flatMap.mp hr₂
    have heq := heq₁.trans heq₂
    have hserver : r.server = r₂.server := congrArg Placement.server heq
    have hpath : r.path = r₂.path := congrArg Placement.path heq
    have hsum : r.checksum = r₂.checksum := congrArg Placement.checksum heq
    rw [hserver, hpath, hsum]
    exact newline_of_mem_readBack hr₂
  · exact hm f record hf

/-! ### A file that was not written to its end -/

/-- What is read of a line that was cut is about its own file. -/
lemma get_loadFromDisk_cut {f g : Bytes} (hg : Word g) (hne : f ≠ g) {rest : Bytes}
    (hrest : (10 : UInt8) ∉ rest) (n : Nat) :
    (loadFromDisk ((g ++ 32 :: rest).take n))[f]? = none := by
  rcases Nat.lt_or_ge g.length n with hn | hn
  swap
  · rw [List.take_append_of_le_length hn, loadFromDisk_name_cut hg]
    simp
  · obtain ⟨k, rfl⟩ : ∃ k, n = g.length + (k + 1) := ⟨n - g.length - 1, by omega⟩
    rw [List.take_length_add_append, List.take_succ_cons]
    have hline : (10 : UInt8) ∉ g ++ 32 :: rest.take k :=
      hg.append_not_mem_newline fun h => hrest (List.mem_of_mem_take h)
    rw [(loadFromDisk_line hline).1, Map.get_map, get_loadLine_of_ne hg hne]
    simp

/-- The files in the reverse of their order. -/
def Schedule.reversed : Schedule := ⟨fun n => (List.range n).reverse, fun _ => List.reverse_perm _⟩

lemma exists_iteration_pair {m : MetadataMap} {p q : Bytes × FileRecord}
    (h : m.toList.Perm [p, q]) : ∃ order, iteration order m = [p, q] := by
  obtain ⟨a, b, hlist⟩ := List.length_eq_two.mp h.length_eq
  rw [hlist] at h
  rcases List.mem_pair.mp (h.mem_iff.mp List.mem_cons_self) with rfl | rfl
  · obtain rfl : b = q := by simpa using List.perm_singleton.mp (List.Perm.cons_inv h)
    exact ⟨.inOrder, by simp [iteration, hlist, Schedule.inOrder, List.range_succ]⟩
  · obtain rfl : b = p := by
      simpa using List.perm_singleton.mp (List.Perm.cons_inv (h.trans (List.Perm.swap _ _ _)))
    exact ⟨.reversed, by simp [iteration, hlist, Schedule.reversed, List.range_succ]⟩

/-- **A write that is cut loses the file**, if the head has another file with a long enough hash and
writes that one first. -/
lemma exists_lost_by_cut {f : Bytes} (hf : Word f) (record : FileRecord) (factor : Int) (n : Nat) :
    ∃ m : MetadataMap, Separable m ∧ ∃ order,
      (loadFromDisk ((persistLocked order (m.insert f record)).take n))[f]? = none := by
  let g : Bytes := 97 :: f
  let hash : Bytes := List.replicate (n + 1) 97
  have hg : Word g := by
    refine ⟨by simp [g], fun b hb => ?_⟩
    rcases List.mem_cons.mp hb with rfl | hb
    · decide
    · exact hf.2 b hb
  have hhash : Word hash := by
    refine ⟨by simp [hash], fun b hb => ?_⟩
    rw [List.eq_of_mem_replicate hb]
    decide
  have hne : f ≠ g := by simp [g]
  obtain ⟨other, hother, hstore⟩ : ∃ other : FileRecord, other.fileHash = hash ∧
      storeMetadata ∅ g [] hash factor = (∅ : MetadataMap).insert g other :=
    ⟨_, rfl, storeMetadata_replaceFileChunks ∅ [] factor hg.not_mem_newline hhash.not_mem_newline⟩
  refine ⟨storeMetadata ∅ g [] hash factor,
    separable_storeMetadata separable_empty hg hhash [] factor, ?_⟩
  have hperm : (((∅ : MetadataMap).insert g other).insert f record).toList.Perm
      [(f, record), (g, other)] := by
    refine (Map.toList_insert_perm ?_ record).trans
      ((Map.toList_insert_perm (m := ∅) ?_ other).cons (f, record))
    · rw [Map.get_insert, if_neg hne]
      simp
    · simp
  obtain ⟨order, horder⟩ := exists_iteration_pair (hperm.trans (List.Perm.swap _ _ _))
  refine ⟨order, ?_⟩
  obtain ⟨tail, htext⟩ : ∃ tail, persistLocked order (((∅ : MetadataMap).insert g other).insert f
      record) = hashLine g hash ++ tail := by
    rw [persistLocked, horder, List.flatMap_cons, fileLines, hother, if_pos hhash.1]
    simp
  have hn : n ≤ (hashLine g hash).length := by
    simp only [hashLine, hash, List.length_append, List.length_cons, List.length_replicate]
    omega
  have hrest : (10 : UInt8) ∉ ascii "HASH=" ++ hash :=
    (Word.append (by decide) hhash.2).not_mem_newline
  rw [hstore, htext, List.take_append_of_le_length hn]
  exact get_loadFromDisk_cut hg hne hrest n

/-! ### When `SUCCESS` can be trusted on disk -/

section

variable {filename fileHash : Bytes} {stored : List ChunkInfo} {factor : Int}
  {outcome : WriteOutcome}

/-- The store after an upload has the record of the file, the one that was parsed. -/
lemma exists_storeMetadata_insert (hname : Word filename) (hhash : Word fileHash)
    (stored : List ChunkInfo) (factor : Int) :
    ∃ record, ∀ m : MetadataMap,
      storeMetadata m filename stored fileHash factor = m.insert filename record :=
  ⟨_, fun m => storeMetadata_replaceFileChunks m stored factor hname.not_mem_newline
    hhash.not_mem_newline⟩

/-- **A write that fails is not told from one that succeeds**, and there is a store for which the
record is lost. -/
theorem complete_of_recorded (hname : Word filename) (hhash : Word fileHash)
    (h : ∀ s : MetadataState, Separable s.store → ∀ order,
      RecordedOnDisk (storeOnDisk order outcome s filename stored fileHash factor) filename
        fileHash factor stored) :
    outcome = .complete := by
  have hlost : ∀ m : MetadataMap, m[filename]? = none →
      (m.queryMetadata filename).fileHash ≠ fileHash := by
    intro m hm heq
    rw [m.queryMetadata_of_ne hname.1, hm] at heq
    exact hhash.1 heq.symm
  cases outcome with
  | complete => rfl
  | notOpened =>
      have hempty := (h {} separable_empty .inOrder).restarted.hash
      exact absurd hempty (hlost _ (by simp [storeOnDisk, WriteOutcome.written]))
  | cut n =>
      obtain ⟨record, hrecord⟩ := exists_storeMetadata_insert hname hhash stored factor
      obtain ⟨m, hm, order, hnone⟩ := exists_lost_by_cut hname record factor n
      have hcut := (h { store := m } hm order).restarted.hash
      rw [storeOnDisk, hrecord] at hcut
      exact absurd hcut (hlost _ hnone)

/-- A factor that is negative is not written, and is read back as zero. -/
lemma nonneg_of_recorded (hname : Word filename) (hhash : Word fileHash) (hlo : -2 ^ 31 ≤ factor)
    (h : RecordedOnDisk (storeOnDisk .inOrder .complete {} filename [] fileHash factor) filename
      fileHash factor []) : 0 ≤ factor := by
  by_contra hneg
  have hstore : storeMetadata ∅ filename [] fileHash factor =
      (∅ : MetadataMap).insert filename { fileHash, replicaCount := factor } := by
    rw [storeMetadata_replaceFileChunks ∅ [] factor hname.not_mem_newline hhash.not_mem_newline,
      stoi_dec hlo (by omega)]
    simp [MetadataMap.replaceFileChunks, fillFileCount, fillCounts]
  have htext : persistLocked .inOrder (storeMetadata ∅ filename [] fileHash factor) =
      hashLine filename fileHash ++ [10] := by
    rw [hstore, persistLocked_single]
    simp [fileLines, hhash.1, show ¬0 < factor by omega]
  have hline : (10 : UInt8) ∉ hashLine filename fileHash :=
    hname.append_not_mem_newline (Word.append (by decide) hhash.2).not_mem_newline
  have hcount := h.restarted.count
  rw [storeOnDisk, WriteOutcome.written, htext, (loadFromDisk_line hline).2,
    loadLine_hash hname hhash, map_settleCounts_insert, MetadataMap.queryMetadata_of_ne _ hname.1,
    Map.get_insert, if_pos rfl] at hcount
  exact hneg hcount.le

/-- A replica that is in the store was read back, so its server and its path are words. -/
lemma words_of_recorded {s : MetadataState} {order : Schedule} (hname : Word filename)
    (hhash : Word fileHash)
    (h : RecordedOnDisk (storeOnDisk order outcome s filename stored fileHash factor) filename
      fileHash factor stored) {c : ChunkInfo} (hc : c ∈ stored) :
    Word c.serverIp ∧ Word c.filePath := by
  have hmem := h.store.placements c hc
  have hplacements := placementsOf_storeMetadata s.store stored factor hname.not_mem_newline
    hhash.not_mem_newline filename
  rw [if_pos rfl] at hplacements
  rw [storeOnDisk, MetadataMap.placements_queryMetadata _ hname.1, hplacements] at hmem
  obtain ⟨record, hrecord, heq⟩ := List.mem_map.mp hmem
  obtain ⟨c₀, -, hrecord⟩ := List.mem_flatMap.mp hrecord
  have hcserver : record.server = c.serverIp := congrArg Placement.server heq
  have hcpath : record.path = c.filePath := congrArg Placement.path heq
  rw [← hcserver, ← hcpath]
  exact word_of_mem_readBack hrecord

/-- **A commit that is written to its end is recorded.** -/
theorem recorded_of_complete (u : UploadCommit) (hlen : u.chunks.length ≤ 2 ^ 31 - 1)
    (hfactor : fillFileCount u.replicationFactor (u.chunks.map (·.readAs)) = u.replicationFactor)
    {s : MetadataState} (hs : Separable s.store) (order : Schedule) :
    RecordedOnDisk
      (storeOnDisk order .complete s u.filename u.chunks u.fileHash u.replicationFactor)
      u.filename u.fileHash u.replicationFactor u.chunks := by
  have hfull : FullRecord u.committed u.fileHash u.replicationFactor u.chunks := by
    refine ⟨rfl, hfactor, fun c hc => ?_⟩
    rw [FileRecord.placements, UploadCommit.committed, placements_recount, List.map_map]
    exact List.mem_map_of_mem hc
  have hquery : ∀ m : MetadataMap, m[u.filename]? = some u.committed →
      m.queryMetadata u.filename = u.committed := by
    intro m hm
    rw [m.queryMetadata_of_ne u.name.1, hm]
    rfl
  have hget : (storeMetadata s.store u.filename u.chunks u.fileHash
      u.replicationFactor)[u.filename]? = some u.committed := by
    have hstore : storeMetadata s.store u.filename u.chunks u.fileHash u.replicationFactor =
        s.store.insert u.filename u.committed := u.createEntry_request s.store
    rw [hstore, Map.get_insert, if_pos rfl]
  have hpersistable := u.persistable (by simpa [UploadCommit.committed, recount] using hlen)
  have hloaded := get_loadFromDisk_persistLocked order
    (separable_storeMetadata hs u.name u.hash _ _) hget hpersistable
  constructor
  · rw [storeOnDisk, hquery _ hget]
    exact hfull
  · rw [storeOnDisk, WriteOutcome.written, hquery _ hloaded]
    exact hfull

end

/-! ## The result -/

section

variable {env : UploadEnv} {transfers : Nat → Option Bytes} {initialReq stream : Bytes}

/-- **What is asked of the answer `SUCCESS` is asked of the store**, once for every upload that is
accepted: the answer does not depend on what the store makes of it. -/
theorem success_rule (env : UploadEnv) (transfers : Nat → Option Bytes) (initialReq stream : Bytes)
    {τ : Type} (store : τ → Bytes → List ChunkInfo → Bytes → Int → τ) (t : τ)
    (P : UploadRequest → τ → Prop) :
    (∀ r, parseUploadRequest env.chunkSize initialReq = .ok r →
      (handleClientUploadOn (withOutcomes transfers) store env () t initialReq stream).2.2 =
        success →
      P r (handleClientUploadOn (withOutcomes transfers) store env () t initialReq stream).2.1) ↔
    ∀ r, UploadAccepted env transfers initialReq stream r →
      P r (store t r.filename (replicasOf env transfers stream r) r.fileHash
        env.replicationFactor) := by
  have hiff := uploadOn_success_iff (withOutcomes transfers) store env () t initialReq stream
  constructor
  · intro h r hr
    have hsuccess := hiff.mpr ⟨r, hr⟩
    have hP := h r hr.1 hsuccess
    rwa [uploadOn_commits _ _ env () t initialReq stream hr.1 hsuccess] at hP
  · intro h r hparse hsuccess
    obtain ⟨r', hr⟩ := hiff.mp hsuccess
    obtain rfl : r = r' := Except.ok.inj (hparse.symm.trans hr.1)
    rw [uploadOn_commits _ _ env () t initialReq stream hparse hsuccess]
    exact h r hr

/-- **When `SUCCESS` can be trusted on Redis.** -/
theorem committedOnRedis_iff (outcomes : List CommandOutcome)
    (hlo : -2 ^ 31 ≤ env.replicationFactor) (hhi : env.replicationFactor ≤ 2 ^ 31 - 1) :
    CommittedOnRedis env transfers initialReq stream outcomes ↔
      ∀ r, UploadAccepted env transfers initialReq stream r →
        StorableOnRedis (replicasOf env transfers stream r) ∧ 0 < env.replicationFactor ∧
          hsets (replicasOf env transfers stream r) ≤
            HashStore.executed (hsets (replicasOf env transfers stream r) + 1) outcomes := by
  have hrule := fun s => success_rule env transfers initialReq stream (storeOnRedis outcomes) s
    fun r s => ∀ order, FullRecord (Redis.queryMetadata s order r.filename) r.fileHash
      env.replicationFactor (replicasOf env transfers stream r)
  rw [CommittedOnRedis, forall_congr' hrule, forall_comm]
  refine forall_congr' fun r => ?_
  rw [forall_comm]
  refine forall_congr' fun hr => ?_
  obtain ⟨hname, hhash⟩ := parseUploadRequest_words hr.1
  exact storedOnRedis_iff outcomes hname hhash hlo hhi (fillFileCount_factor env transfers stream r)
    fun c hc => readable_of_words hc

/-- **When `SUCCESS` can be trusted on disk.** -/
theorem committedOnDisk_iff (outcome : WriteOutcome) (hlo : -2 ^ 31 ≤ env.replicationFactor)
    (hhi : env.replicationFactor ≤ 2 ^ 31 - 1)
    (hlen : ∀ r, UploadAccepted env transfers initialReq stream r →
      (replicasOf env transfers stream r).length ≤ 2 ^ 31 - 1) :
    CommittedOnDisk env transfers initialReq stream outcome ↔
      ∀ r, UploadAccepted env transfers initialReq stream r →
        outcome = .complete ∧ 0 ≤ env.replicationFactor ∧
          ∀ c ∈ replicasOf env transfers stream r, c.Readable := by
  have hrule := fun s order => success_rule env transfers initialReq stream
    (storeOnDisk order outcome) s fun r s =>
    RecordedOnDisk s r.filename r.fileHash env.replicationFactor (replicasOf env transfers stream r)
  constructor
  · intro h r hr
    obtain ⟨hname, hhash⟩ := parseUploadRequest_words hr.1
    have hrecorded : ∀ s : MetadataState, Separable s.store → ∀ order, RecordedOnDisk
        (storeOnDisk order outcome s r.filename (replicasOf env transfers stream r) r.fileHash
          env.replicationFactor) r.filename r.fileHash env.replicationFactor
        (replicasOf env transfers stream r) :=
      fun s hs order => (hrule s order).mp (h s hs order) r hr
    obtain rfl := complete_of_recorded hname hhash hrecorded
    have hempty := hrecorded {} separable_empty .inOrder
    refine ⟨rfl, ?_, fun c hc => ?_⟩
    · by_contra hneg
      rw [storedReplicas_of_factor (by omega)] at hempty
      exact hneg (nonneg_of_recorded hname hhash hlo hempty)
    · obtain ⟨hserver, hpath⟩ := words_of_recorded hname hhash hempty hc
      exact readable_of_words hc hserver hpath
  · intro h s hs order
    refine (hrule s order).mpr fun r hr => ?_
    obtain ⟨hname, hhash⟩ := parseUploadRequest_words hr.1
    obtain ⟨rfl, hnonneg, hreadable⟩ := h r hr
    let u : UploadCommit :=
      { filename := r.filename, fileHash := r.fileHash, replicationFactor := env.replicationFactor
        pending := env.pending (r.received stream).1
        outcomes := (withOutcomes transfers () r.filename (env.pending (r.received stream).1)).2
        name := hname, hash := hhash, factor_nonneg := hnonneg, factor_le := hhi
        readable := hreadable }
    have hfactor := fillFileCount_factor env transfers stream r
    rw [flatMap_readBack hreadable] at hfactor
    exact recorded_of_complete u (hlen r hr) hfactor hs order

end

/-- **When `SUCCESS` means that the metadata is committed**, on the one backend and on the other. -/
theorem success_committed_iff (env : UploadEnv) (transfers : Nat → Option Bytes)
    (initialReq stream : Bytes) (outcomes : List CommandOutcome) (outcome : WriteOutcome)
    (hlo : -2 ^ 31 ≤ env.replicationFactor) (hhi : env.replicationFactor ≤ 2 ^ 31 - 1)
    (hlen : ∀ r, UploadAccepted env transfers initialReq stream r →
      (replicasOf env transfers stream r).length ≤ 2 ^ 31 - 1) :
    (CommittedOnRedis env transfers initialReq stream outcomes ↔
      ∀ r, UploadAccepted env transfers initialReq stream r →
        StorableOnRedis (replicasOf env transfers stream r) ∧ 0 < env.replicationFactor ∧
          hsets (replicasOf env transfers stream r) ≤
            HashStore.executed (hsets (replicasOf env transfers stream r) + 1) outcomes) ∧
    (CommittedOnDisk env transfers initialReq stream outcome ↔
      ∀ r, UploadAccepted env transfers initialReq stream r →
        outcome = .complete ∧ 0 ≤ env.replicationFactor ∧
          ∀ c ∈ replicasOf env transfers stream r, c.Readable) :=
  ⟨committedOnRedis_iff outcomes hlo hhi, committedOnDisk_iff outcome hlo hhi hlen⟩

/-- The request for a file of two chunks, as the handler reads it. -/
def twoChunkUpload : UploadRequest where
  filename := ascii "f"
  fileSize := 2
  numChunks := 2
  fileHash := ascii "38164fbd17603d73f696b8b4d72664d735bb6a7c88577687fd2ae33fd6964153"

/-- Its replicas, on the one server there is. -/
def twoChunkReplicas : List ChunkInfo :=
  [{ chunkId := 0, serverIp := ascii "10.0.0.1:8080", filePath := ascii "/c/x.dat", size := 1
     checksum := ascii "559aead08264d5795d3909718cdd05abd49572e84fe55590eef31a88a08fdffd" },
   { chunkId := 1, serverIp := ascii "10.0.0.1:8080", filePath := ascii "/c/x.dat", size := 1
     checksum := ascii "df7e70e5021544f4834bbee64a9e3789febc4be81470df629cad6ddb03320a5c" }]

set_option maxRecDepth 100000 in
/-- With commands that all succeed and a file that is written, two chunks on a server are
committed. -/
theorem success_committed_two_chunks :
    let transfers := fun _ => some (ascii "/c/x.dat")
    CommittedOnRedis oneServer transfers twoChunkRequest twoChunkStream [] ∧
      CommittedOnDisk oneServer transfers twoChunkRequest twoChunkStream .complete := by
  intro transfers
  have hparse : parseUploadRequest oneServer.chunkSize twoChunkRequest = .ok twoChunkUpload := by
    decide +kernel
  have hupload : replicasOf oneServer transfers twoChunkStream twoChunkUpload =
      twoChunkReplicas := by
    decide +kernel
  have hstored : ∀ r, UploadAccepted oneServer transfers twoChunkRequest twoChunkStream r →
      replicasOf oneServer transfers twoChunkStream r = twoChunkReplicas := by
    intro r h
    obtain rfl : r = twoChunkUpload := Except.ok.inj (h.1.symm.trans hparse)
    exact hupload
  have hreadable : ∀ c ∈ twoChunkReplicas, c.Readable := by decide +kernel
  obtain ⟨hredis, hdisk⟩ := success_committed_iff oneServer transfers twoChunkRequest twoChunkStream
    [] .complete (by decide) (by decide) (fun r h => by rw [hstored r h]; decide)
  constructor
  · rw [hredis]
    intro r h
    rw [hstored r h]
    exact ⟨⟨hreadable, by decide +kernel, by decide +kernel⟩, by decide, by decide +kernel⟩
  · rw [hdisk]
    intro r h
    rw [hstored r h]
    exact ⟨rfl, by decide, hreadable⟩

set_option maxRecDepth 100000 in
/-- **`SUCCESS`, and there is no such file**: on Redis when the first command fails, and on disk,
after a restart, when the file cannot be opened. -/
theorem success_without_metadata :
    let run := withOutcomes fun _ => some (ascii "/c/x.dat")
    let onRedis := handleClientUploadOn run (storeOnRedis [.failed]) oneServer () {} twoChunkRequest
      twoChunkStream
    let onDisk := handleClientUploadOn run (storeOnDisk .inOrder .notOpened) oneServer () {}
      twoChunkRequest twoChunkStream
    onRedis.2.2 = success ∧ Redis.queryMetadata onRedis.2.1 .inOrder (ascii "f") = {} ∧
      onDisk.2.2 = success ∧ (loadFromDisk onDisk.2.1.disk).queryMetadata (ascii "f") = {} := by
  decide +kernel

end FileGrid
