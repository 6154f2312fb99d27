import FileGrid.Common.NetUtils
import FileGrid.Core.HashStore
import FileGrid.Core.Unordered
import FileGrid.Metadata.Request

/-!
# The metadata store on Redis

The head server can be built to keep its metadata in Redis.  A file is one hash under `file:<name>`:
a field `chunk:<id>:<server>` for every replica, whose value spells the record out with bars between
the fields; a field `chunk_replicas:<id>` for every chunk; and the fields `file_hash` and
`replica_count`.  The functions have the names of those of the on-disk backend.

* Writing.  `create_entry` is a script of at most four commands (`createCommands`), each of which
  can fail; `createCommands_metadataRequest` says what the script is for a request of
  `store_metadata`.
* Reading.  `query_metadata` goes over the fields in the order of an unordered map, which is left
  open.  A record without a bar in it is read back as it is (`decodeChunk_chunkValue`), and what is
  read has no bar in it (`noBar_decodeChunk`).
-/

namespace FileGrid

/-- The server, as the head uses it. -/
abbrev Redis := HashStore Bytes Bytes Bytes

abbrev RedisCommand := HashCommand Bytes Bytes Bytes

/-! ## Keys, fields and values -/

/-- `file_key`. -/
def fileKey (id : Bytes) : Bytes := ascii "file:" ++ id

/-- `encode_loc`. -/
def encodeLoc (server path : Bytes) : Bytes := server ++ 124 :: path

def chunkField (chunkId : Int) (server : Bytes) : Bytes :=
  ascii "chunk:" ++ (dec chunkId ++ colon :: server)

def chunkReplicasField (chunkId : Int) : Bytes := ascii "chunk_replicas:" ++ dec chunkId

def chunkValue (r : ChunkRecord) : Bytes :=
  encodeLoc r.server r.path ++ 124 :: (r.checksum ++ 124 :: dec r.replicaCount)

/-- The field of a record. -/
def ChunkRecord.field (r : ChunkRecord) : Bytes := chunkField r.chunkId r.server

/-- The fields that `create_entry` writes for one record. -/
def chunkFields (r : ChunkRecord) : List (Bytes × Bytes) :=
  [(r.field, chunkValue r), (chunkReplicasField r.chunkId, dec r.replicaCount)]

/-! ## Writing -/

/-- What the header lines of a request say. -/
structure RequestHeader where
  ttl : Int := 0
  fileHash : Bytes := []
  replicaCount : Int := 0

/-- The loop over the header lines, which may come in any order: the header, and the lines from
the first other one on.  `none` is the exception of `std::stoll`.  If the request ends with a header
line, the source parses what is left in `line`, which is empty or that line, and no chunk either
way. -/
def readHeader : RequestHeader → List Bytes → Option (RequestHeader × List Bytes)
  | h, [] => some (h, [])
  | h, line :: rest =>
      if ascii "TTL=" <+: line then
        (stoll (line.drop 4)).bind fun ttl => readHeader { h with ttl } rest
      else if ascii "HASH=" <+: line then readHeader { h with fileHash := line.drop 5 } rest
      else if ascii "REPLICAS=" <+: line then
        readHeader { h with replicaCount := (stoi (line.drop 9)).getD h.replicaCount } rest
      else some (h, line :: rest)

/-- The parser of this backend: the time to live, and what the on-disk backend reads too; `none` is
the exception. -/
def parseOnRedis (request : Bytes) : Option (Int × ParsedRequest) := do
  let ls := lines request
  let (header, rest) ← readHeader {} (ls.drop 1)
  return (header.ttl,
    { fileName := ls.headD []
      fileHash := header.fileHash
      replicaCount := header.replicaCount
      chunks := rest.filterMap parseChunkLine })

/-- The commands for what was read. -/
def ParsedRequest.commands (p : ParsedRequest) (ttl : Int) : List RedisCommand :=
  let key := fileKey p.fileName
  let fields := (fillCounts p.chunks).flatMap chunkFields
  let fileReplicaCount := fillFileCount p.replicaCount p.chunks
  (if fields ≠ [] then [.hset key fields] else [])
    ++ (if p.fileHash ≠ [] then [.hset key [(ascii "file_hash", p.fileHash)]] else [])
    ++ (if 0 < fileReplicaCount then [.hset key [(ascii "replica_count", dec fileReplicaCount)]]
        else [])
    ++ (if 0 < ttl then [.expire key ttl.toNat] else [])

/-- The commands of `create_entry`; `none` is an exception before the first of them. -/
def createCommands (request : Bytes) : Option (List RedisCommand) :=
  (parseOnRedis request).map fun p => p.2.commands p.1

/-! ## Reading -/

/-- What stands before the first `c`, and what after it: `s.find(c)` and the `substr` on either
side. -/
def splitOnce (c : UInt8) (s : Bytes) : Bytes × Option Bytes :=
  match s.dropWhile (· ≠ c) with
  | [] => (s, none)
  | _ :: rest => (s.takeWhile (· ≠ c), some rest)

/-- The chunk that a field belongs to, if it is a chunk field; others are skipped. -/
def chunkIdOf (field : Bytes) : Option Int :=
  if ascii "chunk:" <+: field then stoll (splitOnce colon (field.drop 6)).1 else none

/-- `per_chunk_rep`. -/
def perChunkRep (all : List (Bytes × Bytes)) : Map Int Int :=
  all.foldl (fun m kv =>
    if ascii "chunk_replicas:" <+: kv.1 then
      match stoll (kv.1.drop 15), stoi kv.2 with
      | some cid, some n => m.insert cid n
      | _, _ => m
    else m) ∅

/-- The record a chunk field stands for; parts may be missing from the value. -/
def decodeChunk (rep : Map Int Int) (chunkId : Int) (v : Bytes) : ChunkRecord :=
  match splitOnce 124 v with
  | (server, none) => { chunkId, server, path := [], checksum := [], replicaCount := 1 }
  | (server, some v) =>
      match splitOnce 124 v with
      | (path, none) => { chunkId, server, path, checksum := [], replicaCount := 1 }
      | (path, some v) =>
          match splitOnce 124 v with
          | (checksum, none) =>
              let n := (rep[chunkId]?).getD 0
              { chunkId, server, path, checksum, replicaCount := if 0 < n then n else 1 }
          | (checksum, some v) =>
              { chunkId, server, path, checksum, replicaCount := (stoi v).getD 1 }

/-- The records of the fields, in the order they are visited. -/
def chunksOf (visited : List (Bytes × Bytes)) : List ChunkRecord :=
  visited.filterMap fun kv =>
    (chunkIdOf kv.1).map fun chunkId => decodeChunk (perChunkRep visited) chunkId kv.2

namespace Redis

/-- `create_entry`. -/
def createEntry (s : Redis) (request : Bytes) (outcomes : List CommandOutcome) : Redis :=
  match createCommands request with
  | none => s
  | some commands => s.execAll commands outcomes

/-- `store_metadata`. -/
def storeMetadata (s : Redis) (filename : Bytes) (chunks : List ChunkInfo) (fileHash : Bytes)
    (replicationFactor : Int) (outcomes : List CommandOutcome) : Redis :=
  s.createEntry (metadataRequest filename chunks fileHash replicationFactor) outcomes

/-- `query_metadata`; `order` is the order of the unordered map the answer is put into. -/
def queryMetadata (s : Redis) (order : Schedule) (fileName : Bytes) : FileRecord :=
  if fileName = [] then {}
  else
    let all := s.hgetall (fileKey fileName)
    if all.isEmpty = true then {}
    else
      let chunks := chunksOf (order.visit all.toList)
      let replicaCount := ((all[ascii "replica_count"]?).bind stoi).getD 0
      { fileHash := (all[ascii "file_hash"]?).getD []
        replicaCount := fillFileCount replicaCount chunks
        chunks := fillCounts chunks }

/-- `list_all_files`: the keys are visited in order, and so are the names. -/
def listAllFiles (s : Redis) : List Bytes :=
  s.scan.filterMap fun key => if ascii "file:" <+: key then some (key.drop 5) else none

/-- The commands of `atomic_replace_server_chunks` for one record. -/
def replaceCommands (deadServer newServer filename : Bytes) (chunk : ChunkRecord) :
    List RedisCommand :=
  let key := fileKey filename
  let target := { chunk with server := if chunk.server ≠ [] then chunk.server else newServer }
  [.hdel key (chunkField chunk.chunkId deadServer),
   .hset key [(target.field, chunkValue target)],
   .hset key [(chunkReplicasField chunk.chunkId, dec chunk.replicaCount)]]

/-- `atomic_replace_server_chunks`: one pipeline, executed in order. -/
def atomicReplaceServerChunks (s : Redis) (deadServer newServer : Bytes)
    (fileChunksToUpdate : Map Bytes (List ChunkRecord)) : Redis :=
  (fileChunksToUpdate.toList.flatMap fun u =>
    u.2.flatMap (replaceCommands deadServer newServer u.1)).foldl HashStore.exec s

/-- `delete_server_metadata`: the files are read first, then one pipeline is executed. -/
def deleteServerMetadata (s : Redis) (order : Bytes → Schedule) (serverAddress : Bytes) : Redis :=
  (s.listAllFiles.flatMap fun filename =>
    ((s.queryMetadata (order filename) filename).chunks.filter (·.server = serverAddress)).map
      fun chunk => .hdel (fileKey filename) (chunkField chunk.chunkId serverAddress)).foldl
    HashStore.exec s

/-- `delete_entry`: `name#chunk:…` names a field of the file before the `#`. -/
def deleteEntry (s : Redis) (fileName : Bytes) : Redis :=
  match find (ascii "#chunk:") fileName with
  | some pos => s.exec (.hdel (fileKey (fileName.take pos)) (fileName.drop (pos + 1)))
  | none => s.exec (.del (fileKey fileName))

end Redis

/-! ## What is written is read back -/

lemma splitOnce_append {c : UInt8} {a : Bytes} (h : c ∉ a) (b : Bytes) :
    splitOnce c (a ++ c :: b) = (a, some b) := by
  have hscan : ∀ x ∈ a, decide (x ≠ c) = true := by
    intro x hx
    simpa using fun hxc : x = c => h (hxc ▸ hx)
  have hstop : Stops (fun x => decide (x ≠ c)) (c :: b) := stops_cons b (by simp)
  obtain ⟨htake, hdrop⟩ := takeWhile_append_stops hscan hstop
  simp only [splitOnce, htake, hdrop]

lemma splitOnce_cases (c : UInt8) (s : Bytes) :
    (c ∉ s ∧ splitOnce c s = (s, none)) ∨
      ∃ a b, c ∉ a ∧ s = a ++ c :: b ∧ splitOnce c s = (a, some b) := by
  by_cases h : c ∈ s
  · obtain ⟨a, b, rfl, ha⟩ := List.eq_append_cons_of_mem h
    exact .inr ⟨a, b, ha, rfl, splitOnce_append ha b⟩
  · refine .inl ⟨h, ?_⟩
    have hdrop : s.dropWhile (· ≠ c) = [] := by
      rw [List.dropWhile_eq_nil_iff]
      intro x hx
      simpa using fun hxc : x = c => h (hxc ▸ hx)
    simp only [splitOnce, hdrop]

lemma not_mem_splitOnce (c : UInt8) (s : Bytes) : c ∉ (splitOnce c s).1 := by
  rcases splitOnce_cases c s with ⟨h, heq⟩ | ⟨a, b, h, -, heq⟩
  · rw [heq]; exact h
  · rw [heq]; exact h

/-- No bar in what a value spells out. -/
structure Placement.NoBar (p : Placement) : Prop where
  server : (124 : UInt8) ∉ p.server
  path : (124 : UInt8) ∉ p.path
  checksum : (124 : UInt8) ∉ p.checksum

instance (p : Placement) : Decidable p.NoBar :=
  decidable_of_iff ((124 : UInt8) ∉ p.server ∧ (124 : UInt8) ∉ p.path ∧ (124 : UInt8) ∉ p.checksum)
    ⟨fun ⟨hserver, hpath, hsum⟩ => ⟨hserver, hpath, hsum⟩,
      fun ⟨hserver, hpath, hsum⟩ => ⟨hserver, hpath, hsum⟩⟩

/-- A record as it is read back; a count that is no `int` is taken for one. -/
def ChunkRecord.decoded (r : ChunkRecord) : ChunkRecord :=
  { r with replicaCount := (stoi (dec r.replicaCount)).getD 1 }

lemma ChunkRecord.placement_decoded (r : ChunkRecord) : r.decoded.placement = r.placement := rfl

/-- **A record without a bar is read back as it is.** -/
theorem decodeChunk_chunkValue {r : ChunkRecord} (h : r.placement.NoBar) (rep : Map Int Int) :
    decodeChunk rep r.chunkId (chunkValue r) = r.decoded := by
  have hvalue : chunkValue r =
      r.server ++ 124 :: (r.path ++ 124 :: (r.checksum ++ 124 :: dec r.replicaCount)) := by
    simp [chunkValue, encodeLoc]
  have hserver : (124 : UInt8) ∉ r.server := h.server
  have hpath : (124 : UInt8) ∉ r.path := h.path
  have hsum : (124 : UInt8) ∉ r.checksum := h.checksum
  rw [hvalue, decodeChunk, splitOnce_append hserver]
  simp only [splitOnce_append hpath, splitOnce_append hsum]
  rfl

/-- **What is read has no bar in it**, whatever the value. -/
theorem noBar_decodeChunk (rep : Map Int Int) (chunkId : Int) (v : Bytes) :
    (decodeChunk rep chunkId v).placement.NoBar := by
  have hnil : (124 : UInt8) ∉ ([] : Bytes) := by simp
  have hserver := not_mem_splitOnce 124 v
  unfold decodeChunk
  generalize splitOnce 124 v = cut at hserver ⊢
  rcases cut with ⟨server, _ | v⟩
  · exact ⟨hserver, hnil, hnil⟩
  · have hpath := not_mem_splitOnce 124 v
    dsimp only
    generalize splitOnce 124 v = cut at hpath ⊢
    rcases cut with ⟨path, _ | v⟩
    · exact ⟨hserver, hpath, hnil⟩
    · have hsum := not_mem_splitOnce 124 v
      dsimp only
      generalize splitOnce 124 v = cut at hsum ⊢
      rcases cut with ⟨checksum, _ | v⟩
      · exact ⟨hserver, hpath, hsum⟩
      · exact ⟨hserver, hpath, hsum⟩

lemma stoll_dec {n : Int} (hlo : -2 ^ 63 ≤ n) (hhi : n ≤ 2 ^ 63 - 1) : stoll (dec n) = some n := by
  have h := readI64_dec hlo hhi (stops_nil isDigit)
  rw [List.append_nil] at h
  simp [stoll, h]

lemma chunkIdOf_chunkField {n : Int} (hlo : -2 ^ 63 ≤ n) (hhi : n ≤ 2 ^ 63 - 1) (server : Bytes) :
    chunkIdOf (chunkField n server) = some n := by
  have hstart : ascii "chunk:" <+: chunkField n server := List.prefix_append _ _
  have hdrop : (chunkField n server).drop 6 = dec n ++ colon :: server := rfl
  rw [chunkIdOf, if_pos hstart, hdrop, splitOnce_append (colon_not_mem_dec n), stoll_dec hlo hhi]

/-- A field names its chunk and its server. -/
lemma chunkField_inj {a b : Int} {s t : Bytes} (h : chunkField a s = chunkField b t) :
    a = b ∧ s = t := by
  have hsplit := congrArg (splitOnce colon) (List.append_cancel_left h)
  rw [splitOnce_append (colon_not_mem_dec a), splitOnce_append (colon_not_mem_dec b)] at hsplit
  simp only [Prod.mk.injEq, Option.some.injEq] at hsplit
  exact ⟨dec_injective hsplit.1, hsplit.2⟩

lemma chunkIdOf_eq_none {field : Bytes} (h : ¬ascii "chunk:" <+: field) : chunkIdOf field = none :=
  if_neg h

lemma chunkIdOf_chunkReplicasField (n : Int) : chunkIdOf (chunkReplicasField n) = none := by
  refine chunkIdOf_eq_none ?_
  simp [chunkReplicasField, ascii, List.cons_prefix_cons]

lemma fileKey_inj {a b : Bytes} (h : fileKey a = fileKey b) : a = b := List.append_cancel_left h

/-- A file is listed if its key is there. -/
lemma Redis.mem_listAllFiles {s : Redis} {f : Bytes} :
    f ∈ Redis.listAllFiles s ↔ (s.hgetall (fileKey f)).isEmpty = false := by
  rw [← HashStore.mem_scan, Redis.listAllFiles, List.mem_filterMap]
  constructor
  · rintro ⟨key, hkey, hname⟩
    split_ifs at hname with hstart
    obtain ⟨name, rfl⟩ := hstart
    obtain rfl : name = f := by simpa [ascii] using hname
    exact hkey
  · intro hkey
    exact ⟨fileKey f, hkey, if_pos (List.prefix_append _ _)⟩

/-! ## The script of an upload -/

/-- The commands of `create_entry` for the records, the hash and the count of a request. -/
def commitCommands (filename : Bytes) (records : List ChunkRecord) (fileHash : Bytes)
    (replicaCount : Int) : List RedisCommand :=
  let key := fileKey filename
  (if records ≠ [] then [.hset key ((fillCounts records).flatMap chunkFields)] else [])
    ++ (if fileHash ≠ [] then [.hset key [(ascii "file_hash", fileHash)]] else [])
    ++ (if 0 < replicaCount then [.hset key [(ascii "replica_count", dec replicaCount)]] else [])
    ++ [.expire key 3600]

/-- The lines of a replica begin with its identifier, and none of the tags does. -/
lemma readHeader_lines (h : RequestHeader) (chunks : List ChunkInfo) :
    readHeader h (chunks.flatMap fun c => lines (chunkLine c ++ [10])) =
      some (h, chunks.flatMap fun c => lines (chunkLine c ++ [10])) := by
  cases chunks with
  | nil => rfl
  | cons c chunks =>
      obtain ⟨d, t, hdec, hd⟩ := dec_cons c.chunkId
      have hd10 : d ≠ 10 := by
        rintro rfl
        rcases hd with hd | hd
        · revert hd; decide
        · revert hd; decide
      have hnot : ∀ (e : UInt8) (tag line : Bytes), isDigit e = false → e ≠ 45 →
          ¬ e :: tag <+: d :: line := by
        intro e tag line he he' hstart
        rw [List.cons_prefix_cons] at hstart
        rcases hd with hd | hd
        · rw [hstart.1, hd] at he
          cases he
        · exact he' (hstart.1.trans hd)
      obtain ⟨l, ls, hls⟩ : ∃ l ls, lines (chunkLine c ++ [10]) = (d :: l) :: ls := by
        rw [chunkLine, hdec, List.cons_append, List.cons_append, lines, if_neg hd10]
        split
        · exact ⟨_, _, rfl⟩
        · exact ⟨_, _, rfl⟩
      rw [List.flatMap_cons, hls, List.cons_append]
      have httl : ¬ascii "TTL=" <+: d :: l := hnot _ _ _ rfl (by decide)
      have hhash : ¬ascii "HASH=" <+: d :: l := hnot _ _ _ rfl (by decide)
      have hreplicas : ¬ascii "REPLICAS=" <+: d :: l := hnot _ _ _ rfl (by decide)
      rw [readHeader, if_neg httl, if_neg hhash, if_neg hreplicas]

/-- **What this backend reads off a request of `store_metadata`.** -/
theorem parseOnRedis_metadataRequest {filename fileHash : Bytes} (chunks : List ChunkInfo)
    (replicationFactor : Int) (hname : (10 : UInt8) ∉ filename) (hhash : (10 : UInt8) ∉ fileHash) :
    parseOnRedis (metadataRequest filename chunks fileHash replicationFactor) =
      some (3600,
        { fileName := filename
          fileHash
          replicaCount := (stoi (dec replicationFactor)).getD 0
          chunks := chunks.flatMap readBack }) := by
  have hheader : readHeader {} (ascii "TTL=3600" :: (ascii "HASH=" ++ fileHash) ::
      (ascii "REPLICAS=" ++ dec replicationFactor) ::
        chunks.flatMap fun c => lines (chunkLine c ++ [10])) =
      some (⟨3600, fileHash, (stoi (dec replicationFactor)).getD 0⟩,
        chunks.flatMap fun c => lines (chunkLine c ++ [10])) := by
    have hseconds : stoll ((ascii "TTL=3600").drop 4) = some 3600 := by decide
    have httl : ¬ascii "TTL=" <+: ascii "HASH=" ++ fileHash := by
      simp [ascii, List.cons_prefix_cons]
    have httl' : ¬ascii "TTL=" <+: ascii "REPLICAS=" ++ dec replicationFactor := by
      simp [ascii, List.cons_prefix_cons]
    have hhash' : ¬ascii "HASH=" <+: ascii "REPLICAS=" ++ dec replicationFactor := by
      simp [ascii, List.cons_prefix_cons]
    rw [readHeader, if_pos (by decide), hseconds, Option.bind_some, readHeader, if_neg httl,
      if_pos (List.prefix_append _ _), readHeader, if_neg httl', if_neg hhash',
      if_pos (List.prefix_append _ _), readHeader_lines]
    rfl
  -- `parse_chunk_line` skips an empty line, which is no chunk anyway
  have hraw : (chunks.flatMap fun c => lines (chunkLine c ++ [10])).filterMap parseChunkLine =
      chunks.flatMap readBack := by
    rw [List.filterMap_flatMap]
    refine List.flatMap_congr fun c _ => ?_
    rw [readBack, List.filterMap_filter]
    congr 1
    funext line
    cases line <;> rfl
  simp only [parseOnRedis, lines_metadataRequest chunks replicationFactor hname hhash,
    List.headD_cons, List.drop_one, List.tail_cons, hheader, Option.bind_eq_bind, Option.bind_some,
    hraw]
  rfl

/-- **The script for a request of `store_metadata`.** -/
theorem createCommands_metadataRequest {filename fileHash : Bytes} (chunks : List ChunkInfo)
    (replicationFactor : Int) (hname : (10 : UInt8) ∉ filename) (hhash : (10 : UInt8) ∉ fileHash) :
    createCommands (metadataRequest filename chunks fileHash replicationFactor) =
      some (commitCommands filename (chunks.flatMap readBack) fileHash
        (fillFileCount ((stoi (dec replicationFactor)).getD 0) (chunks.flatMap readBack))) := by
  have hfields : (fillCounts (chunks.flatMap readBack)).flatMap chunkFields ≠ [] ↔
      chunks.flatMap readBack ≠ [] := by
    cases chunks.flatMap readBack <;> simp [fillCounts, chunkFields]
  rw [createCommands,
    parseOnRedis_metadataRequest chunks replicationFactor hname hhash]
  simp only [Option.map_some, ParsedRequest.commands, hfields]
  rfl

/-- The record of a replica. -/
def ChunkInfo.record (c : ChunkInfo) : ChunkRecord := c.placement.record c.replicaCount

lemma readBack_record {c : ChunkInfo} (h : c.Readable) (hpos : 1 ≤ c.replicaCount)
    (hle : c.replicaCount ≤ 2 ^ 31 - 1) : readBack c = [c.record] := by
  have hcount : readI32 (32 :: dec c.replicaCount) = some (c.replicaCount, []) := by
    have hread := readI32_dec (n := c.replicaCount) (by omega) hle (stops_nil isDigit)
    rw [List.append_nil] at hread
    exact (readInt_space _ (by decide)).trans hread
  rw [readBack_readAs h.id_lo h.id_hi h.server h.path h.checksum, ChunkInfo.readAs, hcount]
  rfl

/-- **Both backends read off a request what `store_metadata` wrote**, and file it unchanged, but for
a replication factor that is not positive. -/
theorem both_parsers_invert_store_metadata {filename fileHash : Bytes} {chunks : List ChunkInfo}
    {replicationFactor : Int} (hname : (10 : UInt8) ∉ filename) (hhash : (10 : UInt8) ∉ fileHash)
    (hfactor : -2 ^ 31 ≤ replicationFactor ∧ replicationFactor ≤ 2 ^ 31 - 1)
    (hchunks : ∀ c ∈ chunks, c.Readable)
    (hcounts : ∀ c ∈ chunks, 1 ≤ c.replicaCount ∧ c.replicaCount ≤ 2 ^ 31 - 1) :
    let request := metadataRequest filename chunks fileHash replicationFactor
    let records := chunks.map (·.record)
    let parsed : ParsedRequest :=
      { fileName := filename, fileHash, replicaCount := replicationFactor, chunks := records }
    parseOnDisk request = parsed ∧ parseOnRedis request = some (3600, parsed) ∧
      (∀ m, createEntry m request = m.insert filename
        { fileHash, replicaCount := fillFileCount replicationFactor records, chunks := records }) ∧
      createCommands request = some (commitCommands filename records fileHash
        (fillFileCount replicationFactor records)) := by
  intro request records parsed
  have hback : chunks.flatMap readBack = records := by
    have hread : ∀ c ∈ chunks, readBack c = [c.record] := fun c hc =>
      readBack_record (hchunks c hc) (hcounts c hc).1 (hcounts c hc).2
    rw [List.flatMap_congr hread, ← List.map_eq_flatMap]
  have hstoi : (stoi (dec replicationFactor)).getD 0 = replicationFactor := by
    rw [stoi_dec hfactor.1 hfactor.2]
    rfl
  have hfill : fillCounts records = records := by
    refine fillCounts_of_pos fun r hr => ?_
    obtain ⟨c, hc, rfl⟩ := List.mem_map.mp hr
    exact (hcounts c hc).1
  have hdisk : parseOnDisk request = parsed := by
    rw [parseOnDisk_metadataRequest chunks replicationFactor hname hhash, hback, hstoi]
  refine ⟨hdisk, ?_, ?_, ?_⟩
  · rw [parseOnRedis_metadataRequest chunks replicationFactor hname hhash, hback, hstoi]
  · intro m
    rw [createEntry, hdisk, MetadataMap.replaceFileChunks, hfill, hfill,
      fillFileCount_again rfl]
  · rw [createCommands_metadataRequest chunks replicationFactor hname hhash, hback, hstoi]

/-- Two replicas of one chunk and one of another. -/
def threeReplicas : List ChunkInfo :=
  let replica (chunkId : Int) (server path : String) : ChunkInfo :=
    { chunkId, serverIp := ascii server, filePath := ascii path, size := 1
      checksum := ascii "559a", replicaCount := 2 }
  [replica 0 "10.0.0.1:8080" "/c/1.dat", replica 0 "10.0.0.2:8080" "/c/2.dat",
    { replica 1 "10.0.0.1:8080" "/c/3.dat" with replicaCount := 1 }]

theorem both_parsers_invert_three_replicas :
    let request := metadataRequest (ascii "a b") threeReplicas (ascii "9f86") 2
    let parsed : ParsedRequest :=
      { fileName := ascii "a b", fileHash := ascii "9f86", replicaCount := 2
        chunks := threeReplicas.map (·.record) }
    parseOnDisk request = parsed ∧ parseOnRedis request = some (3600, parsed) := by
  have h := @both_parsers_invert_store_metadata (ascii "a b") (ascii "9f86") threeReplicas 2
    (by decide) (by decide) (by decide) (by decide) (by decide)
  exact ⟨h.1, h.2.1⟩

/-! ## What a hash says of a file -/

/-- The identifier of a record is a `long long`. -/
def ChunkRecord.IdFits (r : ChunkRecord) : Prop := -2 ^ 63 ≤ r.chunkId ∧ r.chunkId ≤ 2 ^ 63 - 1

instance (r : ChunkRecord) : Decidable r.IdFits := inferInstanceAs (Decidable (_ ∧ _))

/-- The chunk fields of the hash spell out these records and no others. -/
structure Spells (h : Map Bytes Bytes) (rs : List ChunkRecord) : Prop where
  of_field : ∀ field value, h[field]? = some value → (chunkIdOf field).isSome →
    ∃ r ∈ rs, field = r.field ∧ value = chunkValue r
  field_of : ∀ r ∈ rs, h[r.field]? = some (chunkValue r)

/-- **A hash is read back as the records it spells out**, in whatever order its fields are
visited. -/
theorem chunksOf_perm {h : Map Bytes Bytes} {rs : List ChunkRecord} (hspells : Spells h rs)
    (hnodup : (rs.map (·.field)).Nodup) (hids : ∀ r ∈ rs, r.IdFits)
    (hbars : ∀ r ∈ rs, r.placement.NoBar) {visited : List (Bytes × Bytes)}
    (hvisited : visited.Perm h.toList) :
    (chunksOf visited).Perm (rs.map (·.decoded)) := by
  have hid : ∀ r ∈ rs, chunkIdOf r.field = some r.chunkId := fun r hr =>
    chunkIdOf_chunkField (hids r hr).1 (hids r hr).2 _
  -- the chunk fields are the fields of the records, each once
  have hfields : (visited.filter fun kv => (chunkIdOf kv.1).isSome).Perm
      (rs.map fun r => (r.field, chunkValue r)) := by
    have hkeys : ((rs.map fun r => (r.field, chunkValue r)).map (·.1)).Nodup := by
      simpa [Function.comp_def] using hnodup
    have hvisited_nodup : visited.Nodup :=
      hvisited.nodup_iff.mpr (List.Nodup.of_map _ (Map.nodup_keys_toList h))
    refine (List.perm_ext_iff_of_nodup (hvisited_nodup.filter _) (List.Nodup.of_map _ hkeys)).mpr ?_
    rintro ⟨field, value⟩
    rw [List.mem_filter, hvisited.mem_iff, Map.mem_toList]
    constructor
    · rintro ⟨hget, hsome⟩
      obtain ⟨r, hr, rfl, rfl⟩ := hspells.of_field field value hget hsome
      exact List.mem_map_of_mem hr
    · intro hmem
      obtain ⟨r, hr, heq⟩ := List.mem_map.mp hmem
      cases heq
      exact ⟨hspells.field_of r hr, by simp [hid r hr]⟩
  let read : Bytes × Bytes → Option ChunkRecord := fun kv =>
    (chunkIdOf kv.1).map fun chunkId => decodeChunk (perChunkRep visited) chunkId kv.2
  have hskip : visited.filterMap read =
      (visited.filter fun kv => (chunkIdOf kv.1).isSome).filterMap read := by
    rw [List.filterMap_filter]
    congr 1
    funext kv
    cases hkv : chunkIdOf kv.1 <;> simp [read, hkv]
  have hread : (rs.map fun r => (r.field, chunkValue r)).filterMap read = rs.map (·.decoded) := by
    rw [List.filterMap_map, ← List.filterMap_eq_map]
    refine List.filterMap_congr fun r hr => ?_
    simp only [Function.comp_apply, read, hid r hr, Option.map_some,
      decodeChunk_chunkValue (hbars r hr)]
  calc chunksOf visited = (visited.filter fun kv => (chunkIdOf kv.1).isSome).filterMap read := hskip
    _ |>.Perm ((rs.map fun r => (r.field, chunkValue r)).filterMap read) := hfields.filterMap read
    _ = rs.map (·.decoded) := hread

end FileGrid
