import FileGrid.Metadata.RedisCounts
import FileGrid.Storage.ChunkStorage

/-!
# Names in keys, fields and values on Redis

Nothing is escaped on the way to Redis.  A record is the text of a field, with bars between its
parts, and the path among them carries the name of the file; and `delete_entry` looks for a field
selector, `#chunk:`, in the name it is given.

**Values.**  `redis_chunk_fields_decode_iff` says which records are read back as they are after a
commit for a key that is not there: those whose parts are words without a bar, with a count.  In one
direction there is a circle to be broken, since a record that is garbled might be garbled into
another one of the list: what is read has no bar and no white space in it (`noBar_decodeChunk`,
`noSpace_decodeChunk`), so none of the list has, and such a record is read as what its line says
(`ChunkInfo.readPlain`), which has a server, a path and a checksum.

**Names.**  `delete_entry` does what it says for every name without a selector
(`removesExactly_of_noSelector`), and for a name with one it leaves the file where it is
(`listed_deleteEntry_of_selector`): **`delete_entry_removes_iff`**.
-/

namespace FileGrid

/-! ## What is read has no white space in it -/

/-- No white space in any part. -/
structure Placement.NoSpace (p : Placement) : Prop where
  server : ∀ b ∈ p.server, isSpace b = false
  path : ∀ b ∈ p.path, isSpace b = false
  checksum : ∀ b ∈ p.checksum, isSpace b = false

lemma splitOnce_subset (c : UInt8) (s : Bytes) :
    (splitOnce c s).1 ⊆ s ∧ ∀ rest ∈ (splitOnce c s).2, rest ⊆ s := by
  rcases splitOnce_cases c s with ⟨-, heq⟩ | ⟨a, b, -, hs, heq⟩
  · rw [heq]
    exact ⟨List.Subset.refl s, by simp⟩
  · rw [heq, hs]
    refine ⟨List.subset_append_left _ _, ?_⟩
    rintro rest hrest
    obtain rfl : b = rest := by simpa using hrest
    exact List.subset_append_of_subset_right _ (List.subset_cons_self _ _)

lemma noSpace_decodeChunk (rep : Map Int Int) (chunkId : Int) {v : Bytes}
    (h : ∀ b ∈ v, isSpace b = false) : (decodeChunk rep chunkId v).placement.NoSpace := by
  have hnil : ∀ b ∈ ([] : Bytes), isSpace b = false := by simp
  have hserver := splitOnce_subset 124 v
  unfold decodeChunk
  generalize splitOnce 124 v = cut at hserver ⊢
  rcases cut with ⟨server, _ | v'⟩
  · exact ⟨fun b hb => h b (hserver.1 hb), hnil, hnil⟩
  · have hv' : v' ⊆ v := hserver.2 v' rfl
    have hpath := splitOnce_subset 124 v'
    dsimp only
    generalize splitOnce 124 v' = cut at hpath ⊢
    rcases cut with ⟨path, _ | v''⟩
    · exact ⟨fun b hb => h b (hserver.1 hb), fun b hb => h b (hv' (hpath.1 hb)), hnil⟩
    · have hv'' : v'' ⊆ v := List.Subset.trans (hpath.2 v'' rfl) hv'
      have hsum := splitOnce_subset 124 v''
      dsimp only
      generalize splitOnce 124 v'' = cut at hsum ⊢
      rcases cut with ⟨checksum, _ | v'''⟩
      · exact ⟨fun b hb => h b (hserver.1 hb), fun b hb => h b (hv' (hpath.1 hb)),
          fun b hb => h b (hv'' (hsum.1 hb))⟩
      · exact ⟨fun b hb => h b (hserver.1 hb), fun b hb => h b (hv' (hpath.1 hb)),
          fun b hb => h b (hv'' (hsum.1 hb))⟩

lemma noSpace_chunkValue {r : ChunkRecord} (h : r.placement.NoSpace) :
    ∀ b ∈ chunkValue r, isSpace b = false := by
  simp only [chunkValue, encodeLoc, List.mem_append, List.mem_cons]
  rintro b ((hb | rfl | hb) | rfl | hb | rfl | hb)
  · exact h.server b hb
  · decide
  · exact h.path b hb
  · decide
  · exact h.checksum b hb
  · decide
  · exact (word_dec _).2 b hb

lemma noSpace_of_mem_readBack {c : ChunkInfo} {r : ChunkRecord} (h : r ∈ readBack c) :
    r.placement.NoSpace := by
  obtain ⟨line, -, hline⟩ := List.mem_filterMap.mp h
  obtain ⟨hserver, hpath⟩ := word_of_parseChunkLine hline
  exact ⟨hserver.2, hpath.2, noSpace_checksum_of_parseChunkLine hline⟩

/-! ## What is read has a count -/

lemma stoi_le {v : Bytes} {n : Int} (h : stoi v = some n) : n ≤ 2 ^ 31 - 1 := by
  obtain ⟨p, hread, rfl⟩ := Option.map_eq_some_iff.mp h
  exact (readInt_range hread).2

lemma perChunkRep_le {all : List (Bytes × Bytes)} {c n : Int}
    (h : (perChunkRep all)[c]? = some n) : n ≤ 2 ^ 31 - 1 := by
  have hall : ∀ c n : Int, (perChunkRep all)[c]? = some n → n ≤ 2 ^ 31 - 1 := by
    unfold perChunkRep
    refine List.foldlRecOn
      (motive := fun m : Map Int Int => ∀ (c n : Int), m[c]? = some n → n ≤ 2 ^ 31 - 1) all _ ?_ ?_
    · intro c n hget
      simp at hget
    · intro m hm kv _ c n hget
      split_ifs at hget
      · cases hcid : stoll (kv.1.drop 15) with
        | none =>
            simp only [hcid] at hget
            exact hm c n hget
        | some cid =>
            cases hrep : stoi kv.2 with
            | none =>
                simp only [hcid, hrep] at hget
                exact hm c n hget
            | some k =>
                simp only [hcid, hrep, Map.get_insert] at hget
                split_ifs at hget
                · cases hget
                  exact stoi_le hrep
                · exact hm c n hget
      · exact hm c n hget
  exact hall c n h

lemma replicaCount_decodeChunk_le {rep : Map Int Int}
    (hrep : ∀ c n : Int, rep[c]? = some n → n ≤ 2 ^ 31 - 1) (chunkId : Int) (v : Bytes) :
    (decodeChunk rep chunkId v).replicaCount ≤ 2 ^ 31 - 1 := by
  have hcount : ∀ o : Option Int, (∀ n, o = some n → n ≤ 2 ^ 31 - 1) → o.getD 1 ≤ 2 ^ 31 - 1 := by
    intro o ho
    cases o with
    | none => norm_num
    | some n => exact ho n rfl
  unfold decodeChunk
  rcases splitOnce 124 v with ⟨server, _ | v⟩
  · norm_num
  dsimp only
  rcases splitOnce 124 v with ⟨path, _ | v⟩
  · norm_num
  dsimp only
  rcases splitOnce 124 v with ⟨checksum, _ | v⟩
  · dsimp only
    split_ifs with hpos
    · cases hget : rep[chunkId]? with
      | none => simp
      | some n => exact hrep chunkId n hget
    · norm_num
  · exact hcount _ fun n hn => stoi_le hn

lemma replicaCount_le_of_mem_chunksOf {visited : List (Bytes × Bytes)} {r : ChunkRecord}
    (h : r ∈ chunksOf visited) : r.replicaCount ≤ 2 ^ 31 - 1 := by
  obtain ⟨field, value, chunkId, -, -, rfl⟩ := mem_chunksOf.mp h
  exact replicaCount_decodeChunk_le (fun c n hget => perChunkRep_le hget) chunkId value

/-! ## A commit for a key that is not there -/

/-- The chunk infos of a request: the paths are those that `generate_chunk_path` makes of the name,
on nodes of any storage directory, and no chunk is twice on one server. -/
structure PathsOf (name : Bytes) (chunks : List ChunkInfo) : Prop where
  paths : ∀ c ∈ chunks, ∃ storagePath epochUs seq,
    c.filePath = chunkPath storagePath (chunkKey name c.chunkId) epochUs seq
  distinct : (chunks.map fun c => (c.chunkId, c.serverIp)).Nodup
  ids : ∀ c ∈ chunks, -2 ^ 63 ≤ c.chunkId ∧ c.chunkId ≤ 2 ^ 63 - 1
  length : (chunks.length : Int) ≤ 2 ^ 31 - 1

/-- The value of a field says all of the record: its parts are words without a bar, and it has a
count. -/
structure ChunkInfo.Encodable (c : ChunkInfo) : Prop where
  readable : c.Readable
  noBar : c.placement.NoBar
  count_pos : 1 ≤ c.replicaCount
  count_le : c.replicaCount ≤ 2 ^ 31 - 1

lemma PathsOf.path_ne_nil {name : Bytes} {chunks : List ChunkInfo} (h : PathsOf name chunks)
    {c : ChunkInfo} (hc : c ∈ chunks) : c.filePath ≠ [] := by
  obtain ⟨storagePath, epochUs, seq, hpath⟩ := h.paths c hc
  rw [hpath, chunkPath]
  simp [ascii]

section

variable {s : Redis} {name fileHash : Bytes} {chunks : List ChunkInfo} {replicationFactor : Int}

/-- What a query reads comes from the fields of the request. -/
lemma mem_chunksOf_commit {records : List ChunkRecord} (hids : ∀ r ∈ records, r.IdFits) {n : Int}
    {visited : List (Bytes × Bytes)}
    (hvisited : visited.Perm (commitInto ∅ records fileHash n).toList) {R : ChunkRecord}
    (hR : R ∈ chunksOf visited) :
    ∃ r ∈ fillCounts records,
      R = decodeChunk (perChunkRep visited) r.chunkId (chunkValue r) := by
  obtain ⟨field, value, chunkId, hmem, hid, rfl⟩ := mem_chunksOf.mp hR
  have hget := Map.mem_toList.mp (hvisited.mem_iff.mp hmem)
  have hsome : (chunkIdOf field).isSome := by rw [hid]; rfl
  rcases get_commitInto_chunk ∅ records fileHash n hsome hget with ⟨r, hr, rfl, rfl⟩ | ⟨hold, -⟩
  · rw [chunkIdOf_field (idFits_fillCounts hids hr), Option.some.injEq] at hid
    exact ⟨r, hr, by rw [hid]⟩
  · simp at hold

/-- **The condition suffices.** -/
lemma query_perm_of_encodable (hempty : s.hgetall (fileKey name) = ∅) (hname : Word name)
    (hhash : (10 : UInt8) ∉ fileHash) (hchunks : PathsOf name chunks)
    (h : ∀ c ∈ chunks, c.Encodable) (order : Schedule) :
    ((s.storeMetadata name chunks fileHash replicationFactor []).queryMetadata order
      name).chunks.Perm (chunks.map (·.record)) := by
  have hback : chunks.flatMap readBack = chunks.map (·.record) := by
    have hread : ∀ c ∈ chunks, readBack c = [c.record] := fun c hc =>
      readBack_record (h c hc).readable (h c hc).count_pos (h c hc).count_le
    rw [List.flatMap_congr hread, ← List.map_eq_flatMap]
  have hpos : ∀ r ∈ chunks.map (·.record), 1 ≤ r.replicaCount := by
    intro r hr
    obtain ⟨c, hc, rfl⟩ := List.mem_map.mp hr
    exact (h c hc).count_pos
  have hnoBar : ∀ r ∈ chunks.map (·.record), r.placement.NoBar := by
    intro r hr
    obtain ⟨c, hc, rfl⟩ := List.mem_map.mp hr
    exact (h c hc).noBar
  have hlength : ((chunks.map (·.record)).length : Int) ≤ 2 ^ 31 - 1 := by
    rw [List.length_map]
    exact hchunks.length
  have hcounted := countedIn_storeMetadata hback hempty hname.not_mem_newline hhash
    (fields_of_distinct (fun _ => ⟨rfl, rfl⟩) hchunks.distinct) hnoBar hlength replicationFactor
  rw [fillCounts_of_pos hpos] at hcounted
  exact hcounted.query_perm hname.1 order

/-! ### The condition is needed -/

lemma bar_not_mem_dec (n : Int) : (124 : UInt8) ∉ dec n := by
  intro h
  rcases mem_dec h with h | h
  · revert h; decide
  · revert h; decide

lemma noBar_readPlain {c : ChunkInfo} (h : c.placement.NoBar) : c.readPlain.placement.NoBar := by
  have hcount := bar_not_mem_dec c.replicaCount
  have hnil : (124 : UInt8) ∉ ([] : Bytes) := by simp
  unfold ChunkInfo.readPlain
  split_ifs
  · exact ⟨h.path, hcount, hnil⟩
  · exact ⟨h.path, h.checksum, hcount⟩
  · exact ⟨h.server, h.path, hcount⟩
  · exact ⟨h.server, h.path, h.checksum⟩

lemma server_readPlain_ne_nil {c : ChunkInfo} (hpath : c.filePath ≠ []) :
    c.readPlain.server ≠ [] := by
  unfold ChunkInfo.readPlain
  split_ifs with hserver
  · exact hpath
  · exact hpath
  · exact hserver
  · exact hserver

lemma checksum_readPlain_ne_nil {c : ChunkInfo} (hserver : c.serverIp ≠ []) :
    c.readPlain.checksum ≠ [] := by
  rw [ChunkInfo.readPlain, if_neg hserver]
  split_ifs with hsum
  · exact (word_dec _).1
  · exact hsum

/-- The records of a list that is read back as it is: every one of them is what some field was read
as, with a count filled in. -/
lemma exists_read_of_perm {visited : List (Bytes × Bytes)}
    (hperm : (fillCounts (chunksOf visited)).Perm (chunks.map (·.record))) {c : ChunkInfo}
    (hc : c ∈ chunks) : ∃ R ∈ chunksOf visited, R.placement = c.placement := by
  have hmem : c.record ∈ fillCounts (chunksOf visited) := hperm.mem_iff.mpr (List.mem_map_of_mem hc)
  obtain ⟨R, hR, heq⟩ := exists_of_mem_fillCounts hmem
  exact ⟨R, hR, heq.symm⟩

/-- The counts that are read are positive, and fit an `int`. -/
lemma count_range_of_perm {visited : List (Bytes × Bytes)}
    (hperm : (fillCounts (chunksOf visited)).Perm (chunks.map (·.record)))
    (hlen : (chunks.length : Int) ≤ 2 ^ 31 - 1) {c : ChunkInfo} (hc : c ∈ chunks) :
    1 ≤ c.replicaCount ∧ c.replicaCount ≤ 2 ^ 31 - 1 := by
  have hmem : c.record ∈ fillCounts (chunksOf visited) := hperm.mem_iff.mpr (List.mem_map_of_mem hc)
  have hlength := hperm.length_eq
  rw [fillCounts, List.length_map, List.length_map] at hlength
  exact fillCounts_range (by rw [hlength]; exact hlen)
    (fun R hR => replicaCount_le_of_mem_chunksOf hR) hmem

/-- **The condition is needed.** -/
lemma encodable_of_perm {n : Int} {visited : List (Bytes × Bytes)}
    (hvisited : visited.Perm (commitInto ∅ (chunks.flatMap readBack) fileHash n).toList)
    (hchunks : PathsOf name chunks)
    (hperm : (fillCounts (chunksOf visited)).Perm (chunks.map (·.record))) :
    ∀ c ∈ chunks, c.Encodable := by
  -- what is read has neither bars nor white space, so the list has none
  have hbars : ∀ c ∈ chunks, c.placement.NoBar := by
    intro c hc
    obtain ⟨R, hR, heq⟩ := exists_read_of_perm hperm hc
    exact heq ▸ noBar_of_mem_chunksOf hR
  have hspaces : ∀ c ∈ chunks, c.placement.NoSpace := by
    intro c hc
    obtain ⟨R, hR, heq⟩ := exists_read_of_perm hperm hc
    obtain ⟨r, hr, rfl⟩ := mem_chunksOf_commit (idFits_readBack chunks) hvisited hR
    obtain ⟨r', hr', hsame⟩ := exists_of_mem_fillCounts hr
    obtain ⟨c', -, hr'⟩ := List.mem_flatMap.mp hr'
    rw [← heq]
    refine noSpace_decodeChunk _ _ (noSpace_chunkValue ?_)
    rw [hsame]
    exact noSpace_of_mem_readBack hr'
  have hplain : ∀ c ∈ chunks, c.Plain := fun c hc =>
    ⟨(hchunks.ids c hc).1, (hchunks.ids c hc).2, (hspaces c hc).server,
      ⟨hchunks.path_ne_nil hc, (hspaces c hc).path⟩, (hspaces c hc).checksum⟩
  -- so every record of the list is what the line of some record of the list says
  have hread : ∀ c ∈ chunks, ∃ c' ∈ chunks, c.placement = c'.readPlain.placement := by
    intro c hc
    obtain ⟨R, hR, heq⟩ := exists_read_of_perm hperm hc
    obtain ⟨r, hr, rfl⟩ := mem_chunksOf_commit (idFits_readBack chunks) hvisited hR
    obtain ⟨r', hr', hsame⟩ := exists_of_mem_fillCounts hr
    rw [flatMap_readBack_plain hplain] at hr'
    obtain ⟨c', hc', rfl⟩ := List.mem_map.mp hr'
    refine ⟨c', hc', ?_⟩
    have hbar : r.placement.NoBar := hsame ▸ noBar_readPlain (hbars c' hc')
    rw [← heq, decodeChunk_chunkValue hbar, ChunkRecord.placement_decoded, hsame]
  have hservers : ∀ c ∈ chunks, c.serverIp ≠ [] := by
    intro c hc
    obtain ⟨c', hc', heq⟩ := hread c hc
    have hserver : c.serverIp = c'.readPlain.server := congrArg Placement.server heq
    rw [hserver]
    exact server_readPlain_ne_nil (hchunks.path_ne_nil hc')
  have hsums : ∀ c ∈ chunks, c.checksum ≠ [] := by
    intro c hc
    obtain ⟨c', hc', heq⟩ := hread c hc
    have hsum : c.checksum = c'.readPlain.checksum := congrArg Placement.checksum heq
    rw [hsum]
    exact checksum_readPlain_ne_nil (hservers c' hc')
  intro c hc
  obtain ⟨hpos, hle⟩ := count_range_of_perm hperm hchunks.length hc
  obtain ⟨hlo, hhi, hserver, hpath, hsum⟩ := hplain c hc
  exact ⟨⟨hlo, hhi, ⟨hservers c hc, hserver⟩, hpath, ⟨hsums c hc, hsum⟩⟩, hbars c hc, hpos, hle⟩

/-- **The records of a commit are read back as they are exactly if** their parts are words without a
bar, and they have counts; the name is a part of the path. -/
theorem redis_chunk_fields_decode_iff (hempty : s.hgetall (fileKey name) = ∅) (hname : Word name)
    (hhash : (10 : UInt8) ∉ fileHash) (hchunks : PathsOf name chunks) :
    (∀ order, ((s.storeMetadata name chunks fileHash replicationFactor []).queryMetadata order
      name).chunks.Perm (chunks.map (·.record))) ↔ ∀ c ∈ chunks, c.Encodable := by
  constructor
  · intro hall
    have hperm := hall .inOrder
    rw [queryMetadata_redis _ _ hname.1,
      hgetall_storeMetadata s chunks replicationFactor hname.not_mem_newline hhash, hempty] at hperm
    exact encodable_of_perm (Schedule.visit_perm _ _) hchunks hperm
  · intro h order
    exact query_perm_of_encodable hempty hname hhash hchunks h order

end

/-- Two chunks of a file, each on a server of its own, in the default storage directory. -/
def twoChunksOf (name : Bytes) : List ChunkInfo :=
  let replica (chunkId : Int) (server : String) : ChunkInfo :=
    { chunkId, serverIp := ascii server
      filePath :=
        chunkPath (ascii "/var/cluster_storage/") (chunkKey name chunkId) 1700000000000000 1
      size := 1, checksum := ascii "559a", replicaCount := 1 }
  [replica 0 "10.0.0.1:8080", replica 1 "10.0.0.2:8080"]

lemma pathsOf_twoChunksOf (name : Bytes) : PathsOf name (twoChunksOf name) where
  paths := by
    intro c hc
    simp only [twoChunksOf, List.mem_cons, List.not_mem_nil, or_false] at hc
    rcases hc with rfl | rfl <;> exact ⟨_, _, _, rfl⟩
  distinct := by simp [twoChunksOf]
  ids := by
    intro c hc
    simp only [twoChunksOf, List.mem_cons, List.not_mem_nil, or_false] at hc
    rcases hc with rfl | rfl <;> norm_num
  length := by norm_num [twoChunksOf]

theorem redis_chunk_fields_decode_two_chunks :
    ((Redis.storeMetadata {} (ascii "f") (twoChunksOf (ascii "f")) (ascii "9f86") 1
      []).queryMetadata .inOrder (ascii "f")).chunks.Perm
        ((twoChunksOf (ascii "f")).map (·.record)) := by
  refine (redis_chunk_fields_decode_iff (by simp [HashStore.hgetall]) (by decide) (by decide)
    (pathsOf_twoChunksOf (ascii "f"))).mpr ?_ .inOrder
  intro c hc
  simp only [twoChunksOf, List.mem_cons, List.not_mem_nil, or_false] at hc
  rcases hc with rfl | rfl <;> exact ⟨by decide +kernel, by decide +kernel, by decide, by decide⟩

/-- A bar in the name of the file: the path ends there, and the rest of it is taken for the
checksum. -/
theorem redis_bar_in_name_garbles :
    ¬((Redis.storeMetadata {} (ascii "a|b") (twoChunksOf (ascii "a|b")) (ascii "9f86") 1
        []).queryMetadata .inOrder (ascii "a|b")).chunks.Perm
      ((twoChunksOf (ascii "a|b")).map (·.record)) := by
  decide +kernel

/-! ## `delete_entry` -/

/-- After `delete_entry` for the file a query shows nothing of it, it is not listed, and queries for
other files show what they showed. -/
structure RemovesExactly (s : Redis) (f : Bytes) : Prop where
  gone : ∀ order, ((s.deleteEntry f).queryMetadata order f).fileHash = [] ∧
    ((s.deleteEntry f).queryMetadata order f).chunks = []
  unlisted : f ∉ (s.deleteEntry f).listAllFiles
  others : ∀ g ≠ f, ∀ order,
    (s.deleteEntry f).queryMetadata order g = s.queryMetadata order g

/-- The name has what `delete_entry` takes for a field selector in it. -/
def HasSelector (f : Bytes) : Prop := ascii "#chunk:" <:+: f

lemma queryMetadata_congr {s s' : Redis} {g : Bytes}
    (h : s'.hgetall (fileKey g) = s.hgetall (fileKey g)) (order : Schedule) :
    Redis.queryMetadata s' order g = Redis.queryMetadata s order g := by
  simp only [Redis.queryMetadata, h]

/-- **Without a selector the key of the file goes, and nothing else.** -/
theorem removesExactly_of_noSelector (s : Redis) {f : Bytes} (h : ¬ HasSelector f) :
    RemovesExactly s f := by
  have hfind : find (ascii "#chunk:") f = none := by
    rw [← Option.not_isSome_iff_eq_none, isSome_find]
    exact h
  have hget : ∀ key, (s.deleteEntry f).hgetall key =
      if key = fileKey f then ∅ else s.hgetall key := by
    intro key
    simp only [Redis.deleteEntry, hfind, HashStore.hgetall_del]
  refine ⟨?_, ?_, ?_⟩
  · intro order
    have hempty : (s.deleteEntry f).hgetall (fileKey f) = ∅ := by rw [hget, if_pos rfl]
    simp [Redis.queryMetadata, hempty]
  · rw [Redis.mem_listAllFiles, hget, if_pos rfl]
    simp
  · intro g hg order
    refine queryMetadata_congr ?_ order
    rw [hget, if_neg fun heq => hg (fileKey_inj heq)]

/-- **With a selector the file stays.** -/
theorem listed_deleteEntry_of_selector {s : Redis} {f : Bytes} (h : HasSelector f)
    (hlisted : f ∈ s.listAllFiles) : f ∈ (s.deleteEntry f).listAllFiles := by
  obtain ⟨pos, hfind⟩ := Option.isSome_iff_exists.mp (isSome_find.mpr h)
  have hne : fileKey f ≠ fileKey (f.take pos) := by
    intro heq
    obtain ⟨rest, hrest⟩ := drop_of_find hfind
    have hend : f.drop pos = [] := by
      rw [List.drop_eq_nil_iff, ← List.take_eq_self_iff]
      exact (fileKey_inj heq).symm
    rw [hend] at hrest
    simp [ascii] at hrest
  rw [Redis.mem_listAllFiles] at hlisted ⊢
  simp only [Redis.deleteEntry, hfind, HashStore.hgetall_hdel, if_neg hne]
  exact hlisted

/-- **`delete_entry` removes exactly the file it names, from every store, exactly if** the name has
no field selector in it. -/
theorem delete_entry_removes_iff (f : Bytes) : (∀ s, RemovesExactly s f) ↔ ¬ HasSelector f := by
  constructor
  · intro hall h
    -- any store with the file in it will do
    have hlisted : f ∈ Redis.listAllFiles (HashStore.exec {} (.hset (fileKey f) [([], [])])) := by
      rw [Redis.mem_listAllFiles, HashStore.hgetall_hset, if_pos rfl]
      simp
    exact (hall _).unlisted (listed_deleteEntry_of_selector h hlisted)
  · intro h s
    exact removesExactly_of_noSelector s h

/-- Two uploads, the second of a file whose name ends like a field of the first. -/
def selectorNamed : Redis :=
  Redis.storeMetadata
    (Redis.storeMetadata {} (ascii "a") [smallChunk 0 (ascii "s:1")] (ascii "9f86") 1 [])
    (ascii "a#chunk:0:s:1") [smallChunk 0 (ascii "s:1")] (ascii "9f86") 1 []

/-- Deleting the second leaves it, and takes the chunk of the first. -/
theorem delete_entry_selector_hits_other :
    let s := selectorNamed.deleteEntry (ascii "a#chunk:0:s:1")
    ascii "a#chunk:0:s:1" ∈ s.listAllFiles ∧
      (selectorNamed.queryMetadata .inOrder (ascii "a")).chunks.length = 1 ∧
      (s.queryMetadata .inOrder (ascii "a")).chunks = [] := by
  decide +kernel

end FileGrid
