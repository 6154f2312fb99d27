import FileGrid.Core.Bytes
import FileGrid.Core.Map

/-!
# The metadata store

`metadata_store` of the head server, in its default build: a table from file names to the hash of
the file and the list of its chunk records, one record per replica.

Replica counts are recomputed by every operation and decide nothing, so what an operation does to
a file is read off its records without them: `ChunkRecord.placement` is a record less its count,
and `FileRecord.placements` the list of a file's placements.  In these terms

* `atomicReplaceServerChunks` drops a server's records and appends the given ones
  (`placements_atomicReplaceServerChunks`);
* `deleteServerMetadata` drops a server's records (`placements_deleteServerMetadata`);
* `replaceFileChunks` sets a file's records (`placements_replaceFileChunks`).

`WellFormed` is what every writer keeps: no file and no server is nameless.  The code relies on it
where it uses the empty string for "none".
-/

namespace FileGrid

/-- `metadata_store::ChunkRecord`: one replica of one chunk. -/
structure ChunkRecord where
  chunkId : Int
  server : Bytes
  path : Bytes
  checksum : Bytes
  replicaCount : Int := 1
deriving DecidableEq

/-- A record without its replica count. -/
structure Placement where
  chunkId : Int
  server : Bytes
  path : Bytes
  checksum : Bytes
deriving DecidableEq

def ChunkRecord.placement (r : ChunkRecord) : Placement :=
  { chunkId := r.chunkId, server := r.server, path := r.path, checksum := r.checksum }

@[simp] lemma ChunkRecord.placement_chunkId (r : ChunkRecord) :
    r.placement.chunkId = r.chunkId := rfl

@[simp] lemma ChunkRecord.placement_server (r : ChunkRecord) : r.placement.server = r.server := rfl

/-- `metadata_store::FileRecord`. -/
structure FileRecord where
  fileHash : Bytes := []
  replicaCount : Int := 0
  chunks : List ChunkRecord := []
deriving DecidableEq

def FileRecord.placements (rec : FileRecord) : List Placement := rec.chunks.map (·.placement)

/-- `metadata_store::MetadataMap`.  Every reader either looks a name up or sorts the names, so
the order of the unordered map of the source does not show. -/
abbrev MetadataMap := Map Bytes FileRecord

/-! ## Replica counts -/

/-- `cid_counts`: how many records each chunk has. -/
def cidCounts (chunks : List ChunkRecord) : Map Int Int :=
  chunks.foldl (fun m cr => m.insert cr.chunkId ((m[cr.chunkId]?).getD 0 + 1)) ∅

/-- `cid_counts.begin()->second`. -/
def firstCount (chunks : List ChunkRecord) : Int :=
  match (cidCounts chunks).toList with
  | [] => 0
  | p :: _ => p.2

/-- Every record gets its chunk's count. -/
def recount (chunks : List ChunkRecord) : List ChunkRecord :=
  let counts := cidCounts chunks
  chunks.map fun cr => { cr with replicaCount := (counts[cr.chunkId]?).getD 0 }

/-- Only records without a count get their chunk's count. -/
def fillCounts (chunks : List ChunkRecord) : List ChunkRecord :=
  let counts := cidCounts chunks
  chunks.map fun cr =>
    if cr.replicaCount ≤ 0 then { cr with replicaCount := (counts[cr.chunkId]?).getD 0 } else cr

/-- A file's own count, where none is given. -/
def fillFileCount (replicaCount : Int) (chunks : List ChunkRecord) : Int :=
  if replicaCount ≤ 0 ∧ chunks ≠ [] then firstCount chunks else replicaCount

@[simp] lemma placements_recount (chunks : List ChunkRecord) :
    (recount chunks).map (·.placement) = chunks.map (·.placement) := by
  simp only [recount, List.map_map]
  exact List.map_congr_left fun cr _ => rfl

@[simp] lemma placements_fillCounts (chunks : List ChunkRecord) :
    (fillCounts chunks).map (·.placement) = chunks.map (·.placement) := by
  simp only [fillCounts, List.map_map]
  refine List.map_congr_left fun cr _ => ?_
  simp only [Function.comp_apply]
  split_ifs <;> rfl

/-- A record with its count filled in is one of the records, but for the count. -/
lemma exists_of_mem_fillCounts {chunks : List ChunkRecord} {r : ChunkRecord}
    (hr : r ∈ fillCounts chunks) : ∃ r' ∈ chunks, r.placement = r'.placement := by
  have hmem : r.placement ∈ (fillCounts chunks).map (·.placement) := List.mem_map_of_mem hr
  rw [placements_fillCounts] at hmem
  obtain ⟨r', hr', heq⟩ := List.mem_map.mp hmem
  exact ⟨r', hr', heq.symm⟩

/-- A chunk's count is the number of its records; a chunk without records has none. -/
lemma get_cidCounts (chunks : List ChunkRecord) (c : Int) :
    (cidCounts chunks)[c]? =
      if c ∈ chunks.map (·.chunkId) then some ((chunks.countP (·.chunkId = c) : Nat) : Int)
      else none := by
  induction chunks using List.reverseRecOn with
  | nil => simp [cidCounts]
  | append_singleton chunks r ih =>
      have hstep : cidCounts (chunks ++ [r]) = (cidCounts chunks).insert r.chunkId
          (((cidCounts chunks)[r.chunkId]?).getD 0 + 1) := by
        simp [cidCounts]
      rw [hstep, Map.get_insert]
      by_cases hc : c = r.chunkId
      · subst hc
        by_cases hmem : r.chunkId ∈ chunks.map (·.chunkId)
        · simp [ih, hmem]
        · have hzero : chunks.countP (·.chunkId = r.chunkId) = 0 := by
            rw [List.countP_eq_zero]
            intro r' hr' heq
            exact hmem (List.mem_map.mpr ⟨r', hr', by simpa using heq⟩)
          simp [ih, hmem, hzero]
      · rw [if_neg hc, ih]
        simp [hc, Ne.symm hc]

lemma getD_cidCounts (chunks : List ChunkRecord) (c : Int) :
    ((cidCounts chunks)[c]?).getD 0 = ((chunks.countP (·.chunkId = c) : Nat) : Int) := by
  rw [get_cidCounts]
  split_ifs with h
  · rfl
  · have hzero : chunks.countP (·.chunkId = c) = 0 := by
      rw [List.countP_eq_zero]
      intro r hr heq
      exact h (List.mem_map.mpr ⟨r, hr, by simpa using heq⟩)
    simp [hzero]

/-- The first count is that of the lowest chunk. -/
lemma exists_firstCount {chunks : List ChunkRecord} (h : chunks ≠ []) :
    ∃ r ∈ chunks, (∀ r' ∈ chunks, r.chunkId ≤ r'.chunkId) ∧
      firstCount chunks = ((chunks.countP (·.chunkId = r.chunkId) : Nat) : Int) := by
  have hcounted : ∀ r ∈ chunks, (r.chunkId, ((chunks.countP (·.chunkId = r.chunkId) : Nat) : Int)) ∈
      (cidCounts chunks).toList := by
    intro r hr
    rw [Map.mem_toList, get_cidCounts, if_pos (List.mem_map_of_mem hr)]
  unfold firstCount
  cases hlist : (cidCounts chunks).toList with
  | nil =>
      obtain ⟨r, hr⟩ := List.exists_mem_of_ne_nil _ h
      have hmem := hcounted r hr
      simp [hlist] at hmem
  | cons p ps =>
      have hp : (cidCounts chunks)[p.1]? = some p.2 := Map.mem_toList.mp (by rw [hlist]; simp)
      rw [get_cidCounts] at hp
      split_ifs at hp with hids
      obtain ⟨r, hr, hid⟩ := List.mem_map.mp hids
      refine ⟨r, hr, fun r' hr' => ?_, by rw [hid]; exact (Option.some.inj hp).symm⟩
      have hmem := hcounted r' hr'
      rw [hlist, List.mem_cons] at hmem
      rcases hmem with heq | hmem
      · exact (hid.trans (congrArg Prod.fst heq).symm).le
      · have hsplit : (cidCounts chunks).toList = [] ++ p :: ps := hlist
        have hlt : p.1 < r'.chunkId := compare_lt_iff_lt.mp (Map.key_lt_of_toList_eq hsplit hmem)
        omega

lemma firstCount_range {chunks : List ChunkRecord} (h : chunks ≠ []) :
    1 ≤ firstCount chunks ∧ firstCount chunks ≤ chunks.length := by
  obtain ⟨r, hr, -, hcount⟩ := exists_firstCount h
  have hpos : 0 < chunks.countP (·.chunkId = r.chunkId) :=
    List.countP_pos_iff.mpr ⟨r, hr, by simp⟩
  have hle : chunks.countP (·.chunkId = r.chunkId) ≤ chunks.length := List.countP_le_length
  omega

/-- A placement with a count. -/
def Placement.record (p : Placement) (replicaCount : Int) : ChunkRecord :=
  { chunkId := p.chunkId, server := p.server, path := p.path, checksum := p.checksum, replicaCount }

/-- Recounting looks at the placements only. -/
lemma recount_eq (chunks : List ChunkRecord) :
    recount chunks = (chunks.map (·.placement)).map fun p =>
      p.record (((chunks.map (·.placement)).countP (·.chunkId = p.chunkId) : Nat) : Int) := by
  simp only [recount, getD_cidCounts, List.map_map, List.countP_map]
  rfl

lemma recount_congr {chunks chunks' : List ChunkRecord}
    (h : chunks.map (·.placement) = chunks'.map (·.placement)) :
    recount chunks = recount chunks' := by
  rw [recount_eq, recount_eq, h]

@[simp] lemma recount_recount (chunks : List ChunkRecord) :
    recount (recount chunks) = recount chunks :=
  recount_congr (placements_recount chunks)

/-- Filling in counts is recounting, if the counts that are there are right. -/
lemma fillCounts_eq_recount {chunks : List ChunkRecord}
    (h : ∀ r ∈ chunks, r.replicaCount ≤ 0 ∨
      r.replicaCount = ((chunks.countP (·.chunkId = r.chunkId) : Nat) : Int)) :
    fillCounts chunks = recount chunks := by
  simp only [fillCounts, recount, getD_cidCounts]
  refine List.map_congr_left fun r hr => ?_
  split_ifs with hpos
  · rfl
  · rw [← (h r hr).resolve_left hpos]

lemma countP_recount (chunks : List ChunkRecord) (c : Int) :
    (recount chunks).countP (·.chunkId = c) = chunks.countP (·.chunkId = c) := by
  simp only [recount, List.countP_map]
  rfl

lemma replicaCount_of_mem_recount {chunks : List ChunkRecord} {r : ChunkRecord}
    (hr : r ∈ recount chunks) :
    r.replicaCount = (((recount chunks).countP (·.chunkId = r.chunkId) : Nat) : Int) := by
  rw [countP_recount]
  simp only [recount, getD_cidCounts] at hr
  obtain ⟨cr, -, rfl⟩ := List.mem_map.mp hr
  rfl

lemma fillCounts_recount (chunks : List ChunkRecord) :
    fillCounts (recount chunks) = recount chunks := by
  rw [fillCounts_eq_recount, recount_recount]
  intro r hr
  exact Or.inr (replicaCount_of_mem_recount hr)

lemma fillCounts_of_pos {chunks : List ChunkRecord} (h : ∀ r ∈ chunks, 1 ≤ r.replicaCount) :
    fillCounts chunks = chunks := by
  unfold fillCounts
  refine (List.map_congr_left fun r hr => ?_).trans (List.map_id chunks)
  have hr := h r hr
  exact if_neg (by omega)

/-- A count that was filled in is positive, and fits an `int` if those that were there do and the
records can be counted. -/
lemma fillCounts_range {chunks : List ChunkRecord} {bound : Int} (hlen : chunks.length ≤ bound)
    (hgiven : ∀ r ∈ chunks, r.replicaCount ≤ bound) {r : ChunkRecord} (hr : r ∈ fillCounts chunks) :
    1 ≤ r.replicaCount ∧ r.replicaCount ≤ bound := by
  simp only [fillCounts, getD_cidCounts] at hr
  obtain ⟨cr, hcr, rfl⟩ := List.mem_map.mp hr
  split_ifs with h
  · have hpos : 0 < chunks.countP (·.chunkId = cr.chunkId) :=
      List.countP_pos_iff.mpr ⟨cr, hcr, by simp⟩
    have hle : chunks.countP (·.chunkId = cr.chunkId) ≤ chunks.length := List.countP_le_length
    constructor
    · show 1 ≤ ((chunks.countP (·.chunkId = cr.chunkId) : Nat) : Int)
      omega
    · show ((chunks.countP (·.chunkId = cr.chunkId) : Nat) : Int) ≤ bound
      omega
  · exact ⟨by omega, hgiven cr hcr⟩

/-- A file with records has a count once it is filled in. -/
lemma fillFileCount_pos {chunks : List ChunkRecord} (h : chunks ≠ []) (n : Int) :
    1 ≤ fillFileCount n chunks := by
  have hfirst := (firstCount_range h).1
  unfold fillFileCount
  split_ifs with hn
  · exact hfirst
  · by_contra hlt
    exact hn ⟨by omega, h⟩

/-- Once a file has a count, or has no records, filling it in again changes nothing. -/
lemma fillFileCount_again {chunks chunks' : List ChunkRecord} (h : chunks'.length = chunks.length)
    (n : Int) : fillFileCount (fillFileCount n chunks) chunks' = fillFileCount n chunks := by
  refine if_neg ?_
  rintro ⟨hle, hne⟩
  have hne' : chunks ≠ [] := by
    rw [← List.length_pos_iff] at hne ⊢
    omega
  have hpos := fillFileCount_pos hne' n
  omega

/-! ## Operations -/

namespace MetadataMap

/-- `replace_file_chunks`. -/
def replaceFileChunks (m : MetadataMap) (file fileHash : Bytes) (chunks : List ChunkRecord)
    (replicaCount : Int := 0) : MetadataMap :=
  m.insert file
    { fileHash
      replicaCount := fillFileCount replicaCount chunks
      chunks := fillCounts chunks }

/-- `get_chunks`: a missing file is an empty record. -/
def getChunks (m : MetadataMap) (file : Bytes) : FileRecord := (m[file]?).getD {}

/-- `remove_file`. -/
def removeFile (m : MetadataMap) (file : Bytes) : MetadataMap := m.erase file

/-- `list_files_snapshot`, and so `list_all_files`: the names, sorted. -/
def listAllFiles (m : MetadataMap) : List Bytes := m.toList.map (·.1)

/-- `query_metadata`. -/
def queryMetadata (m : MetadataMap) (fileName : Bytes) : FileRecord :=
  if fileName = [] then {} else m.getChunks fileName

lemma queryMetadata_of_ne (m : MetadataMap) {fileName : Bytes} (h : fileName ≠ []) :
    m.queryMetadata fileName = (m[fileName]?).getD {} := by
  rw [queryMetadata, if_neg h, getChunks]

/-- `delete_entry`. -/
def deleteEntry (m : MetadataMap) (fileName : Bytes) : MetadataMap :=
  if fileName = [] then m else m.removeFile fileName

/-- `chunks.erase(std::remove_if(…))`: the records that do not name the server. -/
def withoutServer (server : Bytes) (chunks : List ChunkRecord) : List ChunkRecord :=
  chunks.filter (·.server ≠ server)

/-- What `atomic_replace_server_chunks` does to one file. -/
def replaceIn (deadServer : Bytes) (newChunks : List ChunkRecord) (rec : FileRecord) : FileRecord :=
  let chunks := withoutServer deadServer rec.chunks ++ newChunks
  { rec with
    chunks := recount chunks
    replicaCount := if chunks ≠ [] then firstCount chunks else rec.replicaCount }

/-- `atomic_replace_server_chunks`.  The name of the new server, which the source's function also
takes, is not used there. -/
def atomicReplaceServerChunks (m : MetadataMap) (deadServer : Bytes)
    (fileChunksToUpdate : Map Bytes (List ChunkRecord)) : MetadataMap :=
  fileChunksToUpdate.toList.foldl (fun m u => m.modify u.1 (replaceIn deadServer u.2)) m

/-- `delete_server_metadata`. -/
def deleteServerMetadata (m : MetadataMap) (serverAddress : Bytes) : MetadataMap :=
  m.map fun _ rec => { rec with chunks := recount (withoutServer serverAddress rec.chunks) }

/-! ## What each operation does to the placements of a file -/

/-- The placements of a file; a missing file has none. -/
def placementsOf (m : MetadataMap) (file : Bytes) : List Placement :=
  ((m[file]?).map (·.placements)).getD []

lemma placements_getChunks (m : MetadataMap) (file : Bytes) :
    (m.getChunks file).placements = m.placementsOf file := by
  rw [getChunks, placementsOf]
  cases m[file]? with
  | none => rfl
  | some record => rfl

lemma placements_queryMetadata (m : MetadataMap) {file : Bytes} (h : file ≠ []) :
    (m.queryMetadata file).placements = m.placementsOf file := by
  rw [queryMetadata, if_neg h, placements_getChunks]

lemma placements_withoutServer (server : Bytes) (chunks : List ChunkRecord) :
    (withoutServer server chunks).map (·.placement) =
      (chunks.map (·.placement)).filter (·.server ≠ server) := by
  rw [withoutServer, List.filter_map]
  rfl

theorem placements_replaceFileChunks (m : MetadataMap) (file hash : Bytes)
    (chunks : List ChunkRecord) (n : Int) (f : Bytes) :
    (m.replaceFileChunks file hash chunks n).placementsOf f =
      if f = file then chunks.map (·.placement) else m.placementsOf f := by
  simp only [placementsOf, replaceFileChunks, Map.get_insert]
  split_ifs
  · simp [FileRecord.placements]
  · rfl

theorem placements_deleteEntry (m : MetadataMap) (file f : Bytes) (hfile : file ≠ []) :
    (m.deleteEntry file).placementsOf f = if f = file then [] else m.placementsOf f := by
  simp only [placementsOf, deleteEntry, hfile, if_false, removeFile, Map.get_erase]
  split_ifs <;> rfl

theorem placements_deleteServerMetadata (m : MetadataMap) (server f : Bytes) :
    (m.deleteServerMetadata server).placementsOf f =
      (m.placementsOf f).filter (·.server ≠ server) := by
  simp only [placementsOf, deleteServerMetadata, Map.get_map]
  cases m[f]? with
  | none => rfl
  | some rec =>
      simp only [Option.map_some, Option.getD_some, FileRecord.placements, placements_recount,
        placements_withoutServer]

/-- A file that is updated loses the dead server's records and gains the given ones; a file that
is not keeps what it had. -/
theorem placements_atomicReplaceServerChunks (m : MetadataMap) (dead : Bytes)
    (us : Map Bytes (List ChunkRecord)) (f : Bytes) :
    (m.atomicReplaceServerChunks dead us).placementsOf f =
      match us[f]?, m[f]? with
      | some new, some rec =>
          rec.placements.filter (·.server ≠ dead) ++ new.map (·.placement)
      | _, _ => m.placementsOf f := by
  simp only [placementsOf, atomicReplaceServerChunks, Map.get_foldl_modify_toList]
  cases m[f]? with
  | none => simp
  | some rec =>
      cases us[f]? with
      | none => rfl
      | some new =>
          simp only [Option.map_some, Option.elim_some, Option.getD_some, FileRecord.placements,
            replaceIn, placements_recount, List.map_append, placements_withoutServer]

/-- The files are the same before and after; only records change. -/
lemma mem_atomicReplaceServerChunks (m : MetadataMap) (dead : Bytes)
    (us : Map Bytes (List ChunkRecord)) (f : Bytes) :
    ((m.atomicReplaceServerChunks dead us)[f]?).isSome = (m[f]?).isSome := by
  simp only [atomicReplaceServerChunks, Map.get_foldl_modify_toList, Option.isSome_map]

lemma mem_deleteServerMetadata (m : MetadataMap) (server f : Bytes) :
    ((m.deleteServerMetadata server)[f]?).isSome = (m[f]?).isSome := by
  simp only [deleteServerMetadata, Map.get_map, Option.isSome_map]

lemma mem_listAllFiles {m : MetadataMap} {f : Bytes} :
    f ∈ m.listAllFiles ↔ (m[f]?).isSome := by
  simp only [listAllFiles, List.mem_map, Prod.exists, Map.mem_toList, exists_and_right,
    exists_eq_right, Option.isSome_iff_exists]

lemma listAllFiles_eq_nil {m : MetadataMap} (h : m.listAllFiles = []) (f : Bytes) :
    m[f]? = none := by
  cases hf : m[f]? with
  | none => rfl
  | some rec =>
      have : f ∈ m.listAllFiles := mem_listAllFiles.mpr (by simp [hf])
      simp [h] at this

lemma nodup_listAllFiles (m : MetadataMap) : m.listAllFiles.Nodup := Map.nodup_keys_toList m

/-! ## What each operation does to the hash of a file -/

/-- The hash of a file, if the file is there. -/
def hashOf (m : MetadataMap) (file : Bytes) : Option Bytes := (m[file]?).map (·.fileHash)

lemma fileHash_queryMetadata (m : MetadataMap) {file : Bytes} (h : file ≠ []) :
    (m.queryMetadata file).fileHash = (m.hashOf file).getD [] := by
  rw [queryMetadata_of_ne m h, hashOf]
  cases m[file]? with
  | none => rfl
  | some record => rfl

lemma hashOf_replaceFileChunks (m : MetadataMap) (file hash : Bytes) (chunks : List ChunkRecord)
    (n : Int) (f : Bytes) :
    (m.replaceFileChunks file hash chunks n).hashOf f =
      if f = file then some hash else m.hashOf f := by
  simp only [hashOf, replaceFileChunks, Map.get_insert]
  split_ifs <;> rfl

lemma hashOf_deleteEntry (m : MetadataMap) (file f : Bytes) (hfile : file ≠ []) :
    (m.deleteEntry file).hashOf f = if f = file then none else m.hashOf f := by
  simp only [hashOf, deleteEntry, hfile, if_false, removeFile, Map.get_erase]
  split_ifs <;> rfl

lemma hashOf_deleteServerMetadata (m : MetadataMap) (server f : Bytes) :
    (m.deleteServerMetadata server).hashOf f = m.hashOf f := by
  simp only [hashOf, deleteServerMetadata, Map.get_map, Option.map_map]
  rfl

lemma hashOf_atomicReplaceServerChunks (m : MetadataMap) (dead : Bytes)
    (us : Map Bytes (List ChunkRecord)) (f : Bytes) :
    (m.atomicReplaceServerChunks dead us).hashOf f = m.hashOf f := by
  simp only [hashOf, atomicReplaceServerChunks, Map.get_foldl_modify_toList, Option.map_map]
  cases us[f]? <;> rfl

lemma exists_hashOf {m : MetadataMap} {f : Bytes} {p : Placement} (h : p ∈ m.placementsOf f) :
    ∃ hash, m.hashOf f = some hash := by
  unfold placementsOf at h
  cases hf : m[f]? with
  | none => simp [hf] at h
  | some rec => exact ⟨rec.fileHash, by simp [hashOf, hf]⟩

/-! ## Nameless files and servers do not occur -/

/-- No file and no server is nameless. -/
structure WellFormed (m : MetadataMap) : Prop where
  names : ∀ f : Bytes, (m[f]?).isSome → f ≠ []
  servers : ∀ f, ∀ p ∈ m.placementsOf f, p.server ≠ []

lemma wellFormed_empty : WellFormed (∅ : MetadataMap) := by
  constructor
  · intro f h
    simp at h
  · intro f p hp
    simp [placementsOf] at hp

lemma WellFormed.replaceFileChunks {m : MetadataMap} (hm : m.WellFormed) {file hash : Bytes}
    {chunks : List ChunkRecord} {n : Int} (hfile : file ≠ [])
    (hchunks : ∀ r ∈ chunks, r.server ≠ []) :
    (m.replaceFileChunks file hash chunks n).WellFormed := by
  constructor
  · intro f hf
    simp only [MetadataMap.replaceFileChunks, Map.get_insert] at hf
    split_ifs at hf with h
    · exact h ▸ hfile
    · exact hm.names f hf
  · intro f p hp
    rw [placements_replaceFileChunks] at hp
    split_ifs at hp
    · obtain ⟨r, hr, rfl⟩ := List.mem_map.mp hp
      exact hchunks r hr
    · exact hm.servers f p hp

lemma WellFormed.deleteEntry {m : MetadataMap} (hm : m.WellFormed) {file : Bytes}
    (hfile : file ≠ []) : (m.deleteEntry file).WellFormed := by
  constructor
  · intro f hf
    simp only [MetadataMap.deleteEntry, hfile, if_false, removeFile, Map.get_erase] at hf
    split_ifs at hf with h
    · simp at hf
    · exact hm.names f hf
  · intro f p hp
    rw [placements_deleteEntry m file f hfile] at hp
    split_ifs at hp
    · simp at hp
    · exact hm.servers f p hp

lemma WellFormed.deleteServerMetadata {m : MetadataMap} (hm : m.WellFormed) (server : Bytes) :
    (m.deleteServerMetadata server).WellFormed := by
  constructor
  · intro f hf
    rw [mem_deleteServerMetadata] at hf
    exact hm.names f hf
  · intro f p hp
    rw [placements_deleteServerMetadata] at hp
    exact hm.servers f p (List.mem_of_mem_filter hp)

lemma WellFormed.atomicReplaceServerChunks {m : MetadataMap} (hm : m.WellFormed) {dead : Bytes}
    {us : Map Bytes (List ChunkRecord)}
    (hus : ∀ (f : Bytes) new, us[f]? = some new → ∀ r ∈ new, r.server ≠ []) :
    (m.atomicReplaceServerChunks dead us).WellFormed := by
  constructor
  · intro f hf
    rw [mem_atomicReplaceServerChunks] at hf
    exact hm.names f hf
  · intro f p hp
    rw [placements_atomicReplaceServerChunks] at hp
    split at hp
    · rename_i new rec hnew hrec
      rcases List.mem_append.mp hp with hp | hp
      · have : p ∈ m.placementsOf f := by
          simp only [placementsOf, hrec, Option.map_some, Option.getD_some]
          exact List.mem_of_mem_filter hp
        exact hm.servers f p this
      · obtain ⟨r, hr, rfl⟩ := List.mem_map.mp hp
        exact hus f new hnew r hr
    · exact hm.servers f p hp

end MetadataMap

end FileGrid
