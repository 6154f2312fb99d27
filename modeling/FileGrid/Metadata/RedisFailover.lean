import FileGrid.Metadata.RedisRecreate

/-!
# Failover on the two backends

A failover ends with `atomic_replace_server_chunks` and `delete_server_metadata`.  The on-disk
backend filters and appends to the list of a file's records.  The Redis backend edits fields: for
every record of the update it takes out the field of that chunk on the dead server and sets the new
one, and what is left on the dead server is found by reading every file again.

**The relation.**  `RecordsIn h rs`: the chunk fields of a hash are those of the records, each under
a field of its own.  `Represents m s` says that of every file of the two stores.  Reading a hash in
that relation gives back the records (`RecordsIn.placements_perm`).

**The edits.**  Each one keeps the relation: `RecordsIn.erase` for `HDEL`, `RecordsIn.insert` for
`HSET` of a chunk field, `RecordsIn.insert_other` for any other field.  Over the records of an
update they add up to a list operation, `editRecords`, which leaves more on the dead server than the
on-disk backend does; `filter_editRecords` says that the difference goes with the dead server's
records.

**`represents_failover`** puts the two together, and `failover_agrees` reads it off a query.
-/

namespace FileGrid

/-! ## The relation -/

/-- The chunk fields of the hash are those of the records, each of which has one of its own. -/
structure RecordsIn (h : Map Bytes Bytes) (rs : List ChunkRecord) : Prop where
  spells : Spells h rs
  distinct : (rs.map (·.field)).Nodup
  ids : ∀ r ∈ rs, r.IdFits
  noBar : ∀ r ∈ rs, r.placement.NoBar

/-- The hash that a file has, on either backend. -/
def hashIn (h : Map Bytes Bytes) : Bytes := (h[ascii "file_hash"]?).getD []

/-- **The two stores have the same files.**  A file has the same hash on both, and its records, in
some order, are those of its key. -/
def Represents (m : MetadataMap) (s : Redis) : Prop :=
  ∀ f ≠ [], ∃ rs, (rs.map (·.placement)).Perm (m.placementsOf f) ∧
    RecordsIn (s.hgetall (fileKey f)) rs ∧ hashIn (s.hgetall (fileKey f)) = (m.hashOf f).getD []

namespace RecordsIn

variable {h : Map Bytes Bytes} {rs : List ChunkRecord} (hin : RecordsIn h rs)
include hin

/-- **Reading the fields gives back the records.** -/
theorem placements_perm {visited : List (Bytes × Bytes)} (hvisited : visited.Perm h.toList) :
    ((chunksOf visited).map (·.placement)).Perm (rs.map (·.placement)) := by
  have hperm := chunksOf_perm hin.spells hin.distinct hin.ids hin.noBar hvisited
  have hplacements := hperm.map ChunkRecord.placement
  rwa [List.map_map] at hplacements

lemma sublist {rs' : List ChunkRecord} {h' : Map Bytes Bytes} (hsub : rs'.Sublist rs)
    (hspells : Spells h' rs') : RecordsIn h' rs' where
  spells := hspells
  distinct := hin.distinct.sublist (hsub.map _)
  ids r hr := hin.ids r (hsub.subset hr)
  noBar r hr := hin.noBar r (hsub.subset hr)

/-- Fields that go take their records with them. -/
lemma filter {h' : Map Bytes Bytes} {gone : Bytes → Prop} [DecidablePred gone]
    (hget : ∀ field, h'[field]? = if gone field then none else h[field]?) :
    RecordsIn h' (rs.filter fun r => ¬gone r.field) := by
  refine hin.sublist List.filter_sublist ⟨?_, ?_⟩
  · intro field value hvalue hsome
    rw [hget] at hvalue
    split_ifs at hvalue with hgone
    obtain ⟨r, hr, rfl, rfl⟩ := hin.spells.of_field field value hvalue hsome
    exact ⟨r, List.mem_filter.mpr ⟨hr, by simpa using hgone⟩, rfl, rfl⟩
  · intro r hr
    obtain ⟨hr, hgone⟩ := List.mem_filter.mp hr
    rw [hget, if_neg (by simpa using hgone)]
    exact hin.spells.field_of r hr

/-- `HDEL` of one field. -/
lemma erase (field : Bytes) :
    RecordsIn (h.erase field) (rs.filter fun r => ¬r.field = field) :=
  hin.filter fun field' => Map.get_erase h field field'

/-- `HSET` of a field that is no chunk field. -/
lemma insert_other {field : Bytes} (hfield : chunkIdOf field = none) (value : Bytes) :
    RecordsIn (h.insert field value) rs := by
  refine hin.sublist (List.Sublist.refl rs) ⟨?_, ?_⟩
  · intro field' value' hget hsome
    rw [Map.get_insert] at hget
    split_ifs at hget with heq
    · rw [heq, hfield] at hsome
      cases hsome
    · exact hin.spells.of_field field' value' hget hsome
  · intro r hr
    have hne : r.field ≠ field := by
      rintro rfl
      rw [chunkIdOf_field (hin.ids r hr)] at hfield
      cases hfield
    rw [Map.get_insert, if_neg hne]
    exact hin.spells.field_of r hr

/-- `HSET` of the field of a record that is not there yet. -/
lemma insert {r : ChunkRecord} (hnew : ∀ x ∈ rs, x.field ≠ r.field) (hid : r.IdFits)
    (hbar : r.placement.NoBar) : RecordsIn (h.insert r.field (chunkValue r)) (rs ++ [r]) where
  spells := by
    constructor
    · intro field value hget hsome
      rw [Map.get_insert] at hget
      split_ifs at hget with heq
      · exact ⟨r, by simp, heq, (Option.some.inj hget).symm⟩
      · obtain ⟨x, hx, hfield⟩ := hin.spells.of_field field value hget hsome
        exact ⟨x, by simp [hx], hfield⟩
    · intro x hx
      rw [Map.get_insert]
      rcases List.mem_append.mp hx with hx | hx
      · rw [if_neg (hnew x hx)]
        exact hin.spells.field_of x hx
      · rw [List.mem_singleton.mp hx, if_pos rfl]
  distinct := by
    rw [List.map_append, List.nodup_append]
    refine ⟨hin.distinct, List.nodup_singleton _, ?_⟩
    intro field hfield field' hfield'
    obtain ⟨x, hx, rfl⟩ := List.mem_map.mp hfield
    obtain rfl : field' = r.field := by simpa using hfield'
    exact hnew x hx
  ids := by
    intro x hx
    rcases List.mem_append.mp hx with hx | hx
    · exact hin.ids x hx
    · exact List.mem_singleton.mp hx ▸ hid
  noBar := by
    intro x hx
    rcases List.mem_append.mp hx with hx | hx
    · exact hin.noBar x hx
    · exact List.mem_singleton.mp hx ▸ hbar

end RecordsIn

/-- **Stores in the relation are not told apart by a query.** -/
theorem Represents.queryMetadata {m : MetadataMap} {s : Redis} (h : Represents m s)
    (order : Schedule) (f : Bytes) :
    (Redis.queryMetadata s order f).placements.Perm (m.queryMetadata f).placements ∧
      (Redis.queryMetadata s order f).fileHash = (m.queryMetadata f).fileHash := by
  by_cases hf : f = []
  · simp [Redis.queryMetadata, MetadataMap.queryMetadata, hf]
  · obtain ⟨rs, hperm, hin, hhash⟩ := h f hf
    rw [m.placements_queryMetadata hf, m.fileHash_queryMetadata hf, queryMetadata_redis s order hf,
      FileRecord.placements, placements_fillCounts]
    exact ⟨(hin.placements_perm (order.visit_perm _)).trans hperm, hhash⟩

/-! ## The records of an update, one after another -/

/-- No server has the chunk it is to receive already, be it from the file or from an earlier record
of the update. -/
def NotHosted : List Placement → List ChunkRecord → Prop
  | _, [] => True
  | ps, r :: new =>
      (∀ p ∈ ps, ¬(p.chunkId = r.chunkId ∧ p.server = r.server)) ∧
        NotHosted (r.placement :: ps) new

instance NotHosted.decidable : ∀ ps new, Decidable (NotHosted ps new)
  | _, [] => isTrue trivial
  | ps, r :: new =>
      have := NotHosted.decidable (r.placement :: ps) new
      inferInstanceAs (Decidable (_ ∧ _))

lemma NotHosted.mono {ps ps' : List Placement} {new : List ChunkRecord} (h : NotHosted ps new)
    (hsub : ps' ⊆ ps) : NotHosted ps' new := by
  induction new generalizing ps ps' with
  | nil => trivial
  | cons r new ih =>
      exact ⟨fun p hp => h.1 p (hsub hp), ih h.2 (List.cons_subset_cons _ hsub)⟩

/-- What the commands for one record do to the records of the file. -/
def editRecord (dead : Bytes) (rs : List ChunkRecord) (r : ChunkRecord) : List ChunkRecord :=
  rs.filter (fun x => ¬x.field = chunkField r.chunkId dead) ++ [r]

def editRecords (dead : Bytes) (rs new : List ChunkRecord) : List ChunkRecord :=
  new.foldl (editRecord dead) rs

/-- **What the edits leave beyond the dead server is what the on-disk backend leaves.** -/
theorem filter_editRecords (dead : Bytes) (rs new : List ChunkRecord) :
    (editRecords dead rs new).filter (·.server ≠ dead) =
      rs.filter (·.server ≠ dead) ++ new.filter (·.server ≠ dead) := by
  induction new generalizing rs with
  | nil => simp [editRecords]
  | cons r new ih =>
      -- a field on the dead server is none of those that are kept
      have hkept : (rs.filter fun x => ¬x.field = chunkField r.chunkId dead).filter
          (·.server ≠ dead) = rs.filter (·.server ≠ dead) := by
        rw [List.filter_filter]
        refine List.filter_congr fun x _ => ?_
        have hfield : x.server ≠ dead → x.field ≠ chunkField r.chunkId dead := fun hne heq =>
          hne (chunkField_inj heq).2
        by_cases hserver : x.server = dead
        · simp [hserver]
        · simp [hserver, hfield hserver]
      rw [editRecords, List.foldl_cons, ← editRecords, ih, editRecord, List.filter_append, hkept,
        List.append_assoc, ← List.filter_append, List.singleton_append]

/-- The commands for one record, on the hash of its file. -/
lemma RecordsIn.replaceCommands {h : Map Bytes Bytes} {rs : List ChunkRecord}
    (hin : RecordsIn h rs) (dead newServer filename : Bytes) {r : ChunkRecord}
    (hserver : r.server ≠ [])
    (hnew : ∀ p ∈ rs.map (·.placement), ¬(p.chunkId = r.chunkId ∧ p.server = r.server))
    (hid : r.IdFits) (hbar : r.placement.NoBar) :
    RecordsIn ((Redis.replaceCommands dead newServer filename r).foldl HashCommand.applyTo h)
      (editRecord dead rs r) := by
  have htarget :
      ({ r with server := if r.server ≠ [] then r.server else newServer } : ChunkRecord) = r := by
    rw [if_pos hserver]
  have hfield : ∀ x ∈ rs.filter (fun x => ¬x.field = chunkField r.chunkId dead),
      x.field ≠ r.field := by
    intro x hx heq
    exact hnew x.placement (List.mem_map_of_mem (List.mem_of_mem_filter hx)) (chunkField_inj heq)
  simp only [Redis.replaceCommands, htarget, List.foldl_cons, List.foldl_nil, HashCommand.applyTo]
  exact ((hin.erase _).insert hfield hid hbar).insert_other (chunkIdOf_chunkReplicasField _) _

/-- The records of the update of one file can be put in. -/
structure Applicable (ps : List Placement) (new : List ChunkRecord) : Prop where
  named : ∀ r ∈ new, r.server ≠ []
  notHosted : NotHosted ps new
  ids : ∀ r ∈ new, r.IdFits
  noBar : ∀ r ∈ new, r.placement.NoBar

lemma mem_placements_editRecord {dead : Bytes} {rs : List ChunkRecord} {r : ChunkRecord} :
    (editRecord dead rs r).map (·.placement) ⊆ r.placement :: rs.map (·.placement) := by
  intro p hp
  obtain ⟨x, hx, rfl⟩ := List.mem_map.mp hp
  rcases List.mem_append.mp hx with hx | hx
  · exact List.mem_cons_of_mem _ (List.mem_map_of_mem (List.mem_of_mem_filter hx))
  · rw [List.mem_singleton.mp hx]
    exact List.mem_cons_self

/-- The commands for the records of one file. -/
theorem RecordsIn.replaceAll {h : Map Bytes Bytes} {rs new : List ChunkRecord}
    (hin : RecordsIn h rs) (dead newServer filename : Bytes)
    (hnew : Applicable (rs.map (·.placement)) new) :
    RecordsIn ((new.flatMap (Redis.replaceCommands dead newServer filename)).foldl
      HashCommand.applyTo h) (editRecords dead rs new) := by
  induction new generalizing h rs with
  | nil => exact hin
  | cons r new ih =>
      obtain ⟨hnamed, ⟨hfresh, hrest⟩, hids, hbars⟩ := hnew
      rw [List.flatMap_cons, List.foldl_append]
      refine ih (hin.replaceCommands dead newServer filename (hnamed r (by simp)) hfresh
        (hids r (by simp)) (hbars r (by simp))) ⟨?_, hrest.mono mem_placements_editRecord, ?_, ?_⟩
      · intro x hx
        exact hnamed x (List.mem_cons_of_mem _ hx)
      · intro x hx
        exact hids x (List.mem_cons_of_mem _ hx)
      · intro x hx
        exact hbars x (List.mem_cons_of_mem _ hx)

/-! ## The two steps on Redis -/

lemma key_replaceCommands {dead newServer filename : Bytes} {new : List ChunkRecord}
    {c : RedisCommand} (hc : c ∈ new.flatMap (Redis.replaceCommands dead newServer filename)) :
    c.key = fileKey filename := by
  obtain ⟨r, -, hc⟩ := List.mem_flatMap.mp hc
  simp only [Redis.replaceCommands, List.mem_cons, List.not_mem_nil, or_false] at hc
  rcases hc with rfl | rfl | rfl
  · rfl
  · rfl
  · rfl

lemma hgetall_atomicReplaceServerChunks (s : Redis) (dead newServer : Bytes)
    (us : Map Bytes (List ChunkRecord)) (f : Bytes) :
    (Redis.atomicReplaceServerChunks s dead newServer us).hgetall (fileKey f) =
      (((us[f]?).getD []).flatMap (Redis.replaceCommands dead newServer f)).foldl
        HashCommand.applyTo (s.hgetall (fileKey f)) := by
  have hown : ∀ u : Bytes × List ChunkRecord,
      ∀ c ∈ u.2.flatMap (Redis.replaceCommands dead newServer u.1),
        c.key = fileKey f ↔ u.1 = f := by
    intro u c hc
    rw [key_replaceCommands hc]
    exact ⟨fileKey_inj, congrArg fileKey⟩
  rw [Redis.atomicReplaceServerChunks, HashStore.hgetall_foldl_exec,
    HashStore.filter_key_flatMap hown, Map.filter_key_toList]
  cases us[f]? <;> simp

/-- The fields that `delete_server_metadata` takes out of a file with these records. -/
def deadFields (chunks : List ChunkRecord) (server : Bytes) : List Bytes :=
  (chunks.filter (·.server = server)).map fun chunk => chunkField chunk.chunkId server

/-- A key loses the fields of the server that a query of its file finds. -/
lemma get_deleteServerMetadata (s : Redis) (order : Bytes → Schedule) (server f field : Bytes) :
    ((Redis.deleteServerMetadata s order server).hgetall (fileKey f))[field]? =
      if field ∈ deadFields (Redis.queryMetadata s (order f) f).chunks server then none
      else (s.hgetall (fileKey f))[field]? := by
  have hscript : (Redis.listAllFiles s).flatMap (fun filename =>
      ((Redis.queryMetadata s (order filename) filename).chunks.filter (·.server = server)).map
        fun chunk => (.hdel (fileKey filename) (chunkField chunk.chunkId server) : RedisCommand)) =
      ((Redis.listAllFiles s).flatMap fun filename =>
        (deadFields (Redis.queryMetadata s (order filename) filename).chunks server).map
          fun field => (fileKey filename, field)).map fun p => .hdel p.1 p.2 := by
    simp only [List.map_flatMap, List.map_map, deadFields]
    rfl
  have hmem : (fileKey f, field) ∈ ((Redis.listAllFiles s).flatMap fun filename =>
      (deadFields (Redis.queryMetadata s (order filename) filename).chunks server).map
        fun field => (fileKey filename, field)) ↔
      f ∈ Redis.listAllFiles s ∧
        field ∈ deadFields (Redis.queryMetadata s (order f) f).chunks server := by
    rw [List.mem_flatMap]
    constructor
    · rintro ⟨filename, hlisted, hfield⟩
      obtain ⟨field', hfield', heq⟩ := List.mem_map.mp hfield
      obtain ⟨hkey, rfl⟩ := Prod.mk.inj heq
      obtain rfl := fileKey_inj hkey
      exact ⟨hlisted, hfield'⟩
    · rintro ⟨hlisted, hfield⟩
      exact ⟨f, hlisted, List.mem_map_of_mem hfield⟩
  rw [Redis.deleteServerMetadata, hscript, HashStore.get_foldl_hdel]
  simp only [hmem]
  by_cases hlisted : f ∈ Redis.listAllFiles s
  · simp only [hlisted, true_and]
  · -- a file that is not listed has no fields
    have hempty : s.hgetall (fileKey f) = ∅ := by
      rw [Redis.mem_listAllFiles, Bool.not_eq_false] at hlisted
      exact Std.ExtTreeMap.isEmpty_iff.mp hlisted
    simp [hempty]

/-- **`delete_server_metadata` takes out the records on the server**, if the file has a name. -/
theorem RecordsIn.deleteServerMetadata {s : Redis} {f : Bytes} {rs : List ChunkRecord}
    (hin : RecordsIn (s.hgetall (fileKey f)) rs) (hf : f ≠ []) (order : Bytes → Schedule)
    (server : Bytes) :
    RecordsIn ((Redis.deleteServerMetadata s order server).hgetall (fileKey f))
      (rs.filter (·.server ≠ server)) := by
  have hquery : ((Redis.queryMetadata s (order f) f).chunks.map (·.placement)).Perm
      (rs.map (·.placement)) := by
    rw [queryMetadata_redis s (order f) hf, placements_fillCounts]
    exact hin.placements_perm (Schedule.visit_perm _ _)
  have hgone : ∀ r ∈ rs, r.field ∈ deadFields (Redis.queryMetadata s (order f) f).chunks server ↔
      r.server = server := by
    intro r hr
    simp only [deadFields, List.mem_map, List.mem_filter, decide_eq_true_eq]
    constructor
    · rintro ⟨chunk, -, hfield⟩
      exact (chunkField_inj hfield).2.symm
    · intro hserver
      obtain ⟨chunk, hchunk, heq⟩ :=
        List.mem_map.mp (hquery.mem_iff.mpr (List.mem_map_of_mem hr))
      have hid : chunk.chunkId = r.chunkId := congrArg Placement.chunkId heq
      have hsame : chunk.server = r.server := congrArg Placement.server heq
      refine ⟨chunk, ⟨hchunk, hsame.trans hserver⟩, ?_⟩
      rw [ChunkRecord.field, hid, hserver]
  have hfilter := hin.filter (get_deleteServerMetadata s order server f)
  have hsame : (rs.filter fun r =>
      ¬r.field ∈ deadFields (Redis.queryMetadata s (order f) f).chunks server) =
      rs.filter (·.server ≠ server) :=
    List.filter_congr fun r hr => by simp only [hgone r hr, ne_eq]
  rwa [hsame] at hfilter

/-! ### The hash of the file -/

lemma fileHash_ne_chunkField (n : Int) (server : Bytes) :
    ascii "file_hash" ≠ chunkField n server := by
  simp [chunkField, ascii]

lemma fileHash_ne_chunkReplicasField (n : Int) : ascii "file_hash" ≠ chunkReplicasField n := by
  simp [chunkReplicasField, ascii]

lemma hashIn_replaceAll (h : Map Bytes Bytes) (dead newServer filename : Bytes)
    (new : List ChunkRecord) :
    hashIn ((new.flatMap (Redis.replaceCommands dead newServer filename)).foldl
      HashCommand.applyTo h) = hashIn h := by
  induction new generalizing h with
  | nil => rfl
  | cons r new ih =>
      rw [List.flatMap_cons, List.foldl_append, ih]
      simp only [hashIn, Redis.replaceCommands, ChunkRecord.field, List.foldl_cons, List.foldl_nil,
        HashCommand.applyTo, Map.get_insert, Map.get_erase, fileHash_ne_chunkField,
        fileHash_ne_chunkReplicasField, if_false]

lemma hashIn_deleteServerMetadata (s : Redis) (order : Bytes → Schedule) (server f : Bytes) :
    hashIn ((Redis.deleteServerMetadata s order server).hgetall (fileKey f)) =
      hashIn (s.hgetall (fileKey f)) := by
  have hnot : ascii "file_hash" ∉ deadFields (Redis.queryMetadata s (order f) f).chunks server := by
    intro hmem
    obtain ⟨chunk, -, heq⟩ := List.mem_map.mp hmem
    exact fileHash_ne_chunkField _ _ heq.symm
  rw [hashIn, get_deleteServerMetadata, if_neg hnot, hashIn]

/-! ## The simulation -/

/-- The update of a failover: its files are there, and its records can be put in. -/
structure ApplicableUpdate (m : MetadataMap) (us : Map Bytes (List ChunkRecord)) : Prop where
  exist : ∀ (f : Bytes) new, us[f]? = some new → (m[f]?).isSome
  records : ∀ (f : Bytes) new, us[f]? = some new → Applicable (m.placementsOf f) new

/-- What a failover leaves of a file on the on-disk backend. -/
lemma placementsOf_failover {m : MetadataMap} {us : Map Bytes (List ChunkRecord)}
    (hus : ApplicableUpdate m us) (dead f : Bytes) :
    ((m.atomicReplaceServerChunks dead us).deleteServerMetadata dead).placementsOf f =
      (m.placementsOf f).filter (·.server ≠ dead) ++
        (((us[f]?).getD []).map (·.placement)).filter (·.server ≠ dead) := by
  rw [MetadataMap.placements_deleteServerMetadata, MetadataMap.placements_atomicReplaceServerChunks]
  cases hnew : us[f]? with
  | none => simp
  | some new =>
      obtain ⟨record, hrecord⟩ := Option.isSome_iff_exists.mp (hus.exist f new hnew)
      simp [hrecord, MetadataMap.placementsOf, List.filter_append, List.filter_filter]

/-- The same on Redis. -/
lemma recordsIn_failover {m : MetadataMap} {s : Redis} {us : Map Bytes (List ChunkRecord)}
    (hus : ApplicableUpdate m us) {f : Bytes} (hf : f ≠ []) {rs : List ChunkRecord}
    (hperm : (rs.map (·.placement)).Perm (m.placementsOf f))
    (hin : RecordsIn (s.hgetall (fileKey f)) rs) (dead newServer : Bytes)
    (order : Bytes → Schedule) :
    RecordsIn
      ((Redis.deleteServerMetadata (Redis.atomicReplaceServerChunks s dead newServer us) order
        dead).hgetall (fileKey f))
      (rs.filter (·.server ≠ dead) ++ ((us[f]?).getD []).filter (·.server ≠ dead)) := by
  rw [← filter_editRecords]
  refine RecordsIn.deleteServerMetadata ?_ hf order dead
  rw [hgetall_atomicReplaceServerChunks]
  refine hin.replaceAll dead newServer f ?_
  cases hnew : us[f]? with
  | none => exact ⟨by simp, trivial, by simp, by simp⟩
  | some new =>
      have happ := hus.records f new hnew
      exact ⟨happ.named, happ.notHosted.mono hperm.subset, happ.ids, happ.noBar⟩

/-- **A failover keeps the two stores together.** -/
theorem represents_failover {m : MetadataMap} {s : Redis} (h : Represents m s)
    {us : Map Bytes (List ChunkRecord)} (hus : ApplicableUpdate m us) (dead newServer : Bytes)
    (order : Bytes → Schedule) :
    Represents ((m.atomicReplaceServerChunks dead us).deleteServerMetadata dead)
      (Redis.deleteServerMetadata (Redis.atomicReplaceServerChunks s dead newServer us) order
        dead) := by
  intro f hf
  obtain ⟨rs, hperm, hin, hhash⟩ := h f hf
  refine ⟨_, ?_, recordsIn_failover hus hf hperm hin dead newServer order, ?_⟩
  · have hfilter : ∀ l : List ChunkRecord, (l.filter (·.server ≠ dead)).map (·.placement) =
        (l.map (·.placement)).filter (·.server ≠ dead) := MetadataMap.placements_withoutServer dead
    rw [placementsOf_failover hus, List.map_append, hfilter, hfilter]
    exact (hperm.filter _).append_right _
  · rw [hashIn_deleteServerMetadata, hgetall_atomicReplaceServerChunks, hashIn_replaceAll, hhash,
      MetadataMap.hashOf_deleteServerMetadata, MetadataMap.hashOf_atomicReplaceServerChunks]

lemma represents_empty : Represents ∅ {} := by
  intro f _
  refine ⟨[], List.Perm.refl _, ⟨⟨?_, by simp⟩, by simp, by simp, by simp⟩, rfl⟩
  intro field value hget
  simp [HashStore.hgetall] at hget

/-- **A request that can take the place of what is there keeps the two stores together.** -/
theorem represents_storeMetadata {m : MetadataMap} {s : Redis} (h : Represents m s)
    {filename fileHash : Bytes} {chunks : List ChunkInfo} {replicationFactor : Int}
    (hname : (10 : UInt8) ∉ filename) (hhash : (10 : UInt8) ∉ fileHash)
    (hlen : (chunks.flatMap readBack).length ≤ 2 ^ 31 - 1)
    (hnew : Replaceable (s.hgetall (fileKey filename)) (chunks.flatMap readBack) fileHash
      replicationFactor) :
    Represents (storeMetadata m filename chunks fileHash replicationFactor)
      (Redis.storeMetadata s filename chunks fileHash replicationFactor []) := by
  intro f hf
  have hrecords := counted_readBack hlen
  rw [placementsOf_storeMetadata m chunks replicationFactor hname hhash,
    hashOf_storeMetadata m chunks replicationFactor hname hhash]
  by_cases hfile : f = filename
  · subst hfile
    rw [hgetall_storeMetadata s chunks replicationFactor hname hhash, if_pos rfl, if_pos rfl]
    refine ⟨fillCounts (chunks.flatMap readBack), ?_, ⟨hnew.spells hrecords _, ?_, ?_, ?_⟩,
      hnew.hash_commitInto _⟩
    · rw [placements_fillCounts]
    · rw [fields_fillCounts]
      exact hnew.distinct
    · exact fun r hr => hrecords.idFits hr
    · exact fun r hr => hnew.noBar_fillCounts hr
  · rw [hgetall_storeMetadata_of_ne s chunks replicationFactor hname hhash hfile, if_neg hfile,
      if_neg hfile]
    exact h f hf

/-! ## The queries agree -/

/-- **After a failover a query finds the same records and the same hash on both backends.** -/
theorem failover_agrees {m : MetadataMap} {s : Redis} (h : Represents m s)
    {us : Map Bytes (List ChunkRecord)} (hus : ApplicableUpdate m us) (dead newServer : Bytes)
    (order : Bytes → Schedule) (f : Bytes) (order' : Schedule) :
    let onDisk := (m.atomicReplaceServerChunks dead us).deleteServerMetadata dead
    let onRedis := Redis.deleteServerMetadata (Redis.atomicReplaceServerChunks s dead newServer us)
      order dead
    (Redis.queryMetadata onRedis order' f).placements.Perm (onDisk.queryMetadata f).placements ∧
      (Redis.queryMetadata onRedis order' f).fileHash = (onDisk.queryMetadata f).fileHash :=
  (represents_failover h hus dead newServer order).queryMetadata order' f

/-- The file of `twoChunks`, on the on-disk backend. -/
def twoChunksOnDisk : MetadataMap :=
  storeMetadata ∅ (ascii "f") [smallChunk 0 (ascii "a:1"), smallChunk 1 (ascii "b:1")]
    (ascii "old") 1

lemma represents_twoChunks : Represents twoChunksOnDisk twoChunks := by
  refine represents_storeMetadata represents_empty (by decide) (by decide) (by decide +kernel)
    ⟨?_, by decide +kernel, by decide +kernel, by decide, by decide⟩
  intro field value hget
  simp [HashStore.hgetall] at hget

/-- An update of that file. -/
def updateOf (new : List ChunkRecord) : Map Bytes (List ChunkRecord) :=
  (∅ : Map Bytes (List ChunkRecord)).insert (ascii "f") new

/-- A record of its second chunk. -/
def secondChunkOn (server path : Bytes) : ChunkRecord :=
  { chunkId := 1, server, path, checksum := ascii "c" }

/-- The second chunk moves to another server. -/
theorem failover_agrees_moved :
    let update := updateOf [secondChunkOn (ascii "c:1") (ascii "p")]
    let onRedis := Redis.deleteServerMetadata
      (Redis.atomicReplaceServerChunks twoChunks (ascii "b:1") (ascii "c:1") update)
      (fun _ => .inOrder) (ascii "b:1")
    (Redis.queryMetadata onRedis .inOrder (ascii "f")).placements.Perm
      [(smallChunk 0 (ascii "a:1")).placement, (smallChunk 1 (ascii "c:1")).placement] := by
  have hus : ApplicableUpdate twoChunksOnDisk
      (updateOf [secondChunkOn (ascii "c:1") (ascii "p")]) := by
    constructor
    · intro f new hnew
      rw [updateOf, Map.get_insert] at hnew
      split_ifs at hnew with hf
      · subst hf
        decide +kernel
      · simp at hnew
    · intro f new hnew
      rw [updateOf, Map.get_insert] at hnew
      split_ifs at hnew with hf
      · subst hf
        cases hnew
        exact ⟨by decide, by decide +kernel, by decide, by decide⟩
      · simp at hnew
  have hagrees := failover_agrees represents_twoChunks hus (ascii "b:1") (ascii "c:1")
    (fun _ => .inOrder) (ascii "f") .inOrder
  exact hagrees.1.trans (by decide +kernel)

/-- The records of the file `f` on either backend, after a failover of `b:1` with this update. -/
def movedOnDisk (new : List ChunkRecord) : List Placement :=
  (((twoChunksOnDisk.atomicReplaceServerChunks (ascii "b:1") (updateOf new)).deleteServerMetadata
    (ascii "b:1")).queryMetadata (ascii "f")).placements

def movedOnRedis (new : List ChunkRecord) : List Placement :=
  (Redis.queryMetadata (Redis.deleteServerMetadata (Redis.atomicReplaceServerChunks twoChunks
    (ascii "b:1") (ascii "c:1") (updateOf new)) (fun _ => .inOrder) (ascii "b:1")) .inOrder
      (ascii "f")).placements

/-- **The backends come apart.**  The records of the update name a server that does not have the
chunk.  Where two of them name the same one, the list keeps both and the field only the last; and
where a path has a bar in it, the value of the field is cut there. -/
theorem failover_disagrees :
    let twice := [secondChunkOn (ascii "c:1") (ascii "p"), secondChunkOn (ascii "c:1") (ascii "q")]
    let barred := [secondChunkOn (ascii "c:1") (ascii "p|q")]
    Represents twoChunksOnDisk twoChunks ∧
      (∀ r ∈ twice ++ barred, r.server ≠ [] ∧ ∀ p ∈ twoChunksOnDisk.placementsOf (ascii "f"),
        ¬(p.chunkId = r.chunkId ∧ p.server = r.server)) ∧
      ((movedOnDisk twice).length = 3 ∧ (movedOnRedis twice).length = 2) ∧
      (movedOnDisk barred).map (·.path) = [ascii "p", ascii "p|q"] ∧
      (movedOnRedis barred).map (·.path) = [ascii "p", ascii "p"] := by
  refine ⟨represents_twoChunks, ?_⟩
  decide +kernel

end FileGrid
