import FileGrid.Failover.Rereplicate
import FileGrid.Metadata.RedisFailover
import FileGrid.Metadata.ReplicaCounts

/-!
# Replica counts on Redis

On Redis the count of a record is a part of the value of its field, and nothing counts again: an
upload writes the counts of `collect_transfers`, a failover writes one new record in the place of
each one it replaces, and `delete_server_metadata` takes fields out.

* **Replacing keeps the counts.**  `rereplicate_dead_server_chunks` plans a copy only for a chunk
  with a record on the dead server, and gives the new record the number of records there are,
  the dead one among them.  `Replacing` says what that means for the records of a file, and
  `ids_editRecords` that the edits then leave every chunk as many records as it had.
* **Removing does not.**  `exactCounts_filter_iff`: the counts are right afterwards exactly if no
  chunk loses a record and keeps another.

**`redis_counts_exact_iff`** is about runs of the three operations from an empty store: the counts
are exact in every state exactly if every `delete_server_metadata` of the run is for a server that
shares no chunk with another.
-/

namespace FileGrid

/-! ## The records of an update take the place of others -/

/-- Every record of the update is for a chunk of its own, which has a record on the dead server and
none on the new one. -/
structure Replacing (dead : Bytes) (rs new : List ChunkRecord) : Prop where
  chunks : (new.map (·.chunkId)).Nodup
  dead_record : ∀ r ∈ new, chunkField r.chunkId dead ∈ rs.map (·.field)
  fresh : ∀ r ∈ new, ∀ x ∈ rs, x.field ≠ r.field

lemma nodup_editRecord {dead : Bytes} {rs : List ChunkRecord} {r : ChunkRecord}
    (hnodup : (rs.map (·.field)).Nodup) (hfresh : ∀ x ∈ rs, x.field ≠ r.field) :
    ((editRecord dead rs r).map (·.field)).Nodup := by
  rw [editRecord, List.map_append, List.nodup_append]
  refine ⟨hnodup.sublist (List.filter_sublist.map _), List.nodup_singleton _, ?_⟩
  intro field hfield field' hfield'
  obtain ⟨x, hx, rfl⟩ := List.mem_map.mp hfield
  obtain rfl : field' = r.field := by simpa using hfield'
  exact hfresh x (List.mem_of_mem_filter hx)

/-- One edit takes out the one record of the chunk on the dead server, and puts in another. -/
lemma ids_editRecord {dead : Bytes} {rs : List ChunkRecord} {r : ChunkRecord}
    (hnodup : (rs.map (·.field)).Nodup)
    (hdead : chunkField r.chunkId dead ∈ rs.map (·.field)) :
    ((editRecord dead rs r).map (·.chunkId)).Perm (rs.map (·.chunkId)) := by
  have hcount : (rs.filter (·.field = chunkField r.chunkId dead)).length = 1 := by
    have hone := List.count_eq_one_of_mem hnodup hdead
    rw [List.count, List.countP_map, List.countP_eq_length_filter] at hone
    rw [← hone]
    exact congrArg List.length (List.filter_congr fun y _ => Bool.eq_iff_iff.mpr (by simp))
  obtain ⟨x, hx⟩ := List.length_eq_one_iff.mp hcount
  have hid : x.chunkId = r.chunkId := by
    have hmem : x ∈ rs.filter (·.field = chunkField r.chunkId dead) := by simp [hx]
    have hfield : x.field = chunkField r.chunkId dead := by simpa using (List.mem_filter.mp hmem).2
    exact (chunkField_inj hfield).1
  have hsplit := List.filter_append_perm (fun y => decide (y.field = chunkField r.chunkId dead)) rs
  rw [hx] at hsplit
  have hids := (hsplit.map (·.chunkId)).symm
  refine List.Perm.trans ?_ hids.symm
  rw [editRecord, List.map_append, List.map_append, List.map_singleton, List.map_singleton, hid]
  refine List.perm_append_comm.trans ?_
  simp

lemma Replacing.tail {dead : Bytes} {rs new : List ChunkRecord} {r : ChunkRecord}
    (h : Replacing dead rs (r :: new)) : Replacing dead (editRecord dead rs r) new := by
  have hchunks := h.chunks
  rw [List.map_cons, List.nodup_cons] at hchunks
  have hother : ∀ r' ∈ new, r'.chunkId ≠ r.chunkId := fun r' hr' heq =>
    hchunks.1 (List.mem_map.mpr ⟨r', hr', heq⟩)
  refine ⟨hchunks.2, ?_, ?_⟩
  · intro r' hr'
    obtain ⟨x, hx, hfield⟩ := List.mem_map.mp (h.dead_record r' (by simp [hr']))
    refine List.mem_map.mpr ⟨x, List.mem_append_left _ (List.mem_filter.mpr ⟨hx, ?_⟩), hfield⟩
    have hne : x.field ≠ chunkField r.chunkId dead := by
      rw [hfield]
      exact fun heq => hother r' hr' (chunkField_inj heq).1
    simpa using hne
  · intro r' hr' x hx
    rcases List.mem_append.mp hx with hx | hx
    · exact h.fresh r' (by simp [hr']) x (List.mem_of_mem_filter hx)
    · rw [List.mem_singleton.mp hx]
      exact fun heq => hother r' hr' (chunkField_inj heq).1.symm

/-- **The edits leave every chunk as many records as it had.** -/
theorem ids_editRecords {dead : Bytes} {rs new : List ChunkRecord}
    (hnodup : (rs.map (·.field)).Nodup) (h : Replacing dead rs new) :
    ((editRecords dead rs new).map (·.chunkId)).Perm (rs.map (·.chunkId)) := by
  induction new generalizing rs with
  | nil => exact List.Perm.refl _
  | cons r new ih =>
      have hnodup' := @nodup_editRecord dead rs r hnodup (h.fresh r (by simp))
      exact (ih hnodup' h.tail).trans (ids_editRecord hnodup (h.dead_record r (by simp)))

lemma mem_editRecords {dead : Bytes} {rs new : List ChunkRecord} {x : ChunkRecord}
    (h : x ∈ editRecords dead rs new) : x ∈ rs ∨ x ∈ new := by
  induction new generalizing rs with
  | nil => exact Or.inl h
  | cons r new ih =>
      rcases ih h with hx | hx
      · rcases List.mem_append.mp hx with hx | hx
        · exact Or.inl (List.mem_of_mem_filter hx)
        · exact Or.inr (by simp [List.mem_singleton.mp hx])
      · exact Or.inr (by simp [hx])

lemma notHosted_of_fresh {new : List ChunkRecord} {ps : List Placement}
    (hchunks : (new.map (·.chunkId)).Nodup)
    (hfresh : ∀ r ∈ new, ∀ p ∈ ps, ¬(p.chunkId = r.chunkId ∧ p.server = r.server)) :
    NotHosted ps new := by
  induction new generalizing ps with
  | nil => trivial
  | cons r new ih =>
      rw [List.map_cons, List.nodup_cons] at hchunks
      refine ⟨hfresh r (by simp), ih hchunks.2 ?_⟩
      intro r' hr' p hp
      rcases List.mem_cons.mp hp with rfl | hp
      · exact fun heq => hchunks.1 (List.mem_map.mpr ⟨r', hr', heq.1.symm⟩)
      · exact hfresh r' (by simp [hr']) p hp

lemma Replacing.notHosted {dead : Bytes} {rs new : List ChunkRecord} (h : Replacing dead rs new) :
    NotHosted (rs.map (·.placement)) new := by
  refine notHosted_of_fresh h.chunks fun r hr p hp => ?_
  obtain ⟨x, hx, rfl⟩ := List.mem_map.mp hp
  rintro ⟨hid, hserver⟩
  refine h.fresh r hr x hx ?_
  rw [ChunkRecord.field, ChunkRecord.field, ← hid, ← hserver]
  rfl

/-! ## Exact counts -/

/-- The number of records of a chunk depends on the chunks of the records only. -/
lemma countP_chunkId_of_perm {rs rs' : List ChunkRecord}
    (h : (rs.map (·.chunkId)).Perm (rs'.map (·.chunkId))) (c : Int) :
    rs.countP (·.chunkId = c) = rs'.countP (·.chunkId = c) := by
  have hcount := h.countP_eq (fun id => decide (id = c))
  rwa [List.countP_map, List.countP_map] at hcount

lemma exactCounts_of_perm {rs rs' : List ChunkRecord} (h : rs.Perm rs') :
    ExactCounts rs ↔ ExactCounts rs' := by
  have hcount := countP_chunkId_of_perm (h.map (·.chunkId))
  constructor
  · intro hexact r hr
    rw [← hcount]
    exact hexact r (h.mem_iff.mpr hr)
  · intro hexact r hr
    rw [hcount]
    exact hexact r (h.mem_iff.mp hr)

/-- **Replacing keeps exact counts**, if the new records have those of the chunks before. -/
lemma exactCounts_editRecords {dead : Bytes} {rs new : List ChunkRecord}
    (hnodup : (rs.map (·.field)).Nodup) (h : Replacing dead rs new) (hexact : ExactCounts rs)
    (hnew : ∀ r ∈ new, r.replicaCount = ((rs.countP (·.chunkId = r.chunkId) : Nat) : Int)) :
    ExactCounts (editRecords dead rs new) := by
  intro r hr
  rw [countP_chunkId_of_perm (ids_editRecords hnodup h)]
  rcases mem_editRecords hr with hr | hr
  · exact hexact r hr
  · exact hnew r hr

/-- **Removing keeps exact counts exactly if** no chunk loses a record and keeps another. -/
lemma exactCounts_filter_iff {rs : List ChunkRecord} (hexact : ExactCounts rs) (server : Bytes) :
    ExactCounts (rs.filter (·.server ≠ server)) ↔
      ∀ r ∈ rs, r.server = server → ∀ r' ∈ rs, r'.chunkId = r.chunkId → r'.server = server := by
  have hsplit : ∀ c : Int, rs.countP (·.chunkId = c) =
      (rs.filter (·.server ≠ server)).countP (·.chunkId = c) +
        rs.countP (fun x => x.chunkId = c ∧ x.server = server) := by
    intro c
    rw [List.countP_eq_countP_filter_add rs _ (fun x => decide (x.server ≠ server))]
    congr 1
    rw [List.countP_filter]
    refine List.countP_congr fun x _ => ?_
    simp
  constructor
  · intro h r hr hserver r' hr' hid
    by_contra hne
    have hkept : r' ∈ rs.filter (·.server ≠ server) := List.mem_filter.mpr ⟨hr', by simpa using hne⟩
    have hpos : 0 < rs.countP (fun x => x.chunkId = r'.chunkId ∧ x.server = server) :=
      List.countP_pos_iff.mpr ⟨r, hr, by simp [hid, hserver]⟩
    have hbefore := hexact r' hr'
    have hafter := h r' hkept
    have hcount := hsplit r'.chunkId
    omega
  · intro h r' hr'
    obtain ⟨hmem, hne⟩ := List.mem_filter.mp hr'
    have hzero : rs.countP (fun x => x.chunkId = r'.chunkId ∧ x.server = server) = 0 := by
      rw [List.countP_eq_zero]
      intro x hx hboth
      simp only [decide_eq_true_eq] at hboth hne
      exact hne (h x hx hboth.2 r' hmem hboth.1.symm)
    have hbefore := hexact r' hmem
    have hcount := hsplit r'.chunkId
    omega

/-! ## The operations -/

/-- `file_chunks_to_update`, as `rereplicate_dead_server_chunks` builds it from what it reads;
`outcome` is what came of each copy. -/
def Redis.failoverUpdates (s : Redis) (order : Bytes → Schedule) (dead : Bytes)
    (healthy : List Bytes) (outcome : Job → Option Bytes) : Map Bytes (List ChunkRecord) :=
  ((planOver s.listAllFiles (fun f => s.queryMetadata (order f) f) dead healthy).foldl
    (execJob fun (_ : Unit) job => ((), outcome job)) ((), ∅)).2

/-- The operations of the head on the store. -/
inductive CountEvent
  | storeMetadata (filename : Bytes) (chunks : List ChunkInfo) (fileHash : Bytes)
      (replicationFactor : Int)
  | atomicReplaceServerChunks (dead newServer : Bytes) (registry : ServerRegistry)
      (health : HealthMonitor) (order : Bytes → Schedule) (outcome : Job → Option Bytes)
  | deleteServerMetadata (order : Bytes → Schedule) (server : Bytes)

/-- The records that a failover writes now. -/
def Redis.updatesNow (s : Redis) (dead : Bytes) (registry : ServerRegistry) (health : HealthMonitor)
    (order : Bytes → Schedule) (outcome : Job → Option Bytes) : Map Bytes (List ChunkRecord) :=
  s.failoverUpdates order dead (healthyServers registry health dead) outcome

def countStep (s : Redis) : CountEvent → Redis
  | .storeMetadata filename chunks fileHash replicationFactor =>
      s.storeMetadata filename chunks fileHash replicationFactor []
  | .atomicReplaceServerChunks dead newServer registry health order outcome =>
      s.atomicReplaceServerChunks dead newServer (s.updatesNow dead registry health order outcome)
  | .deleteServerMetadata order server => s.deleteServerMetadata order server

/-- A call of `store_metadata` for a name that is not in use, with replicas as `collect_transfers`
delivers them: each knows how many of its chunk there are.  The fields are words without a bar. -/
structure FreshCommit (s : Redis) (filename : Bytes) (chunks : List ChunkInfo) (fileHash : Bytes) :
    Prop where
  fresh : s.hgetall (fileKey filename) = ∅
  name : (10 : UInt8) ∉ filename
  hash : (10 : UInt8) ∉ fileHash
  readable : ∀ c ∈ chunks, c.Readable
  noBar : ∀ c ∈ chunks, c.placement.NoBar
  distinct : (chunks.map fun c => (c.chunkId, c.serverIp)).Nodup
  counts : ∀ c ∈ chunks, c.replicaCount = ((chunks.countP (·.chunkId = c.chunkId) : Nat) : Int)
  length : (chunks.length : Int) ≤ 2 ^ 31 - 1

/-- The calls that the result is about: fresh commits, and failovers that record no bar. -/
def CountEvent.Clean (s : Redis) : CountEvent → Prop
  | .storeMetadata filename chunks fileHash _ => FreshCommit s filename chunks fileHash
  | .atomicReplaceServerChunks dead _ registry health order outcome =>
      ∀ p ∈ (s.updatesNow dead registry health order outcome).toList,
        ∀ r ∈ p.2, r.placement.NoBar
  | .deleteServerMetadata _ _ => True

/-- The server shares no chunk with another, if it is to be removed. -/
def CountEvent.SharesNone (s : Redis) : CountEvent → Prop
  | .deleteServerMetadata _ server => ∀ order f, ∀ r ∈ (s.queryMetadata order f).chunks,
      r.server = server → ∀ r' ∈ (s.queryMetadata order f).chunks, r'.chunkId = r.chunkId →
        r'.server = server
  | _ => True

/-! ## The invariant -/

/-- The records of a file, with counts that are read back as they are. -/
structure CountedIn (h : Map Bytes Bytes) (rs : List ChunkRecord) : Prop where
  records : RecordsIn h rs
  counts : ∀ r ∈ rs, 1 ≤ r.replicaCount ∧ r.replicaCount ≤ 2 ^ 31 - 1
  length : (rs.length : Int) ≤ 2 ^ 31 - 1

/-- Every file has records that are read back as they are. -/
def AllCounted (s : Redis) : Prop :=
  ∀ f ≠ [], ∃ rs, CountedIn (s.hgetall (fileKey f)) rs

/-- **A query shows the records.** -/
lemma CountedIn.query_perm {s : Redis} {f : Bytes} {rs : List ChunkRecord}
    (h : CountedIn (s.hgetall (fileKey f)) rs) (hf : f ≠ []) (order : Schedule) :
    (s.queryMetadata order f).chunks.Perm rs := by
  have hperm := chunksOf_perm h.records.spells h.records.distinct h.records.ids h.records.noBar
    (order.visit_perm (s.hgetall (fileKey f)).toList)
  have hdecoded : rs.map (·.decoded) = rs := by
    refine (List.map_congr_left fun r hr => ?_).trans (List.map_id rs)
    obtain ⟨hlo, hhi⟩ := h.counts r hr
    have hread : stoi (dec r.replicaCount) = some r.replicaCount := stoi_dec (by omega) hhi
    simp only [ChunkRecord.decoded, hread, Option.getD_some, id_eq]
  rw [hdecoded] at hperm
  have hpos : ∀ r ∈ chunksOf (order.visit (s.hgetall (fileKey f)).toList), 1 ≤ r.replicaCount :=
    fun r hr => (h.counts r (hperm.mem_iff.mp hr)).1
  rw [queryMetadata_redis s order hf, fillCounts_of_pos hpos]
  exact hperm

lemma CountedIn.exact_iff {s : Redis} {f : Bytes} {rs : List ChunkRecord}
    (h : CountedIn (s.hgetall (fileKey f)) rs) (hf : f ≠ []) (order : Schedule) :
    (s.queryMetadata order f).CountsExact ↔ ExactCounts rs :=
  exactCounts_of_perm (h.query_perm hf order)

/-- Every query shows exact counts. -/
def AllExact (s : Redis) : Prop := ∀ order f, (s.queryMetadata order f).CountsExact

lemma countsExact_unnamed (s : Redis) (order : Schedule) :
    (s.queryMetadata order []).CountsExact := by
  intro r hr
  simp [Redis.queryMetadata] at hr

/-- The counts that a query shows are those of the records, whatever the order. -/
lemma allExact_iff {s : Redis} {recordsOf : Bytes → List ChunkRecord}
    (h : ∀ f ≠ [], CountedIn (s.hgetall (fileKey f)) (recordsOf f)) :
    AllExact s ↔ ∀ f ≠ [], ExactCounts (recordsOf f) := by
  constructor
  · intro hall f hf
    exact ((h f hf).exact_iff hf .inOrder).mp (hall .inOrder f)
  · intro hall order f
    by_cases hf : f = []
    · rw [hf]
      exact countsExact_unnamed s order
    · exact ((h f hf).exact_iff hf order).mpr (hall f hf)

/-! ## A fresh commit -/

/-- Chunk infos that are not twice on one server give records with distinct fields. -/
lemma fields_of_distinct {chunks : List ChunkInfo} {g : ChunkInfo → ChunkRecord}
    (hg : ∀ c, (g c).chunkId = c.chunkId ∧ (g c).server = c.serverIp)
    (h : (chunks.map fun c => (c.chunkId, c.serverIp)).Nodup) :
    ((chunks.map g).map (·.field)).Nodup := by
  rw [List.map_map]
  rw [List.Nodup, List.pairwise_map] at h ⊢
  refine h.imp ?_
  intro c d hne heq
  obtain ⟨hid, hserver⟩ := chunkField_inj heq
  rw [(hg c).1, (hg d).1] at hid
  rw [(hg c).2, (hg d).2] at hserver
  exact hne (Prod.ext hid hserver)

section

variable {s : Redis} {filename fileHash : Bytes} {chunks : List ChunkInfo}

/-- **A commit to a key that is not there leaves the records of the request**, with their counts
filled in. -/
lemma countedIn_storeMetadata {rs : List ChunkRecord} (hback : chunks.flatMap readBack = rs)
    (hfresh : s.hgetall (fileKey filename) = ∅) (hname : (10 : UInt8) ∉ filename)
    (hhash : (10 : UInt8) ∉ fileHash) (hdistinct : (rs.map (·.field)).Nodup)
    (hnoBar : ∀ r ∈ rs, r.placement.NoBar) (hlength : (rs.length : Int) ≤ 2 ^ 31 - 1)
    (replicationFactor : Int) :
    CountedIn ((s.storeMetadata filename chunks fileHash replicationFactor []).hgetall
      (fileKey filename)) (fillCounts rs) := by
  have hcounted : Counted rs := by
    have hlen : (chunks.flatMap readBack).length ≤ 2 ^ 31 - 1 := by
      rw [hback]
      omega
    exact hback ▸ counted_readBack hlen
  -- with nothing there before, the condition for replacing it is one on the records
  have hnew : Replaceable ∅ rs fileHash 1 := by
    refine ⟨?_, hdistinct, hnoBar, Or.inr (by simp), Or.inl one_pos⟩
    intro field value hget
    simp at hget
  have hnodup : ((fillCounts rs).map (·.field)).Nodup := by
    rw [fields_fillCounts]
    exact hdistinct
  refine ⟨⟨?_, hnodup, fun r hr => hcounted.idFits hr, fun r hr => hnew.noBar_fillCounts hr⟩,
    ?_, ?_⟩
  · rw [hgetall_storeMetadata s chunks replicationFactor hname hhash, hfresh, hback]
    exact hnew.spells hcounted _
  · exact fun r hr => fillCounts_range hcounted.length hcounted.counts hr
  · rw [fillCounts, List.length_map]
    exact hcounted.length

/-- **A fresh commit leaves records with exact counts.** -/
lemma FreshCommit.countedIn (h : FreshCommit s filename chunks fileHash)
    (replicationFactor : Int) :
    ∃ rs, CountedIn ((s.storeMetadata filename chunks fileHash replicationFactor []).hgetall
      (fileKey filename)) rs ∧ ExactCounts rs := by
  have hback : chunks.flatMap readBack = chunks.map (·.readAs) := by
    have hread : ∀ c ∈ chunks, readBack c = [c.readAs] := fun c hc =>
      readBack_readAs (h.readable c hc).id_lo (h.readable c hc).id_hi (h.readable c hc).server
        (h.readable c hc).path (h.readable c hc).checksum
    rw [List.flatMap_congr hread, ← List.map_eq_flatMap]
  have hnoBar : ∀ r ∈ chunks.map (·.readAs), r.placement.NoBar := by
    intro r hr
    obtain ⟨c, hc, rfl⟩ := List.mem_map.mp hr
    exact h.noBar c hc
  refine ⟨fillCounts (chunks.map (·.readAs)), countedIn_storeMetadata hback h.fresh h.name h.hash
    (fields_of_distinct (fun _ => ⟨rfl, rfl⟩) h.distinct) hnoBar ?_ replicationFactor, ?_⟩
  · rw [List.length_map]
    exact h.length
  · rw [fillCounts_map (fun _ => rfl) (fun _ => replicaCount_readAs) h.counts]
    exact exactCounts_recount _

end

/-! ## A failover -/

lemma Redis.nodup_listAllFiles (s : Redis) : (Redis.listAllFiles s).Nodup := by
  refine List.Nodup.filterMap ?_ (Map.nodup_keys_toList s.hashes)
  intro key key' f hf hf'
  simp only [Option.mem_def] at hf hf'
  split_ifs at hf with hstart
  split_ifs at hf' with hstart'
  obtain ⟨name, rfl⟩ := hstart
  obtain ⟨name', rfl⟩ := hstart'
  have hname : name = f := by simpa [ascii] using hf
  have hname' : name' = f := by simpa [ascii] using hf'
  rw [hname, hname']

section

variable {s : Redis} {f : Bytes} {rs : List ChunkRecord} {order : Bytes → Schedule} {dead : Bytes}
  {healthy : List Bytes} {outcome : Job → Option Bytes}

lemma getD_failoverUpdates :
    ((s.failoverUpdates order dead healthy outcome)[f]?).getD [] =
      addedTo (copies (fun (_ : Unit) job => ((), outcome job)) ()
        (planOver s.listAllFiles (fun f => s.queryMetadata (order f) f) dead healthy)) f := by
  rw [Redis.failoverUpdates, get_foldl_execJob]
  split_ifs with hnil
  · rw [hnil]
    simp
  · simp

/-- **What a record of the update is**: the chunk has a record on the dead server and none on the
new one, and the count is the number of its records. -/
lemma mem_failoverUpdates (h : CountedIn (s.hgetall (fileKey f)) rs) (hf : f ≠ []) {r : ChunkRecord}
    (hr : r ∈ ((s.failoverUpdates order dead healthy outcome)[f]?).getD []) :
    (∃ x ∈ rs, x.chunkId = r.chunkId ∧ x.server = dead) ∧ (∀ x ∈ rs, x.field ≠ r.field) ∧
      r.replicaCount = ((rs.countP (·.chunkId = r.chunkId) : Nat) : Int) ∧ r.server ≠ [] := by
  rw [getD_failoverUpdates] at hr
  obtain ⟨d, hd, rfl⟩ := List.mem_map.mp hr
  obtain ⟨hd, hname⟩ := List.mem_filter.mp hd
  simp only [decide_eq_true_eq] at hname
  have hplan := (copies_sublist _ _ ()).subset (List.mem_map_of_mem hd)
  have hjob := (mem_planOver.mp hplan).2
  rw [hname] at hjob
  have hperm := h.query_perm hf (order f)
  have hspec := jobOf_spec hjob
  obtain ⟨hcount, htarget⟩ := jobOf_count hjob
  refine ⟨?_, ?_, ?_, htarget⟩
  · obtain ⟨x, hx, hserver⟩ := hspec.dead_record
    obtain ⟨hx, hid⟩ := List.mem_filter.mp hx
    exact ⟨x, hperm.mem_iff.mp hx, of_decide_eq_true hid, hserver⟩
  · intro x hx hfield
    obtain ⟨hid, hserver⟩ := chunkField_inj hfield
    exact hspec.target_new x
      (List.mem_filter.mpr ⟨hperm.mem_iff.mpr hx, decide_eq_true hid⟩) hserver
  · rw [← countP_chunkId_of_perm (hperm.map _), List.countP_eq_length_filter]
    exact hcount

lemma replacing_failoverUpdates (h : CountedIn (s.hgetall (fileKey f)) rs) (hf : f ≠ []) :
    Replacing dead rs (((s.failoverUpdates order dead healthy outcome)[f]?).getD []) := by
  refine ⟨?_, ?_, ?_⟩
  · rw [getD_failoverUpdates]
    exact nodup_ids_addedTo _ (nodup_planOver (Redis.nodup_listAllFiles s) _ _ _) () f
  · intro r hr
    obtain ⟨x, hx, hid, hserver⟩ := (mem_failoverUpdates h hf hr).1
    refine List.mem_map.mpr ⟨x, hx, ?_⟩
    rw [ChunkRecord.field, hid, hserver]
  · exact fun r hr => (mem_failoverUpdates h hf hr).2.1

/-- **A failover leaves every chunk as many records as it had, and counts them right.** -/
lemma CountedIn.replace (h : CountedIn (s.hgetall (fileKey f)) rs) (hf : f ≠ [])
    (newServer : Bytes)
    (hbar : ∀ r ∈ ((s.failoverUpdates order dead healthy outcome)[f]?).getD [],
      r.placement.NoBar) :
    ∃ rs', CountedIn ((s.atomicReplaceServerChunks dead newServer
        (s.failoverUpdates order dead healthy outcome)).hgetall (fileKey f)) rs' ∧
      (ExactCounts rs → ExactCounts rs') := by
  have hreplacing := @replacing_failoverUpdates s f rs order dead healthy outcome h hf
  have hnew := fun r hr => @mem_failoverUpdates s f rs order dead healthy outcome h hf r hr
  have hlength := (ids_editRecords h.records.distinct hreplacing).length_eq
  rw [List.length_map, List.length_map] at hlength
  refine ⟨editRecords dead rs _, ⟨?_, ?_, by rw [hlength]; exact h.length⟩, fun hexact =>
    exactCounts_editRecords h.records.distinct hreplacing hexact fun r hr => (hnew r hr).2.2.1⟩
  · rw [hgetall_atomicReplaceServerChunks]
    refine h.records.replaceAll dead newServer f
      ⟨fun r hr => (hnew r hr).2.2.2, hreplacing.notHosted, ?_, hbar⟩
    intro r hr
    obtain ⟨x, hx, hid, -⟩ := (hnew r hr).1
    rw [ChunkRecord.IdFits, ← hid]
    exact h.records.ids x hx
  · intro r hr
    rcases mem_editRecords hr with hr | hr
    · exact h.counts r hr
    · obtain ⟨⟨x, hx, hid, -⟩, -, hcount, -⟩ := hnew r hr
      have hpos : 0 < rs.countP (·.chunkId = r.chunkId) :=
        List.countP_pos_iff.mpr ⟨x, hx, by simpa using hid⟩
      have hle : rs.countP (·.chunkId = r.chunkId) ≤ rs.length := List.countP_le_length
      have hlen := h.length
      omega

end

/-! ## Runs -/

lemma CountedIn.deleteServerMetadata {s : Redis} {f : Bytes} {rs : List ChunkRecord}
    (h : CountedIn (s.hgetall (fileKey f)) rs) (hf : f ≠ []) (order : Bytes → Schedule)
    (server : Bytes) :
    CountedIn ((s.deleteServerMetadata order server).hgetall (fileKey f))
      (rs.filter (·.server ≠ server)) where
  records := h.records.deleteServerMetadata hf order server
  counts := fun r hr => h.counts r (List.mem_of_mem_filter hr)
  length := by
    have hle := List.length_filter_le (fun r : ChunkRecord => decide (r.server ≠ server)) rs
    have hlen := h.length
    omega

/-- What is written and replaced keeps its counts. -/
lemma CountedIn.step_of_not_delete {s : Redis} {f : Bytes} {rs : List ChunkRecord}
    (h : CountedIn (s.hgetall (fileKey f)) rs) (hf : f ≠ []) {ev : CountEvent} (hclean : ev.Clean s)
    (hev : ∀ order server, ev ≠ .deleteServerMetadata order server) :
    ∃ rs', CountedIn ((countStep s ev).hgetall (fileKey f)) rs' ∧
      (ExactCounts rs → ExactCounts rs') := by
  cases ev with
  | storeMetadata filename chunks fileHash replicationFactor =>
      by_cases hfile : f = filename
      · obtain ⟨rs', hrs', hexact⟩ := FreshCommit.countedIn hclean replicationFactor
        rw [hfile]
        exact ⟨rs', hrs', fun _ => hexact⟩
      · refine ⟨rs, ?_, id⟩
        rw [countStep,
          hgetall_storeMetadata_of_ne s chunks replicationFactor hclean.name hclean.hash hfile]
        exact h
  | atomicReplaceServerChunks dead newServer registry health order outcome =>
      refine h.replace hf newServer fun r hr => ?_
      cases hnew : (s.updatesNow dead registry health order outcome)[f]? with
      | none =>
          rw [Redis.updatesNow] at hnew
          simp [hnew] at hr
      | some new =>
          refine hclean (f, new) (Map.mem_toList.mpr hnew) r ?_
          rw [Redis.updatesNow] at hnew
          simpa [hnew] using hr
  | deleteServerMetadata order server => exact absurd rfl (hev order server)

lemma allCounted_step {s : Redis} (h : AllCounted s) {ev : CountEvent} (hclean : ev.Clean s) :
    AllCounted (countStep s ev) := by
  intro f hf
  obtain ⟨rs, hrs⟩ := h f hf
  by_cases hev : ∀ order server, ev ≠ .deleteServerMetadata order server
  · obtain ⟨rs', hrs', -⟩ := hrs.step_of_not_delete hf hclean hev
    exact ⟨rs', hrs'⟩
  · push Not at hev
    obtain ⟨order, server, rfl⟩ := hev
    exact ⟨_, hrs.deleteServerMetadata hf order server⟩

/-- The server shares no chunk: the same of the records, which a query shows in some order. -/
lemma sharesNone_iff {s : Redis} {recordsOf : Bytes → List ChunkRecord}
    (h : ∀ f ≠ [], CountedIn (s.hgetall (fileKey f)) (recordsOf f)) (order : Bytes → Schedule)
    (server : Bytes) :
    (CountEvent.deleteServerMetadata order server).SharesNone s ↔
      ∀ f ≠ [], ∀ r ∈ recordsOf f, r.server = server →
        ∀ r' ∈ recordsOf f, r'.chunkId = r.chunkId → r'.server = server := by
  constructor
  · intro hshares f hf r hr hserver r' hr' hid
    have hperm := (h f hf).query_perm hf .inOrder
    exact hshares .inOrder f r (hperm.mem_iff.mpr hr) hserver r' (hperm.mem_iff.mpr hr') hid
  · intro hshares order' f r hr hserver r' hr' hid
    have hf : f ≠ [] := by
      rintro rfl
      simp [Redis.queryMetadata] at hr
    have hperm := (h f hf).query_perm hf order'
    exact hshares f hf r (hperm.mem_iff.mp hr) hserver r' (hperm.mem_iff.mp hr') hid

/-- **One step keeps the counts exact exactly if** it removes no server that shares a chunk. -/
lemma allExact_step_iff {s : Redis} (h : AllCounted s) {ev : CountEvent} (hclean : ev.Clean s)
    (hexact : AllExact s) : AllExact (countStep s ev) ↔ ev.SharesNone s := by
  by_cases hev : ∀ order server, ev ≠ .deleteServerMetadata order server
  · refine iff_of_true ?_ ?_
    · intro order f
      by_cases hf : f = []
      · rw [hf]
        exact countsExact_unnamed _ order
      · obtain ⟨rs, hrs⟩ := h f hf
        obtain ⟨rs', hrs', hkeep⟩ := hrs.step_of_not_delete hf hclean hev
        exact (hrs'.exact_iff hf order).mpr (hkeep ((hrs.exact_iff hf order).mp (hexact order f)))
    · cases ev with
      | deleteServerMetadata order server => exact absurd rfl (hev order server)
      | storeMetadata filename chunks fileHash replicationFactor => trivial
      | atomicReplaceServerChunks dead newServer registry health order outcome => trivial
  · push Not at hev
    obtain ⟨order, server, rfl⟩ := hev
    choose! recordsOf hrecords using h
    have hbefore := (allExact_iff hrecords).mp hexact
    have hafter : AllExact (countStep s (.deleteServerMetadata order server)) ↔ _ :=
      allExact_iff fun f hf => (hrecords f hf).deleteServerMetadata hf order server
    rw [hafter, sharesNone_iff hrecords]
    exact forall₂_congr fun f hf => exactCounts_filter_iff (hbefore f hf) server

lemma allCounted_empty : AllCounted {} := by
  intro f _
  refine ⟨[], ⟨⟨⟨?_, by simp⟩, by simp, by simp, by simp⟩, by simp, by simp⟩⟩
  intro field value hget
  simp [HashStore.hgetall] at hget

lemma allExact_empty : AllExact {} := by
  intro order f r hr
  simp [Redis.queryMetadata, HashStore.hgetall] at hr

/-- **The counts of the records are exact in every state of a run exactly if** every server that
`delete_server_metadata` is called for shares no chunk with another. -/
theorem redis_counts_exact_iff {evs : List CountEvent}
    (hclean : AlongRun countStep (fun s ev => ev.Clean s) {} evs) :
    (∀ before, before <+: evs → AllExact (before.foldl countStep {})) ↔
      AlongRun countStep (fun s ev => ev.SharesNone s) {} evs :=
  forall_reached_iff_of_alongRun AllCounted AllExact (fun _ _ h hclean => allCounted_step h hclean)
    (fun _ _ h hclean hexact => allExact_step_iff h hclean hexact) hclean allCounted_empty
    allExact_empty

/-- An upload of one chunk to two servers. -/
def storeTwoReplicas : CountEvent :=
  .storeMetadata (ascii "f")
    [{ smallChunk 0 (ascii "a:1") with replicaCount := 2 },
      { smallChunk 0 (ascii "b:1") with replicaCount := 2 }] (ascii "9f86") 2

lemma clean_storeTwoReplicas : storeTwoReplicas.Clean {} where
  fresh := by simp [HashStore.hgetall]
  name := by decide
  hash := by decide
  readable := by decide
  noBar := by decide
  distinct := by decide
  counts := by decide
  length := by decide

/-- The second server fails, and its replica is copied to a third. -/
def moveSecondReplica : CountEvent :=
  .atomicReplaceServerChunks (ascii "b:1") (ascii "c:1")
    (ServerRegistry.addServer {} (ascii "c") 1 2 3).2 {} (fun _ => .inOrder)
    (fun _ => some (ascii "q"))

theorem redis_counts_exact_after_failover :
    AllExact ([storeTwoReplicas, moveSecondReplica].foldl countStep {}) := by
  have hbars : moveSecondReplica.Clean (countStep {} storeTwoReplicas) := by
    show ∀ p ∈ (Redis.updatesNow _ _ _ _ _ _).toList, ∀ r ∈ p.2, r.placement.NoBar
    decide +kernel
  have hclean : AlongRun countStep (fun s ev => ev.Clean s) {}
      [storeTwoReplicas, moveSecondReplica] := ⟨clean_storeTwoReplicas, hbars, trivial⟩
  exact (redis_counts_exact_iff hclean).mpr ⟨trivial, trivial, trivial⟩ _ (List.prefix_refl _)

-- the new record has the place of the old one
example :
    (([storeTwoReplicas, moveSecondReplica].foldl countStep {}).queryMetadata .inOrder
      (ascii "f")).chunks.map (fun r => (r.server, r.replicaCount)) =
        [(ascii "a:1", 2), (ascii "c:1", 2)] := by
  decide +kernel

/-- One of two servers is removed, and the record on the other still says two. -/
theorem redis_count_stale_after_removal :
    let evs := [storeTwoReplicas, .deleteServerMetadata (fun _ => .inOrder) (ascii "b:1")]
    AlongRun countStep (fun s ev => ev.Clean s) {} evs ∧ ¬ AllExact (evs.foldl countStep {}) := by
  refine ⟨⟨clean_storeTwoReplicas, trivial, trivial⟩, fun hexact => ?_⟩
  have hcounts : ExactCounts _ := hexact .inOrder (ascii "f")
  revert hcounts
  decide +kernel

end FileGrid
