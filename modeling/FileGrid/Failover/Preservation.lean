import FileGrid.Failover.Rereplicate

/-!
# What a failover preserves

Two questions about `rereplicateDeadServerChunks`, for every metadata store and every pattern of
copies.

**Does it leave the records in order?**  `failover_correct`: when the copies succeed, the dead
server is gone, the other records are untouched, no server holds a chunk twice, and every chunk
that can be replicated again is.

**Does it ever forget a chunk?**  The dead server's records are purged whether or not a
replacement was made, so a chunk that stood on the dead server alone disappears from the metadata:
`failover_keeps_chunks_iff` says exactly when none does.
-/

namespace FileGrid

open MetadataMap

/-! ## Records and placements -/

lemma mem_recordsOf_placement {m : MetadataMap} {f : Bytes} {c : Int} {r : ChunkRecord}
    (h : r ∈ recordsOf m f c) : r.placement ∈ m.placementsOf f ∧ r.placement.chunkId = c := by
  obtain ⟨hr, hc⟩ := List.mem_filter.mp h
  rw [← placements_getChunks]
  exact ⟨List.mem_map_of_mem hr, by simpa using hc⟩

lemma exists_recordsOf {m : MetadataMap} {f : Bytes} {p : Placement} (h : p ∈ m.placementsOf f) :
    ∃ r ∈ recordsOf m f p.chunkId, r.placement = p := by
  rw [← placements_getChunks] at h
  obtain ⟨r, hr, rfl⟩ := List.mem_map.mp h
  exact ⟨r, List.mem_filter.mpr ⟨hr, by simp⟩, rfl⟩

/-- The chunk and server of a placement. -/
def Placement.slot (p : Placement) : Int × Bytes := (p.chunkId, p.server)

/-- No file has two records with the same chunk and server. -/
def DistinctServers (m : MetadataMap) : Prop := ∀ f, ((m.placementsOf f).map (·.slot)).Nodup

/-! ## The added records -/

section

variable {σ : Type} {copy : σ → Job → σ × Option Bytes}
variable {registry : ServerRegistry} {health : HealthMonitor} {dead : Bytes}

/-- An added record comes from a planned copy of a chunk of this file. -/
lemma mem_addedTo {s : σ} {m : MetadataMap} {f : Bytes} {p : Placement}
    (h : p ∈ (addedTo (failoverCopies copy registry health dead s m) f).map (·.placement)) :
    ∃ job, JobSpec dead (healthyServers registry health dead) f p.chunkId
      (recordsOf m f p.chunkId) job ∧ p.server = job.target ∧ p.checksum = job.checksum := by
  obtain ⟨r, hr, rfl⟩ := List.mem_map.mp h
  obtain ⟨d, hd, rfl⟩ := List.mem_map.mp hr
  obtain ⟨hd, hname⟩ := List.mem_filter.mp hd
  simp only [decide_eq_true_eq] at hname
  have hplan := (mem_plan.mp (mem_failoverCopies copy hd)).2.2
  rw [hname] at hplan
  exact ⟨d.1, jobOf_spec hplan, rfl, rfl⟩

variable (copy registry health dead) in
lemma nodup_addedTo (s : σ) (m : MetadataMap) (f : Bytes) :
    (((addedTo (failoverCopies copy registry health dead s m) f).map (·.placement)).map
      (·.chunkId)).Nodup := by
  rw [List.map_map]
  exact nodup_ids_addedTo copy (nodup_plan m dead (healthyServers registry health dead)) s f

/-- Distinct servers stay distinct: an added record stands on a server that did not host the
chunk. -/
lemma distinctServers_rereplicate {m : MetadataMap} (hm : DistinctServers m)
    (hhealthy : healthyServers registry health dead ≠ []) (s : σ) :
    DistinctServers (rereplicateDeadServerChunks copy registry health dead s m).2 := by
  intro f
  rw [placements_rereplicate copy hhealthy, List.map_append, List.nodup_append']
  refine ⟨(hm f).sublist (List.filter_sublist.map _), ?_, ?_⟩
  · -- the added slots differ already in their chunks
    have hchunks := nodup_addedTo copy registry health dead s m f
    rw [List.Nodup, List.pairwise_map] at hchunks ⊢
    exact hchunks.imp fun hne heq => hne (Prod.mk.inj heq).1
  · intro slot hold hnew
    obtain ⟨p, hp, rfl⟩ := List.mem_map.mp hold
    obtain ⟨q, hq, hslot⟩ := List.mem_map.mp hnew
    obtain ⟨job, hspec, hserver, -⟩ := mem_addedTo hq
    obtain ⟨hchunk, hsame⟩ := Prod.mk.inj hslot
    obtain ⟨r, hr, hrp⟩ := exists_recordsOf (List.mem_of_mem_filter hp)
    rw [hchunk] at hspec
    refine hspec.target_new r hr ?_
    calc r.server = p.server := by rw [← hrp]; rfl
      _ = q.server := hsame.symm
      _ = job.target := hserver

/-! ## Failover correctness -/

lemma getAddresses_ne_nil {registry : ServerRegistry} {t : Bytes}
    (h : t ∈ registry.getAddresses) : t ≠ [] := by
  obtain ⟨e, -, rfl⟩ := List.mem_map.mp h
  simp [ServerEntry.address, addressOf, ascii]

lemma healthyServers_ne_nil {t : Bytes} (h : t ∈ healthyServers registry health dead) :
    t ≠ [] := getAddresses_ne_nil (List.mem_of_mem_filter h)

/-- With distinct servers, a chunk with a record on a server has one only. -/
lemma countP_slot {ps : List Placement} (hps : (ps.map (·.slot)).Nodup) {p : Placement}
    (hp : p ∈ ps) : (ps.filter (·.server = p.server)).countP (·.chunkId = p.chunkId) = 1 := by
  have hcount : (ps.map (·.slot)).count p.slot = 1 :=
    List.count_eq_one_of_mem hps (List.mem_map_of_mem hp)
  rw [List.count_eq_countP, List.countP_map] at hcount
  rw [List.countP_filter, ← hcount]
  refine List.countP_congr fun q _ => ?_
  simp [Placement.slot, Prod.ext_iff]

/-- Without the server the chunk has one record less. -/
lemma countP_without_server {ps : List Placement} (hps : (ps.map (·.slot)).Nodup) {p : Placement}
    (hp : p ∈ ps) : (ps.filter (·.server ≠ p.server)).countP (·.chunkId = p.chunkId) + 1 =
      ps.countP (·.chunkId = p.chunkId) := by
  have hsplit := List.countP_eq_countP_filter_add ps
    (fun q => decide (q.chunkId = p.chunkId)) (fun q => decide (q.server = p.server))
  have hrest : ps.filter (fun q => decide (q.server ≠ p.server)) =
      ps.filter (fun q => !decide (q.server = p.server)) :=
    List.filter_congr fun q _ => by simp
  rw [hrest, hsplit, countP_slot hps hp, Nat.add_comm]

/-- A chunk that a record is added to has one added record. -/
lemma countP_addedTo {s : σ} {m : MetadataMap} {f : Bytes} {p : Placement}
    (h : p ∈ (addedTo (failoverCopies copy registry health dead s m) f).map (·.placement)) :
    ((addedTo (failoverCopies copy registry health dead s m) f).map (·.placement)).countP
      (·.chunkId = p.chunkId) = 1 := by
  have hcount := List.count_eq_one_of_mem (nodup_addedTo copy registry health dead s m f)
    (List.mem_map_of_mem h)
  rw [List.count_eq_countP, List.countP_map] at hcount
  rw [← hcount]
  exact List.countP_congr fun q _ => by simp

/-- A chunk that was on the dead server, survives elsewhere and fits on a healthy server is
copied, if copies succeed. -/
lemma exists_added (hcopy : ∀ s job, (copy s job).2.isSome) {m : MetadataMap} (hwf : m.WellFormed)
    {f : Bytes} {c : Int} (hdead : ∃ p ∈ m.placementsOf f, p.chunkId = c ∧ p.server = dead)
    (hother : ∃ p ∈ m.placementsOf f, p.chunkId = c ∧ p.server ≠ dead)
    (hroom : ∃ t ∈ healthyServers registry health dead,
      ∀ p ∈ m.placementsOf f, p.chunkId = c → p.server ≠ t) (s : σ) :
    ∃ q ∈ (addedTo (failoverCopies copy registry health dead s m) f).map (·.placement),
      q.chunkId = c := by
  obtain ⟨p, hp, rfl, hpd⟩ := hdead
  obtain ⟨q, hq, hqc, hqd⟩ := hother
  obtain ⟨t, ht, hnew⟩ := hroom
  obtain ⟨r, hr, hrp⟩ := exists_recordsOf hp
  obtain ⟨r', hr', hrq⟩ := exists_recordsOf hq
  rw [hqc] at hr'
  have hserver : r.server = p.server := by rw [← hrp]; rfl
  have hserver' : r'.server = q.server := by rw [← hrq]; rfl
  have hjob : (jobOf dead (healthyServers registry health dead) f p.chunkId
      (recordsOf m f p.chunkId)).isSome := by
    refine jobOf_isSome ⟨r, hr, hserver.trans hpd⟩ ⟨r', hr', ?_, ?_⟩ ⟨t, ht, ?_⟩
      fun t ht => healthyServers_ne_nil ht
    · rw [hserver']; exact hqd
    · rw [hserver']; exact hwf.servers f q hq
    · intro x hx
      obtain ⟨hmem, hchunk⟩ := mem_recordsOf_placement hx
      exact hnew x.placement hmem hchunk
  obtain ⟨job, hjob⟩ := Option.isSome_iff_exists.mp hjob
  have hspec := jobOf_spec hjob
  -- the file is listed, for it has a record
  have hlisted : (m[f]?).isSome := by
    cases hf : m[f]? with
    | none => simp [placementsOf, hf] at hp
    | some rec => rfl
  have hplan : job ∈ plan m dead (healthyServers registry health dead) := by
    rw [mem_plan, hspec.filename, hspec.chunkId]
    exact ⟨hlisted, hwf.names f hlisted, hjob⟩
  rw [← copies_all copy hcopy (plan m dead (healthyServers registry health dead)) s] at hplan
  obtain ⟨d, hd, hdj⟩ := List.mem_map.mp hplan
  refine ⟨(d.1.record d.2).placement, List.mem_map_of_mem (List.mem_map.mpr ⟨d, ?_, rfl⟩), ?_⟩
  · exact List.mem_filter.mpr ⟨hd, by simpa [hdj] using hspec.filename⟩
  · rw [hdj]
    exact hspec.chunkId

/-- **Failover correctness.**  With a healthy server available and copies that succeed: no record
names the dead server any more; every other record is still there; no server holds a chunk twice;
and every chunk that had a record on the dead server, one elsewhere, and a healthy server that
does not host it, has as many records as before, its new record standing on a healthy server. -/
theorem failover_correct (hcopy : ∀ s job, (copy s job).2.isSome) {m : MetadataMap}
    (hwf : m.WellFormed) (hdistinct : DistinctServers m)
    (hhealthy : healthyServers registry health dead ≠ []) (s : σ) :
    let m' := (rereplicateDeadServerChunks copy registry health dead s m).2
    (∀ f, ∀ p ∈ m'.placementsOf f, p.server ≠ dead) ∧
    (∀ f, ∀ p ∈ m.placementsOf f, p.server ≠ dead → p ∈ m'.placementsOf f) ∧
    DistinctServers m' ∧
    ∀ f c, (∃ p ∈ m.placementsOf f, p.chunkId = c ∧ p.server = dead) →
      (∃ p ∈ m.placementsOf f, p.chunkId = c ∧ p.server ≠ dead) →
      (∃ t ∈ healthyServers registry health dead,
        ∀ p ∈ m.placementsOf f, p.chunkId = c → p.server ≠ t) →
      (m'.placementsOf f).countP (·.chunkId = c) = (m.placementsOf f).countP (·.chunkId = c) ∧
      ∃ q ∈ m'.placementsOf f, q.chunkId = c ∧ q.server ∈ healthyServers registry health dead ∧
        q ∉ m.placementsOf f ∧
        ∀ p ∈ m'.placementsOf f, p.chunkId = c → p = q ∨ p ∈ m.placementsOf f := by
  intro m'
  have hm' : ∀ f, m'.placementsOf f = (m.placementsOf f).filter (·.server ≠ dead) ++
      (addedTo (failoverCopies copy registry health dead s m) f).map (·.placement) :=
    placements_rereplicate copy hhealthy s m
  refine ⟨?_, ?_, distinctServers_rereplicate hdistinct hhealthy s, ?_⟩
  · intro f p hp
    rw [hm'] at hp
    rcases List.mem_append.mp hp with hp | hp
    · simpa using (List.mem_filter.mp hp).2
    · obtain ⟨job, hspec, hserver, -⟩ := mem_addedTo hp
      rw [hserver]
      exact healthyServers_ne_dead hspec.target_healthy
  · intro f p hp hne
    rw [hm']
    exact List.mem_append_left _ (List.mem_filter.mpr ⟨hp, by simpa using hne⟩)
  · intro f c hdead hother hroom
    obtain ⟨q, hq, hqc⟩ := exists_added hcopy hwf hdead hother hroom s
    obtain ⟨job, hspec, hserver, -⟩ := mem_addedTo hq
    constructor
    · -- one record of the chunk went with the dead server, and one was added
      obtain ⟨p, hp, hpc, hpd⟩ := hdead
      have hone := countP_addedTo hq
      have hgone := countP_without_server (hdistinct f) hp
      rw [hqc] at hone
      rw [hpc, hpd] at hgone
      rw [hm', List.countP_append, hone, hgone]
    · refine ⟨q, ?_, hqc, hserver ▸ hspec.target_healthy, ?_, ?_⟩
      · rw [hm']
        exact List.mem_append_right _ hq
      · -- the target did not host the chunk
        intro hold
        obtain ⟨r, hr, hrq⟩ := exists_recordsOf hold
        refine hspec.target_new r hr ?_
        rw [← hserver, ← hrq]
        rfl
      · intro p hp hpc
        rw [hm'] at hp
        rcases List.mem_append.mp hp with hp | hp
        · exact Or.inr (List.mem_of_mem_filter hp)
        · left
          have hinj := List.inj_on_of_nodup_map (nodup_addedTo copy registry health dead s m f)
          exact hinj hp hq (hpc.trans hqc.symm)

end

/-! ### A small grid -/

/-- Three servers; nothing is known of their health. -/
def threeServers : ServerRegistry :=
  let r₁ := (ServerRegistry.addServer {} (ascii "10.0.0.1") 8080 8180 8280).2
  let r₂ := (r₁.addServer (ascii "10.0.0.2") 8080 8180 8280).2
  (r₂.addServer (ascii "10.0.0.3") 8080 8180 8280).2

def serverOne : Bytes := ascii "10.0.0.1:8080"

def serverTwo : Bytes := ascii "10.0.0.2:8080"

def serverThree : Bytes := ascii "10.0.0.3:8080"

/-- A file `f` of one chunk, with the given replicas. -/
def oneChunkFile (servers : List Bytes) : MetadataMap :=
  (∅ : MetadataMap).replaceFileChunks (ascii "f") (ascii "h")
    (servers.map fun srv =>
      { chunkId := 0, server := srv, path := ascii "/p", checksum := ascii "s" })

/-- Copies that all succeed. -/
def copySucceeds (s : Unit) (_ : Job) : Unit × Option Bytes := (s, some (ascii "/q"))

lemma wellFormed_oneChunkFile {servers : List Bytes} (h : ∀ srv ∈ servers, srv ≠ []) :
    (oneChunkFile servers).WellFormed := by
  refine wellFormed_empty.replaceFileChunks (by decide) ?_
  intro r hr
  obtain ⟨srv, hsrv, rfl⟩ := List.mem_map.mp hr
  exact h srv hsrv

lemma distinctServers_oneChunkFile {servers : List Bytes} (h : servers.Nodup) :
    DistinctServers (oneChunkFile servers) := by
  intro f
  rw [oneChunkFile, placements_replaceFileChunks]
  split_ifs
  · simp only [List.map_map]
    refine h.map fun a b hab => ?_
    exact (Prod.mk.inj hab).2
  · simp [placementsOf]

/-- Server 1 dies; its replica is made good on server 3, and every part of the theorem applies. -/
theorem failover_correct_instance :
    (∃ q ∈ (rereplicateDeadServerChunks copySucceeds threeServers {} serverOne ()
        (oneChunkFile [serverOne, serverTwo])).2.placementsOf (ascii "f"),
      q.chunkId = 0 ∧ q.server ∈ healthyServers threeServers {} serverOne) := by
  have h := @failover_correct Unit copySucceeds threeServers {} serverOne (fun _ _ => rfl)
    (oneChunkFile [serverOne, serverTwo]) (wellFormed_oneChunkFile (by decide))
    (distinctServers_oneChunkFile (by decide)) (by decide +kernel) ()
  obtain ⟨-, q, hq, hqc, hqs, -⟩ := h.2.2.2 (ascii "f") 0 (by decide +kernel) (by decide +kernel)
    (by decide +kernel)
  exact ⟨q, hq, hqc, hqs⟩

/-! ## Forgotten chunks -/

/-- The chunk ids recorded for a file. -/
def HasChunk (m : MetadataMap) (f : Bytes) (c : Int) : Prop :=
  ∃ p ∈ m.placementsOf f, p.chunkId = c

/-- **When a failover forgets no chunk**, whichever copies succeed: exactly when there is no healthy
server, and so nothing is touched, or every chunk recorded on the dead server is recorded on
another server as well. -/
theorem failover_keeps_chunks_iff {σ : Type} (copy : σ → Job → σ × Option Bytes)
    (registry : ServerRegistry) (health : HealthMonitor) (dead : Bytes) (s : σ)
    (m : MetadataMap) :
    (∀ f c, HasChunk (rereplicateDeadServerChunks copy registry health dead s m).2 f c ↔
        HasChunk m f c) ↔
      healthyServers registry health dead = [] ∨
        ∀ f, ∀ p ∈ m.placementsOf f, p.server = dead →
          ∃ q ∈ m.placementsOf f, q.chunkId = p.chunkId ∧ q.server ≠ dead := by
  by_cases hhealthy : healthyServers registry health dead = []
  · simp only [hhealthy, true_or, HasChunk,
      rereplicate_of_no_healthy copy hhealthy s m, implies_true]
  · simp only [hhealthy, false_or, HasChunk, placements_rereplicate copy hhealthy s m]
    constructor
    · intro h f p hp _
      -- the chunk is still recorded: by a record that stayed, or by one that was added
      obtain ⟨q, hq, hqc⟩ := (h f p.chunkId).mpr ⟨p, hp, rfl⟩
      rcases List.mem_append.mp hq with hq | hq
      · obtain ⟨hq, hqd⟩ := List.mem_filter.mp hq
        exact ⟨q, hq, hqc, by simpa using hqd⟩
      · obtain ⟨job, hspec, -, -⟩ := mem_addedTo hq
        obtain ⟨r, hr, -⟩ := hspec.source
        have hmem := List.mem_of_find?_eq_some hr
        have hne := List.find?_some hr
        simp only [Bool.decide_and, Bool.and_eq_true, decide_eq_true_eq] at hne
        obtain ⟨hold, hchunk⟩ := mem_recordsOf_placement hmem
        exact ⟨r.placement, hold, hchunk.trans hqc, hne.1⟩
    · intro h f c
      constructor
      · rintro ⟨q, hq, rfl⟩
        rcases List.mem_append.mp hq with hq | hq
        · exact ⟨q, List.mem_of_mem_filter hq, rfl⟩
        · obtain ⟨job, hspec, -, -⟩ := mem_addedTo hq
          obtain ⟨r, hr, -⟩ := hspec.dead_record
          obtain ⟨hold, hchunk⟩ := mem_recordsOf_placement hr
          exact ⟨r.placement, hold, hchunk⟩
      · rintro ⟨p, hp, rfl⟩
        by_cases hpd : p.server = dead
        · obtain ⟨q, hq, hqc, hqd⟩ := h f p hp hpd
          exact ⟨q, List.mem_append_left _ (List.mem_filter.mpr ⟨hq, by simpa using hqd⟩), hqc⟩
        · exact ⟨p, List.mem_append_left _ (List.mem_filter.mpr ⟨hp, by simpa using hpd⟩), rfl⟩

/-- **A chunk is forgotten**: the only replica is on the dead server, two healthy servers are
there, and the metadata has no record of the chunk afterwards. -/
theorem failover_forgets_chunk :
    (∃ p ∈ (oneChunkFile [serverOne]).placementsOf (ascii "f"), p.chunkId = 0) ∧
      (rereplicateDeadServerChunks copySucceeds threeServers {} serverOne ()
        (oneChunkFile [serverOne])).2.placementsOf (ascii "f") = [] := by
  decide +kernel

end FileGrid
