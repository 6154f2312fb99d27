import FileGrid.Failover.Concurrent
import FileGrid.Head.UploadThread

/-!
# Failovers among uploads

The threads of the head that write the metadata: one for each upload in progress and one for each
server that is being failed over.  `threadStep` takes a step of one of them.  All that a step can do
is in three lemmas, and the invariants are derived from these alone:

* `mem_store_threadStep`: a record that is new was made by a failover in flight, or is one of the
  upload that commits;
* `threads_threadStep`, `uploads_threadStep`: where a thread that is there comes from.

A commit does not ask which servers have been failed over in the meantime.  So an upload that
stored a replica on a server before it died, and commits after the server was purged, brings the
server back into the metadata (`purged_server_returns`).

**`purged_server_stays_purged`**: if nothing that is in flight at the purge has a replica on the
server, and none arrives there afterwards, no file is ever recorded there again.
-/

namespace FileGrid

open MetadataMap

/-! ## The system -/

/-- The store, the failovers in flight and the uploads in progress. -/
structure ThreadSystem where
  store : MetadataMap
  threads : Map Bytes Phase
  uploads : Map Nat UploadThread

inductive ThreadEvent
  | failover (ev : FailoverEvent)
  | upload (ev : UploadEvent)

/-- One step of one thread. -/
def threadStep (s : ThreadSystem) : ThreadEvent → ThreadSystem
  | .failover ev =>
      let t := failoverStep ⟨s.store, s.threads⟩ ev
      { s with store := t.store, threads := t.threads }
  | .upload ev =>
      let t := uploadStep ⟨s.store, s.uploads⟩ ev
      { s with store := t.store, uploads := t.uploads }

/-! ## What a failover has made -/

/-- The records a failover has made so far, with their files. -/
def Phase.added : Phase → List (Bytes × ChunkRecord)
  | .scanning _ _ updates => updateRecords updates
  | .copying _ _ _ _ updates => updateRecords updates
  | .replacing updates => updateRecords updates
  | _ => []

/-- The copy the next step of a failover makes. -/
def Phase.nextJob (dead : Bytes) : Phase → Option Job
  | .copying healthy _ f (p :: _) _ => jobOf dead healthy f p.1 p.2
  | _ => none

lemma mem_store_advancePhase {m : MetadataMap} {dead : Bytes} {env : FailoverEnv} {ph : Phase}
    {f : Bytes} {p : Placement} (h : p ∈ (advancePhase m dead env ph).1.placementsOf f) :
    p ∈ m.placementsOf f ∨ ∃ r, (f, r) ∈ ph.added ∧ p = r.placement := by
  rcases mem_advancePhase h with h | ⟨us, rfl, hadded⟩
  · exact Or.inl h
  · exact Or.inr hadded

lemma mem_updateRecords_insert {us : Map Bytes (List ChunkRecord)} {f g : Bytes}
    {r new : ChunkRecord} (h : (f, r) ∈ updateRecords (us.insert g ((us[g]?).getD [] ++ [new]))) :
    (f, r) ∈ updateRecords us ∨ f = g ∧ r = new := by
  obtain ⟨rs, hrs, hr⟩ := mem_updateRecords.mp h
  rw [Map.get_insert] at hrs
  split_ifs at hrs with hf
  · cases hrs
    rcases List.mem_append.mp hr with hr | hr
    · left
      cases hold : us[g]? with
      | none => simp [hold] at hr
      | some old =>
          rw [hold] at hr
          exact mem_updateRecords.mpr ⟨old, hf ▸ hold, hr⟩
    · exact Or.inr ⟨hf, List.mem_singleton.mp hr⟩
  · exact Or.inl (mem_updateRecords.mpr ⟨rs, hrs, hr⟩)

/-- **A failover makes a record by a copy that succeeds**, and in no other way. -/
theorem mem_added_advancePhase {m : MetadataMap} {dead : Bytes} {env : FailoverEnv} {ph ph' : Phase}
    (hnext : (advancePhase m dead env ph).2 = some ph') {f : Bytes} {r : ChunkRecord}
    (h : (f, r) ∈ ph'.added) :
    (f, r) ∈ ph.added ∨ ∃ job path, ph.nextJob dead = some job ∧ env.copied = some path ∧
      f = job.filename ∧ r = job.record path := by
  cases phaseStep_of_advancePhase hnext with
  | noFiles => simp [Phase.added] at h
  | listFiles => simp [Phase.added] at h
  | readHealth =>
      obtain ⟨rs, hrs, -⟩ := mem_updateRecords.mp h
      simp at hrs
  | noUpdates => simp [Phase.added] at h
  | allScanned => exact Or.inl h
  | readFile => exact Or.inl h
  | fileDone => exact Or.inl h
  | noCopy => exact Or.inl h
  | copied hjob hcopied =>
      rcases mem_updateRecords_insert h with h | ⟨hf, hr⟩
      · exact Or.inl h
      · exact Or.inr ⟨_, _, hjob, hcopied, hf.trans (jobOf_spec hjob).filename.symm, hr⟩
  | replaced => simp [Phase.added] at h

/-! ## What a step can do -/

section

variable {s : ThreadSystem} {ev : ThreadEvent}

/-- **Where a record comes from.** -/
theorem mem_store_threadStep {f : Bytes} {p : Placement}
    (h : p ∈ (threadStep s ev).store.placementsOf f) :
    p ∈ s.store.placementsOf f ∨
      (∃ (dead : Bytes) (ph : Phase), s.threads[dead]? = some ph ∧
        ∃ r, (f, r) ∈ ph.added ∧ p = r.placement) ∨
      ∃ (u : Nat) (n : Int) (th : UploadThread), ev = .upload (.commit u n) ∧
        s.uploads[u]? = some th ∧ th.request.filename = f ∧
          ∃ c ∈ th.chunks, ∃ r ∈ readBack c, p = r.placement := by
  cases ev with
  | failover ev =>
      cases ev with
      | unhealthy dead =>
          simp only [threadStep, failoverStep] at h
          split at h <;> exact Or.inl h
      | rejected dead =>
          simp only [threadStep, failoverStep] at h
          split at h <;> exact Or.inl h
      | advance dead env =>
          cases hph : s.threads[dead]? with
          | none =>
              simp only [threadStep, failoverStep, hph] at h
              exact Or.inl h
          | some ph =>
              have hadv : p ∈ (advancePhase s.store dead env ph).1.placementsOf f := by
                simp only [threadStep, failoverStep, hph] at h
                split at h <;> rename_i heq <;> rw [heq] <;> exact h
              rcases mem_store_advancePhase hadv with h | h
              · exact Or.inl h
              · exact Or.inr (Or.inl ⟨dead, ph, hph, h⟩)
  | upload ev =>
      rcases mem_store_uploadStep h with h | ⟨u, n, th, rfl, hcommit⟩
      · exact Or.inl h
      · exact Or.inr (Or.inr ⟨u, n, th, rfl, hcommit⟩)

/-- **Where a failover comes from.** -/
theorem threads_threadStep {dead : Bytes} {ph' : Phase}
    (h : (threadStep s ev).threads[dead]? = some ph') :
    s.threads[dead]? = some ph' ∨ ph' = .start ∨
      ∃ env ph, ev = .failover (.advance dead env) ∧ s.threads[dead]? = some ph ∧
        (advancePhase s.store dead env ph).2 = some ph' := by
  cases ev with
  | upload ev => exact Or.inl h
  | failover ev =>
      cases ev with
      | unhealthy d =>
          simp only [threadStep, failoverStep] at h
          split at h
          · exact Or.inl h
          · simp only [Map.get_insert] at h
            split_ifs at h
            · exact Or.inr (Or.inl (Option.some.inj h).symm)
            · exact Or.inl h
      | rejected d =>
          simp only [threadStep, failoverStep] at h
          split at h
          · simp only [Map.get_erase] at h
            split_ifs at h
            exact Or.inl h
          · exact Or.inl h
      | advance d env =>
          cases hph : s.threads[d]? with
          | none =>
              simp only [threadStep, failoverStep, hph] at h
              exact Or.inl h
          | some ph =>
              simp only [threadStep, failoverStep, hph] at h
              split at h
              · rename_i store next hadv
                simp only [Map.get_insert] at h
                split_ifs at h with hd
                · subst hd
                  exact Or.inr (Or.inr ⟨env, ph, rfl, hph, by rw [hadv]; exact h⟩)
                · exact Or.inl h
              · simp only [Map.get_erase] at h
                split_ifs at h
                exact Or.inl h

/-- **Where an upload comes from.** -/
theorem uploads_threadStep {u : Nat} {th' : UploadThread}
    (h : (threadStep s ev).uploads[u]? = some th') :
    s.uploads[u]? = some th' ∨ th'.pending = [] ∨
      ∃ th, s.uploads[u]? = some th ∧
        ((∃ env, ev = .upload (.submit u env) ∧ th' = th.submitChunkTransfers env) ∨
          ∃ i outcome, ev = .upload (.transferred u i outcome) ∧
            th' = th.transferred i outcome) := by
  cases ev with
  | failover ev => exact Or.inl h
  | upload ev =>
      rcases uploads_uploadStep h with h | ⟨chunkSize, initialReq, stream, -, hready⟩ |
        ⟨th, hth, ⟨env, rfl, rfl⟩ | ⟨i, outcome, rfl, rfl⟩⟩
      · exact Or.inl h
      · exact Or.inr (Or.inl (UploadThread.pending_ready hready))
      · exact Or.inr (Or.inr ⟨th, hth, Or.inl ⟨env, rfl, rfl⟩⟩)
      · exact Or.inr (Or.inr ⟨th, hth, Or.inr ⟨i, outcome, rfl, rfl⟩⟩)

end

/-! ## A purged server -/

/-- The transfer, if it succeeds with this path, is recorded on its server and not on `d`: the
server is another one, and its line is one line that begins with the server's name. -/
def PendingTransfer.Avoids (d : Bytes) (p : PendingTransfer) (path : Bytes) : Prop :=
  p.server ≠ d ∧ Word p.server ∧ (10 : UInt8) ∉ path

instance (d : Bytes) (p : PendingTransfer) (path : Bytes) : Decidable (p.Avoids d path) :=
  inferInstanceAs (Decidable (_ ∧ _ ∧ _))

/-- Nothing that is in flight has a replica on `d`: no failover has made a record there, and no
transfer there has succeeded. -/
def Clear (d : Bytes) (s : ThreadSystem) : Prop :=
  (∀ t ∈ s.threads.toList, ∀ a ∈ t.2.added, a.2.server ≠ d) ∧
    ∀ t ∈ s.uploads.toList, ∀ p ∈ t.2.pending, ∀ path ∈ p.result.join, p.Avoids d path

instance (d : Bytes) (s : ThreadSystem) : Decidable (Clear d s) :=
  inferInstanceAs (Decidable (_ ∧ _))

/-- The guard: no copy and no transfer to `d` succeeds in this step. -/
def NoArrival (d : Bytes) (s : ThreadSystem) : ThreadEvent → Prop
  | .failover (.advance dead env) =>
      ∀ ph ∈ s.threads[dead]?, ∀ job ∈ ph.nextJob dead, env.copied.isSome = true → job.target ≠ d
  | .upload (.transferred u i (some path)) =>
      ∀ th ∈ s.uploads[u]?, ∀ p ∈ th.pending[i]?, p.result = none → p.Avoids d path
  | _ => True

instance : ∀ (d : Bytes) (s : ThreadSystem) (ev : ThreadEvent), Decidable (NoArrival d s ev)
  | d, s, .failover (.advance dead env) =>
      inferInstanceAs (Decidable (∀ ph ∈ s.threads[dead]?, ∀ job ∈ ph.nextJob dead,
        env.copied.isSome = true → job.target ≠ d))
  | d, s, .upload (.transferred u i (some path)) =>
      inferInstanceAs (Decidable (∀ th ∈ s.uploads[u]?, ∀ p ∈ th.pending[i]?,
        p.result = none → p.Avoids d path))
  | _, _, .failover (.unhealthy _) => isTrue trivial
  | _, _, .failover (.rejected _) => isTrue trivial
  | _, _, .upload (.ready _ _ _ _) => isTrue trivial
  | _, _, .upload (.submit _ _) => isTrue trivial
  | _, _, .upload (.transferred _ _ none) => isTrue trivial
  | _, _, .upload (.commit _ _) => isTrue trivial

/-- Nothing is recorded on `d`, and nothing that is in flight has a replica there. -/
structure Purged (d : Bytes) (s : ThreadSystem) : Prop where
  store : ∀ f, ∀ p ∈ s.store.placementsOf f, p.server ≠ d
  clear : Clear d s

/-- What an upload commits for its transfers is on servers it stored replicas on. -/
lemma UploadThread.avoids_of_commit {d : Bytes} {th : UploadThread}
    (h : ∀ p ∈ th.pending, ∀ path ∈ p.result.join, p.Avoids d path) {c : ChunkInfo}
    (hc : c ∈ th.chunks) {r : ChunkRecord} (hr : r ∈ readBack c) : r.server ≠ d := by
  obtain ⟨p, hp, path, hresult, hplace⟩ := UploadThread.mem_chunks hc
  obtain ⟨hne, hword, hpath⟩ := h p hp path (by rw [hresult]; rfl)
  have hid : c.chunkId = p.chunk.chunkId := congrArg Placement.chunkId hplace
  have hserver : c.serverIp = p.server := congrArg Placement.server hplace
  have hrecorded : c.filePath = p.transfer.recordedPath th.request.filename path :=
    congrArg Placement.path hplace
  have hsum : c.checksum = p.chunk.checksum := congrArg Placement.checksum hplace
  have hlo := p.chunk.id_lo
  have hhi := p.chunk.id_hi
  have hback : r.server = c.serverIp := by
    refine server_of_mem_readBack (by omega) (by omega) (hserver ▸ hword) ?_ ?_ hr
    · rw [hrecorded]
      exact p.transfer.newline_not_mem_recordedPath hword th.name hpath
    · rw [hsum, p.chunk.sum]
      exact word_sha256 _
  rw [hback, hserver]
  exact hne

/-- **One step keeps a server purged**, if nothing arrives there. -/
theorem purged_threadStep {d : Bytes} {s : ThreadSystem} {ev : ThreadEvent} (hs : Purged d s)
    (hguard : NoArrival d s ev) : Purged d (threadStep s ev) := by
  obtain ⟨hstore, hthreads, huploads⟩ := hs
  refine ⟨fun f p hp => ?_, ?_, ?_⟩
  · rcases mem_store_threadStep hp with hp | ⟨dead, ph, hph, r, hr, rfl⟩ |
      ⟨u, n, th, rfl, hth, -, c, hc, r, hr, rfl⟩
    · exact hstore f p hp
    · exact hthreads (dead, ph) (Map.mem_toList.mpr hph) (f, r) hr
    · exact UploadThread.avoids_of_commit (huploads (u, th) (Map.mem_toList.mpr hth)) hc hr
  · rintro ⟨dead, ph'⟩ hph' ⟨f, r⟩ hr
    rcases threads_threadStep (Map.mem_toList.mp hph') with hph | rfl | ⟨env, ph, rfl, hph, hnext⟩
    · exact hthreads (dead, ph') (Map.mem_toList.mpr hph) (f, r) hr
    · simp [Phase.added] at hr
    · rcases mem_added_advancePhase hnext hr with hr | ⟨job, path, hjob, hcopied, -, rfl⟩
      · exact hthreads (dead, ph) (Map.mem_toList.mpr hph) (f, r) hr
      · exact hguard ph hph job hjob (by rw [hcopied]; rfl)
  · rintro ⟨u, th'⟩ hth' p hp path hpath
    rcases uploads_threadStep (Map.mem_toList.mp hth') with hth | hnil |
      ⟨th, hth, ⟨env, rfl, rfl⟩ | ⟨i, outcome, rfl, rfl⟩⟩
    · exact huploads (u, th') (Map.mem_toList.mpr hth) p hp path hpath
    · rw [hnil] at hp
      simp at hp
    · rcases UploadThread.mem_pending_submit hp with hp | ⟨-, hnone, -⟩
      · exact huploads (u, th) (Map.mem_toList.mpr hth) p hp path hpath
      · rw [hnone] at hpath
        cases hpath
    · rcases UploadThread.mem_pending_transferred hp with hp | ⟨q, hq, hnone, rfl⟩
      · exact huploads (u, th) (Map.mem_toList.mpr hth) p hp path hpath
      · obtain rfl : outcome = some path := hpath
        exact hguard th hth q hq hnone

/-- The purge empties the store of the server, and the thread is gone. -/
lemma purged_of_purge {d : Bytes} {s : ThreadSystem} (hpurge : s.threads[d]? = some .deleting)
    (hclear : Clear d s) (env : FailoverEnv) :
    Purged d (threadStep s (.failover (.advance d env))) := by
  have hstep : threadStep s (.failover (.advance d env)) =
      { s with store := s.store.deleteServerMetadata d, threads := s.threads.erase d } := by
    simp only [threadStep, failoverStep, hpurge, advancePhase]
  rw [hstep]
  refine ⟨fun f p hp => ?_, ?_, hclear.2⟩
  · rw [placements_deleteServerMetadata] at hp
    simpa using (List.mem_filter.mp hp).2
  · rintro ⟨dead, ph⟩ hph
    have hget := Map.mem_toList.mp hph
    rw [Map.get_erase] at hget
    split_ifs at hget
    exact hclear.1 (dead, ph) (Map.mem_toList.mpr hget)

/-- **A purged server stays purged.**  Once its failover has purged the server, and if nothing in
flight at that moment has a replica there, then along every interleaving of uploads and failovers in
which no copy and no transfer to it succeeds, no file is recorded on it. -/
theorem purged_server_stays_purged {d : Bytes} {s : ThreadSystem}
    (hpurge : s.threads[d]? = some .deleting) (hclear : Clear d s) (env : FailoverEnv)
    {evs : List ThreadEvent}
    (hrun : AlongRun threadStep (NoArrival d) (threadStep s (.failover (.advance d env))) evs) :
    ∀ f, ∀ p ∈ (evs.foldl threadStep
      (threadStep s (.failover (.advance d env)))).store.placementsOf f, p.server ≠ d :=
  (foldl_invariant (Purged d) (fun _ _ => purged_threadStep) (purged_of_purge hpurge hclear env)
    hrun).store

/-! ### A purge while an upload is in progress -/

def oneByteRequest : Bytes :=
  ascii "UPLOAD f 1 1 559aead08264d5795d3909718cdd05abd49572e84fe55590eef31a88a08fdffd"

def oneByteStream : Bytes :=
  ascii "CHUNK 0 1 559aead08264d5795d3909718cdd05abd49572e84fe55590eef31a88a08fdffd\nA"

/-- An upload to the registered servers, whose first transfers end like this; then the failover of
server 1, in a store without files, up to its purge. -/
def upToPurge (registry : ServerRegistry) (outcomes : List (Option Bytes)) : List ThreadEvent :=
  [.upload (.ready 0 1 oneByteRequest oneByteStream), .upload (.submit 0 { registry })]
    ++ outcomes.zipIdx.map (fun o => .upload (.transferred 0 o.2 o.1))
    ++ [.failover (.unhealthy serverOne), .failover (.advance serverOne copyingEnv)]

/-- The transfer to server 1 fails, the one to server 2 succeeds before the purge and the one to
server 3 after it; then the upload commits. -/
def afterPurge : List ThreadEvent :=
  [.upload (.transferred 0 2 (some (ascii "/c/0.dat"))), .upload (.commit 0 3)]

set_option maxRecDepth 100000 in
theorem purged_server_stays_purged_instance :
    let s := (upToPurge threeServers [none, some (ascii "/c/0.dat")]).foldl threadStep ⟨∅, ∅, ∅⟩
    let purged := threadStep s (.failover (.advance serverOne copyingEnv))
    serverOne ∉ ((afterPurge.foldl threadStep purged).store.placementsOf (ascii "f")).map
      (·.server) := by
  intro s purged
  have hconditions : s.threads[serverOne]? = some .deleting ∧ Clear serverOne s ∧
      AlongRun threadStep (NoArrival serverOne) purged afterPurge := by decide +kernel
  obtain ⟨hpurge, hclear, hrun⟩ := hconditions
  intro hmem
  obtain ⟨p, hp, hserver⟩ := List.mem_map.mp hmem
  exact purged_server_stays_purged hpurge hclear copyingEnv hrun (ascii "f") p hp hserver

set_option maxRecDepth 100000 in
/-- **A purged server returns**: the upload stores its chunk on server 1, the server dies and is
purged, and then the upload commits. -/
theorem purged_server_returns :
    let s := (upToPurge threeServers [some (ascii "/c/0.dat"), none, none]).foldl threadStep
      ⟨∅, ∅, ∅⟩
    let purged := threadStep s (.failover (.advance serverOne copyingEnv))
    s.threads[serverOne]? = some .deleting ∧
      (threadStep purged (.upload (.commit 0 3))).store.placementsOf (ascii "f") =
        [{ chunkId := 0, server := serverOne, path := ascii "/c/0.dat"
           checksum := sha256 [65] }] := by
  decide +kernel

end FileGrid
