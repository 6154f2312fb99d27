import FileGrid.Core.Runs
import FileGrid.Head.Upload

/-!
# Uploads in steps

`handleClientUpload` takes an upload from its request line to its answer.  In the head every client
has a thread of its own, and between two accesses to what the threads share anything may happen.
`uploadStep` takes one step of one thread: the request is accepted (`READY`), the next chunk is
handed to the servers selected at that moment (`submit_chunk_transfers`), one transfer of the pool
comes to its end, and, when all of them have, the handler commits (`collect_transfers`,
`store_metadata`).

* A thread carries what the parser and the receiving loop have established, in its fields: its
  names are words, and its chunks have identifiers that are `int`s and their SHA-256.
* A thread whose client broke off never commits, and its transfers go on.
* `commit_cases` says all that the last step of a thread can do.
* **`uploadThread_refines`**: a thread does what `handleClientUpload` does, whatever other threads
  do in between.
-/

namespace FileGrid

/-! ## Threads -/

/-- A chunk that arrived intact, with what the receiving loop has checked of it. -/
structure IntactChunk extends ReceivedChunk where
  id_lo : -2 ^ 31 ≤ chunkId
  id_hi : chunkId ≤ 2 ^ 31 - 1
  sum : checksum = sha256 data

/-- `PendingTransfer`, with its future: no outcome yet, or the outcome of the transfer. -/
structure PendingTransfer where
  chunk : IntactChunk
  server : Bytes
  result : Option (Option Bytes) := none

def PendingTransfer.transfer (p : PendingTransfer) : Transfer :=
  { chunkId := p.chunk.chunkId, server := p.server, data := p.chunk.data
    checksum := p.chunk.checksum }

/-- The thread of an upload after its `READY`: what the client is still going to send and how the
receiving loop will end, and what has been received and handed over. -/
structure UploadThread where
  request : UploadRequest
  name : Word request.filename
  hash : Word request.fileHash
  incoming : List IntactChunk
  ended : Option UploadEnd
  received : List IntactChunk := []
  pending : List PendingTransfer := []

/-- The chunks that arrive intact. -/
def UploadRequest.intact (r : UploadRequest) (stream : Bytes) : List IntactChunk :=
  (r.received stream).1.attach.map fun c =>
    { c.1 with
      id_lo := (UploadRequest.received_spec c.2).1
      id_hi := (UploadRequest.received_spec c.2).2.1
      sum := (UploadRequest.received_spec c.2).2.2 }

lemma UploadRequest.intact_map (r : UploadRequest) (stream : Bytes) :
    (r.intact stream).map (·.toReceivedChunk) = (r.received stream).1 := by
  rw [UploadRequest.intact, List.map_map]
  exact List.attach_map_subtype_val _

namespace UploadThread

/-- The request line is accepted, or there is no upload. -/
def ready (chunkSize : Nat) (initialReq stream : Bytes) : Option UploadThread :=
  match h : parseUploadRequest chunkSize initialReq with
  | .error _ => none
  | .ok r =>
      some
        { request := r
          name := (parseUploadRequest_words h).1
          hash := (parseUploadRequest_words h).2
          incoming := r.intact stream
          ended := (r.received stream).2 }

lemma ready_of_error {chunkSize : Nat} {initialReq : Bytes} {ended : UploadEnd}
    (h : parseUploadRequest chunkSize initialReq = .error ended) (stream : Bytes) :
    ready chunkSize initialReq stream = none := by
  unfold ready
  split
  · rfl
  · rename_i r hr
    rw [h] at hr
    cases hr

lemma ready_of_ok {chunkSize : Nat} {initialReq : Bytes} {r : UploadRequest}
    (h : parseUploadRequest chunkSize initialReq = .ok r) (stream : Bytes) :
    ∃ th, ready chunkSize initialReq stream = some th ∧ th.request = r ∧
      th.incoming = r.intact stream ∧ th.ended = (r.received stream).2 ∧ th.received = [] ∧
      th.pending = [] := by
  unfold ready
  split
  · rename_i ended hended
    rw [h] at hended
    cases hended
  · rename_i r' hr'
    obtain rfl : r = r' := Except.ok.inj (h.symm.trans hr')
    exact ⟨_, rfl, rfl, rfl, rfl, rfl, rfl⟩

/-- `submit_chunk_transfers` for the next chunk, to the servers that are selected now. -/
def submitChunkTransfers (env : UploadEnv) (th : UploadThread) : UploadThread :=
  match th.incoming with
  | [] => th
  | chunk :: incoming =>
      { th with
        incoming
        received := th.received ++ [chunk]
        pending := th.pending ++ env.selectServersForChunk.map fun server => { chunk, server } }

/-- A transfer comes to its end, once. -/
def transferred (i : Nat) (outcome : Option Bytes) (th : UploadThread) : UploadThread :=
  { th with
    pending := th.pending.modify i fun p => { p with result := some (p.result.getD outcome) } }

/-- The receiving loop has run to its end, and `collect_transfers` has every outcome. -/
def Collected (th : UploadThread) : Prop :=
  th.incoming = [] ∧ th.ended = none ∧ ∀ p ∈ th.pending, p.result.isSome = true

instance (th : UploadThread) : Decidable th.Collected :=
  inferInstanceAs (Decidable (_ ∧ _ ∧ _))

/-- What `collect_transfers` returns; an empty file has nothing to collect. -/
def chunks (th : UploadThread) : List ChunkInfo :=
  if th.request.fileSize = 0 then []
  else collectTransfers th.request.filename (th.pending.map (·.transfer))
    (th.pending.map (·.result.join))

/-- The end of `handle_client_upload`, after the receiving loop. -/
def commit (replicationFactor : Int) (th : UploadThread) (m : MetadataMap) :
    MetadataMap × UploadEnd :=
  let r := th.request
  if r.fileSize = 0 then
    let emptyHash := if r.fileHash ≠ [] then r.fileHash else sha256 []
    (storeMetadata m r.filename th.chunks emptyHash replicationFactor, success)
  else commitUpload storeMetadata replicationFactor m r (th.received.map (·.data)) th.chunks

end UploadThread

/-! ## The system -/

/-- The store, and the uploads in progress. -/
structure UploadSystem where
  store : MetadataMap
  uploads : Map Nat UploadThread

inductive UploadEvent
  | ready (u : Nat) (chunkSize : Nat) (initialReq stream : Bytes)
  | submit (u : Nat) (env : UploadEnv)
  | transferred (u i : Nat) (outcome : Option Bytes)
  | commit (u : Nat) (replicationFactor : Int)

/-- One step of one thread. -/
def uploadStep (s : UploadSystem) : UploadEvent → UploadSystem
  | .ready u chunkSize initialReq stream =>
      match s.uploads[u]?, UploadThread.ready chunkSize initialReq stream with
      | none, some th => { s with uploads := s.uploads.insert u th }
      | _, _ => s
  | .submit u env => { s with uploads := s.uploads.modify u (·.submitChunkTransfers env) }
  | .transferred u i outcome => { s with uploads := s.uploads.modify u (·.transferred i outcome) }
  | .commit u replicationFactor =>
      match s.uploads[u]? with
      | none => s
      | some th =>
          if th.Collected then
            { store := (th.commit replicationFactor s.store).1, uploads := s.uploads.erase u }
          else s

/-! ## What a step can do -/

namespace UploadThread

/-- **All that the last step of a thread can do**: nothing, or the commit of the replicas that were
stored. -/
theorem commit_cases (th : UploadThread) (replicationFactor : Int) (m : MetadataMap) :
    ((th.commit replicationFactor m).1 = m ∧ (th.commit replicationFactor m).2 ≠ success) ∨
      ((th.commit replicationFactor m).2 = success ∧
        (th.commit replicationFactor m).1 = storeMetadata m th.request.filename th.chunks
          th.request.fileHash replicationFactor ∧
        (th.request.fileSize ≠ 0 →
          sha256 (th.received.map (·.data)).flatten = th.request.fileHash)) := by
  unfold commit commitUpload
  dsimp only
  by_cases hsize : th.request.fileSize = 0
  · rw [if_pos hsize, if_pos th.hash.1]
    exact Or.inr ⟨rfl, rfl, fun h => absurd hsize h⟩
  rw [if_neg hsize, digest_foldl_update]
  split_ifs with hsum hnil
  · exact Or.inl ⟨rfl, by simp [success, ascii]⟩
  · exact Or.inl ⟨rfl, by simp [success, ascii]⟩
  · have heq : sha256 (th.received.map (·.data)).flatten = th.request.fileHash := by
      by_contra hne
      exact hsum ⟨th.hash.1, hne⟩
    exact Or.inr ⟨rfl, by rw [heq], fun _ => heq⟩

/-- A replica that is committed is a transfer that reported a path. -/
lemma mem_chunks {th : UploadThread} {c : ChunkInfo} (h : c ∈ th.chunks) :
    ∃ p ∈ th.pending, ∃ path, p.result = some (some path) ∧
      c.placement = p.transfer.placement th.request.filename path := by
  unfold chunks at h
  split_ifs at h
  · simp at h
  · obtain ⟨i, t, path, ht, ho, hplace⟩ := mem_collectTransfers.mp (List.mem_map_of_mem h)
    rw [List.getElem?_map, Option.map_eq_some_iff] at ht ho
    obtain ⟨p, hp, rfl⟩ := ht
    obtain ⟨p', hp', hresult⟩ := ho
    obtain rfl : p = p' := Option.some.inj (hp.symm.trans hp')
    exact ⟨p, List.mem_of_getElem? hp, path, Option.join_eq_some_iff.mp hresult, hplace⟩

/-- A transfer that reported a path is committed, unless the file is empty. -/
lemma placement_mem_chunks {th : UploadThread} (hsize : th.request.fileSize ≠ 0)
    {p : PendingTransfer} (hp : p ∈ th.pending) {path : Bytes}
    (hresult : p.result = some (some path)) :
    p.transfer.placement th.request.filename path ∈ th.chunks.map (·.placement) := by
  rw [chunks, if_neg hsize]
  obtain ⟨i, hi⟩ := List.mem_iff_getElem?.mp hp
  refine mem_collectTransfers.mpr ⟨i, p.transfer, path, ?_, ?_, rfl⟩
  · rw [List.getElem?_map, hi, Option.map_some]
  · rw [List.getElem?_map, hi, Option.map_some, hresult]
    rfl

/-- The transfers after a chunk was handed over: the old ones, and new ones to selected servers. -/
lemma mem_pending_submit {th : UploadThread} {env : UploadEnv} {p : PendingTransfer}
    (h : p ∈ (th.submitChunkTransfers env).pending) :
    p ∈ th.pending ∨ (p.server ∈ env.selectServersForChunk ∧ p.result = none ∧
      p.chunk ∈ th.incoming) := by
  unfold submitChunkTransfers at h
  split at h
  · exact Or.inl h
  · rename_i chunk incoming hincoming
    rcases List.mem_append.mp h with h | h
    · exact Or.inl h
    · obtain ⟨server, hserver, rfl⟩ := List.mem_map.mp h
      exact Or.inr ⟨hserver, rfl, by rw [hincoming]; exact List.mem_cons_self⟩

/-- The transfers after one came to its end: the others, and this one with its outcome. -/
lemma mem_pending_transferred {th : UploadThread} {i : Nat} {outcome : Option Bytes}
    {p : PendingTransfer} (h : p ∈ (th.transferred i outcome).pending) :
    p ∈ th.pending ∨ ∃ q, th.pending[i]? = some q ∧ q.result = none ∧
      p = { q with result := some outcome } := by
  obtain ⟨j, hj⟩ := List.mem_iff_getElem?.mp h
  simp only [transferred, List.getElem?_modify] at hj
  obtain ⟨q, hq, hp⟩ := Option.map_eq_some_iff.mp hj
  split_ifs at hp with hij
  · subst hij
    cases hres : q.result with
    | none =>
        refine Or.inr ⟨q, hq, hres, ?_⟩
        rw [← hp, hres]
        rfl
    | some done =>
        left
        have hsame : p = q := by
          rw [← hp, hres, Option.getD_some, ← hres]
        rw [hsame]
        exact List.mem_of_getElem? hq
  · rw [← hp]
    exact Or.inl (List.mem_of_getElem? hq)

lemma ended_submit (th : UploadThread) (env : UploadEnv) :
    (th.submitChunkTransfers env).ended = th.ended := by
  unfold submitChunkTransfers
  split <;> rfl

lemma pending_ready {chunkSize : Nat} {initialReq stream : Bytes} {th : UploadThread}
    (h : ready chunkSize initialReq stream = some th) : th.pending = [] := by
  unfold ready at h
  split at h
  · cases h
  · cases h
    rfl

end UploadThread

section

variable {s : UploadSystem} {ev : UploadEvent}

/-- Where a record comes from: it was there, or it is one of the upload that commits. -/
lemma mem_store_uploadStep {f : Bytes} {p : Placement}
    (h : p ∈ (uploadStep s ev).store.placementsOf f) :
    p ∈ s.store.placementsOf f ∨ ∃ (u : Nat) (n : Int) (th : UploadThread), ev = .commit u n ∧
      s.uploads[u]? = some th ∧ th.request.filename = f ∧
        ∃ c ∈ th.chunks, ∃ r ∈ readBack c, p = r.placement := by
  cases ev with
  | ready u chunkSize initialReq stream =>
      simp only [uploadStep] at h
      split at h <;> exact Or.inl h
  | submit u env => exact Or.inl h
  | transferred u i outcome => exact Or.inl h
  | commit u n =>
      cases hth : s.uploads[u]? with
      | none =>
          simp only [uploadStep, hth] at h
          exact Or.inl h
      | some th =>
          simp only [uploadStep, hth] at h
          split_ifs at h
          · rcases th.commit_cases n s.store with ⟨hstore, -⟩ | ⟨-, hstore, -⟩
            · rw [hstore] at h
              exact Or.inl h
            · rw [hstore, placementsOf_storeMetadata _ _ _ th.name.not_mem_newline
                th.hash.not_mem_newline] at h
              split_ifs at h with hf
              · obtain ⟨r, hr, rfl⟩ := List.mem_map.mp h
                obtain ⟨c, hc, hr⟩ := List.mem_flatMap.mp hr
                exact Or.inr ⟨u, n, th, rfl, hth, hf.symm, c, hc, r, hr, rfl⟩
              · exact Or.inl h
          · exact Or.inl h

/-- The upload an event is about. -/
def UploadEvent.upload : UploadEvent → Nat
  | .ready u _ _ _ => u
  | .submit u _ => u
  | .transferred u _ _ => u
  | .commit u _ => u

/-- A step of one upload leaves the others alone. -/
lemma uploads_of_ne {u : Nat} (h : ev.upload ≠ u) :
    (uploadStep s ev).uploads[u]? = s.uploads[u]? := by
  cases ev with
  | ready v chunkSize initialReq stream =>
      simp only [uploadStep]
      split
      · exact (Map.get_insert _ _ _ _).trans (if_neg (Ne.symm h))
      · rfl
  | submit v env => exact (Map.get_modify _ _ _ _).trans (if_neg (Ne.symm h))
  | transferred v i outcome => exact (Map.get_modify _ _ _ _).trans (if_neg (Ne.symm h))
  | commit v n =>
      simp only [uploadStep]
      split
      · rfl
      · split_ifs
        · exact (Map.get_erase _ _ _).trans (if_neg (Ne.symm h))
        · rfl

/-- **Where an upload comes from.** -/
theorem uploads_uploadStep {u : Nat} {th' : UploadThread}
    (h : (uploadStep s ev).uploads[u]? = some th') :
    s.uploads[u]? = some th' ∨
      (∃ chunkSize initialReq stream, ev = .ready u chunkSize initialReq stream ∧
        UploadThread.ready chunkSize initialReq stream = some th') ∨
      ∃ th, s.uploads[u]? = some th ∧
        ((∃ env, ev = .submit u env ∧ th' = th.submitChunkTransfers env) ∨
          ∃ i outcome, ev = .transferred u i outcome ∧ th' = th.transferred i outcome) := by
  cases ev with
  | ready v chunkSize initialReq stream =>
      simp only [uploadStep] at h
      split at h
      · rename_i th hnone hready
        simp only [Map.get_insert] at h
        split_ifs at h with huv
        · cases h
          subst huv
          exact Or.inr (Or.inl ⟨chunkSize, initialReq, stream, rfl, hready⟩)
        · exact Or.inl h
      · exact Or.inl h
  | submit v env =>
      simp only [uploadStep, Map.get_modify] at h
      split_ifs at h with huv
      · obtain ⟨th, hth, rfl⟩ := Option.map_eq_some_iff.mp h
        subst huv
        exact Or.inr (Or.inr ⟨th, hth, Or.inl ⟨env, rfl, rfl⟩⟩)
      · exact Or.inl h
  | transferred v i outcome =>
      simp only [uploadStep, Map.get_modify] at h
      split_ifs at h with huv
      · obtain ⟨th, hth, rfl⟩ := Option.map_eq_some_iff.mp h
        subst huv
        exact Or.inr (Or.inr ⟨th, hth, Or.inr ⟨i, outcome, rfl, rfl⟩⟩)
      · exact Or.inl h
  | commit v n =>
      simp only [uploadStep] at h
      split at h
      · exact Or.inl h
      · split_ifs at h
        · simp only [Map.get_erase] at h
          split_ifs at h
          exact Or.inl h
        · exact Or.inl h

end

/-! ## The thread and the handler -/

namespace UploadThread

/-- The thread is on its way through `handleClientUpload` in one environment: what it has received
is handed over to the servers selected there, and its transfers end as `outcome` says. -/
structure Follows (env : UploadEnv) (outcome : Nat → Option Bytes) (initialReq stream : Bytes)
    (th : UploadThread) : Prop where
  parse : parseUploadRequest env.chunkSize initialReq = .ok th.request
  chunks : (th.received ++ th.incoming).map (·.toReceivedChunk) = (th.request.received stream).1
  ended : th.ended = (th.request.received stream).2
  pending : th.pending.map (·.transfer) = env.pending (th.received.map (·.toReceivedChunk))
  results : ∀ i p, th.pending[i]? = some p → p.result = none ∨ p.result = some (outcome i)

variable {env : UploadEnv} {outcome : Nat → Option Bytes} {initialReq stream : Bytes}
  {th : UploadThread}

lemma follows_ready (h : ready env.chunkSize initialReq stream = some th) :
    th.Follows env outcome initialReq stream := by
  cases hparse : parseUploadRequest env.chunkSize initialReq with
  | error ended =>
      rw [ready_of_error hparse] at h
      cases h
  | ok r =>
      obtain ⟨th', hready, rfl, hincoming, hended, hreceived, hpending⟩ := ready_of_ok hparse stream
      obtain rfl : th = th' := Option.some.inj (h.symm.trans hready)
      refine ⟨hparse, ?_, hended, ?_, ?_⟩
      · rw [hreceived, hincoming, List.nil_append, UploadRequest.intact_map]
      · rw [hpending, hreceived]
        rfl
      · simp [hpending]

lemma Follows.submit (h : th.Follows env outcome initialReq stream) :
    (th.submitChunkTransfers env).Follows env outcome initialReq stream := by
  unfold submitChunkTransfers
  split
  · exact h
  · rename_i chunk incoming hincoming
    refine ⟨h.parse, ?_, h.ended, ?_, fun i p hp => ?_⟩
    · rw [← h.chunks, hincoming, List.append_assoc]
      rfl
    · simp only [List.map_append, h.pending, UploadEnv.pending, List.flatMap_append]
      simp [PendingTransfer.transfer]
    · rw [List.getElem?_append] at hp
      split_ifs at hp
      · exact h.results i p hp
      · obtain ⟨server, -, rfl⟩ := List.mem_map.mp (List.mem_of_getElem? hp)
        exact Or.inl rfl

lemma Follows.transferred (h : th.Follows env outcome initialReq stream) (i : Nat) :
    (th.transferred i (outcome i)).Follows env outcome initialReq stream := by
  refine ⟨h.parse, h.chunks, h.ended, Eq.trans ?_ h.pending, fun j p hp => ?_⟩
  · refine List.ext_getElem? fun j => ?_
    simp only [UploadThread.transferred, List.getElem?_map, List.getElem?_modify, Option.map_eq_map,
      Option.map_map]
    refine Option.map_congr fun p _ => ?_
    by_cases hij : i = j <;> simp [hij, PendingTransfer.transfer]
  · simp only [UploadThread.transferred, List.getElem?_modify, Option.map_eq_map,
      Option.map_eq_some_iff] at hp
    obtain ⟨q, hq, rfl⟩ := hp
    split_ifs with hij
    · subst hij
      rcases h.results i q hq with hres | hres <;> simp [hres]
    · exact h.results j q hq

/-- **What the thread commits is what the handler commits**, on whatever store it finds then. -/
lemma Follows.commit (h : th.Follows env outcome initialReq stream) (hdone : th.Collected)
    (m : MetadataMap) :
    th.commit env.replicationFactor m =
      (handleClientUpload (withOutcomes outcome) env () m initialReq stream).2 := by
  obtain ⟨hincoming, hended, hresults⟩ := hdone
  have hchunks := h.chunks
  rw [hincoming, List.append_nil] at hchunks
  simp only [UploadThread.commit, UploadThread.chunks, handleClientUpload, handleClientUploadOn,
    completeUpload, h.parse]
  by_cases hsize : th.request.fileSize = 0
  · simp only [hsize, if_true]
  have hloop : receiveChunks th.request.numChunks stream = th.request.received stream :=
    (if_neg hsize).symm
  have hdata : th.received.map (·.data) = (th.request.received stream).1.map (·.data) := by
    rw [← hchunks, List.map_map]
    rfl
  have hjoin : th.pending.map (·.result.join) =
      (List.range (env.pending (th.request.received stream).1).length).map outcome := by
    rw [← hchunks, ← h.pending, List.length_map]
    refine List.ext_getElem (by simp) fun i hi _ => ?_
    have hi : i < th.pending.length := by simpa using hi
    have hsome := hresults _ (List.getElem_mem hi)
    rcases h.results i _ (List.getElem?_eq_getElem hi) with hres | hres
    · simp [hres] at hsome
    · simp [hres]
  simp only [hsize, if_false, hloop, ← h.ended, hended, withOutcomes, hdata, hjoin, h.pending,
    hchunks]

end UploadThread

/-- The step is one of another upload, or it goes on with `u` in this environment. -/
def UploadEvent.Follows (env : UploadEnv) (outcome : Nat → Option Bytes) (u : Nat)
    (ev : UploadEvent) : Prop :=
  ev.upload ≠ u ∨ ev = .submit u env ∨ ∃ i, ev = .transferred u i (outcome i)

lemma follows_uploadStep {env : UploadEnv} {outcome : Nat → Option Bytes} {u : Nat}
    {initialReq stream : Bytes} {s : UploadSystem} {ev : UploadEvent}
    (hev : ev.Follows env outcome u)
    (hs : ∀ th ∈ s.uploads[u]?, th.Follows env outcome initialReq stream) :
    ∀ th ∈ (uploadStep s ev).uploads[u]?, th.Follows env outcome initialReq stream := by
  rcases hev with hne | rfl | ⟨i, rfl⟩
  · rw [uploads_of_ne hne]
    exact hs
  · simp only [uploadStep, Map.get_modify, if_true, Option.mem_map]
    rintro _ ⟨th, hth, rfl⟩
    exact (hs th hth).submit
  · simp only [uploadStep, Map.get_modify, if_true, Option.mem_map]
    rintro _ ⟨th, hth, rfl⟩
    exact (hs th hth).transferred i

/-- **A thread does what `handleClientUpload` does**, whatever other threads do in between: it is
admitted, runs in one environment, and commits when it has everything. -/
theorem uploadThread_refines {env : UploadEnv} {outcome : Nat → Option Bytes} {u : Nat}
    {s : UploadSystem} (hu : s.uploads[u]? = none) {initialReq stream : Bytes}
    {evs : List UploadEvent} (hevs : ∀ ev ∈ evs, ev.Follows env outcome u) {th : UploadThread}
    (hth : th ∈ (evs.foldl uploadStep
      (uploadStep s (.ready u env.chunkSize initialReq stream))).uploads[u]?)
    (hdone : th.Collected) (m : MetadataMap) :
    th.commit env.replicationFactor m =
      (handleClientUpload (withOutcomes outcome) env () m initialReq stream).2 := by
  have hready : ∀ th ∈ (uploadStep s (.ready u env.chunkSize initialReq stream)).uploads[u]?,
      th.Follows env outcome initialReq stream := by
    intro th hth
    simp only [uploadStep, hu] at hth
    split at hth
    · rename_i hready
      simp only [Map.get_insert, if_true, Option.mem_some_iff] at hth
      exact hth ▸ UploadThread.follows_ready hready
    · rw [hu] at hth
      cases hth
  refine UploadThread.Follows.commit ?_ hdone m
  generalize uploadStep s (.ready u env.chunkSize initialReq stream) = s' at hready hth
  induction evs generalizing s' with
  | nil => exact hready th hth
  | cons ev evs ih =>
      obtain ⟨hev, hevs⟩ := List.forall_mem_cons.mp hevs
      exact ih hevs (uploadStep s' ev) (follows_uploadStep hev hready) hth

end FileGrid
