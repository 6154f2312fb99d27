import FileGrid.Grid.Durability
import FileGrid.Head.UploadThread

/-!
# Concurrent uploads

Several clients upload at once.  The head has a thread for each of them, the threads hand their
chunks to the nodes, and each commits when its own transfers are done.  `uploadGridStep` is one step
of one upload, over the nodes.

Two orders decide what a download finds, and nothing ties them together: the order of the commits
decides whose hash and replicas are on record, and on each node the order of the stores decides
whose bytes it serves.  Two uploads of one name that store in one order and commit in the other
leave a file that nobody can download (`concurrent_uploads_clash`).

* `OwnThread` is the invariant of one upload among the others: it has sent no chunk to a server
  twice, and what it has stored is still there.
* **`concurrent_uploads_serialise`**: the upload that commits last is what is downloaded, if each of
  its chunks was stored and no other upload has stored other bytes over them.
-/

namespace FileGrid

/-! ## The system -/

/-- The nodes, and the head with its uploads in progress. -/
structure UploadGrid where
  nodes : Nodes
  head : UploadSystem

/-- The grid as a download finds it. -/
def UploadGrid.grid (g : UploadGrid) : Grid := { nodes := g.nodes, metadata := g.head.store }

/-- How one transfer goes. -/
structure SendEnv where
  link : Link := .up
  fault : StoreFault := .none
  epochUs : Int := 0

inductive UploadGridEvent
  /-- a connection, with its first request and what the client sends after it -/
  | request (u : Nat) (received stream : Bytes)
  /-- the next chunk is handed to the servers selected for it -/
  | submit (u : Nat) (env : RequestEnv)
  /-- a transfer of the pool runs -/
  | transfer (u i : Nat) (env : SendEnv)
  | commit (u : Nat)

/-- `send_chunk_to_server` for a pending transfer. -/
def sendPending (d : Deployment) (nodes : Nodes) (env : SendEnv) (filename : Bytes)
    (p : PendingTransfer) : Nodes × Option Bytes :=
  sendChunkToServer d nodes env.link env.fault env.epochUs p.server filename p.chunk.chunkId
    p.chunk.data

def uploadGridStep (d : Deployment) (g : UploadGrid) : UploadGridEvent → UploadGrid
  | .request u received stream =>
      match clientRequest received with
      | .upload initialReq =>
          { g with head := uploadStep g.head (.ready u d.chunkSize initialReq stream) }
      | _ => g
  | .submit u env => { g with head := uploadStep g.head (.submit u (d.uploadEnv env)) }
  | .transfer u i env =>
      match g.head.uploads[u]? with
      | none => g
      | some th =>
          match th.pending[i]? with
          | none => g
          | some p =>
              if p.result.isSome then g
              else
                let (nodes, outcome) := sendPending d g.nodes env th.request.filename p
                { nodes, head := uploadStep g.head (.transferred u i outcome) }
  | .commit u => { g with head := uploadStep g.head (.commit u d.replicationFactor) }

/-- What the client of an upload is answered if the upload commits now; `none` while it waits for
transfers or for the client. -/
def UploadGrid.answer (d : Deployment) (g : UploadGrid) (u : Nat) : Option UploadEnd :=
  (g.head.uploads[u]?).bind fun th =>
    if th.Collected then some (th.commit d.replicationFactor g.head.store).2 else none

/-- Every chunk was stored on some server. -/
def UploadThread.Complete (th : UploadThread) : Prop :=
  ∀ c ∈ th.received, ∃ p ∈ th.pending, p.chunk.chunkId = c.chunkId ∧ p.result.join.isSome = true

instance (th : UploadThread) : Decidable th.Complete :=
  inferInstanceAs (Decidable (∀ c ∈ th.received, ∃ p ∈ th.pending, _ ∧ _))

/-- A store of these bytes does no harm to a chunk that has those: it does not arrive, or writes
nothing, or writes the same. -/
def SendEnv.Harmless (env : SendEnv) (data stored : Bytes) : Prop :=
  env.link = .down ∨ env.fault = .openFails ∨ (env.fault = .none ∧ data = stored)

instance (env : SendEnv) (data stored : Bytes) : Decidable (env.Harmless data stored) :=
  inferInstanceAs (Decidable (_ ∨ _ ∨ _))

/-- The guard: upload `u` does not end, and where it has stored a chunk, no other upload of the same
file does that chunk any harm. -/
def NoOverwrite (u : Nat) (g : UploadGrid) : UploadGridEvent → Prop
  | .request v _ _ => v ≠ u
  | .submit _ _ => True
  | .transfer v i env => v ≠ u → ∀ th ∈ g.head.uploads[v]?, ∀ p ∈ th.pending[i]?,
      ∀ own ∈ g.head.uploads[u]?, ∀ q ∈ own.pending, q.result.join.isSome = true →
        (th.request.filename, p.chunk.chunkId, p.server) =
          (own.request.filename, q.chunk.chunkId, q.server) →
        env.Harmless p.chunk.data q.chunk.data
  | .commit v => v ≠ u

instance : ∀ (u : Nat) (g : UploadGrid) (ev : UploadGridEvent), Decidable (NoOverwrite u g ev)
  | u, _, .request v _ _ => inferInstanceAs (Decidable (v ≠ u))
  | _, _, .submit _ _ => isTrue trivial
  | u, g, .transfer v i env => inferInstanceAs (Decidable (v ≠ u → ∀ th ∈ g.head.uploads[v]?,
      ∀ p ∈ th.pending[i]?, ∀ own ∈ g.head.uploads[u]?, ∀ q ∈ own.pending,
        q.result.join.isSome = true → (th.request.filename, p.chunk.chunkId, p.server) =
          (own.request.filename, q.chunk.chunkId, q.server) →
        env.Harmless p.chunk.data q.chunk.data))
  | u, _, .commit v => inferInstanceAs (Decidable (v ≠ u))

/-! ## What a step can do -/

section

variable {d : Deployment} {dir : Nat → Bytes} {g : UploadGrid}

lemma transfer_cases (d : Deployment) (g : UploadGrid) (u i : Nat) (env : SendEnv) :
    uploadGridStep d g (.transfer u i env) = g ∨
      ∃ th p, g.head.uploads[u]? = some th ∧ th.pending[i]? = some p ∧ p.result = none ∧
        uploadGridStep d g (.transfer u i env) =
          { nodes := (sendPending d g.nodes env th.request.filename p).1
            head := uploadStep g.head (.transferred u i
              (sendPending d g.nodes env th.request.filename p).2) } := by
  cases hth : g.head.uploads[u]? with
  | none =>
      left
      simp only [uploadGridStep, hth]
  | some th =>
      cases hp : th.pending[i]? with
      | none =>
          left
          simp only [uploadGridStep, hth, hp]
      | some p =>
          cases hresult : p.result with
          | some outcome =>
              left
              simp only [uploadGridStep, hth, hp, hresult, Option.isSome_some, if_true]
          | none =>
              refine Or.inr ⟨th, p, rfl, hp, hresult, ?_⟩
              simp only [uploadGridStep, hth, hp, hresult, Option.isSome_none, Bool.false_eq_true,
                if_false]

lemma uploads_uploadGridStep {ev : UploadGridEvent} {u : Nat} {th' : UploadThread}
    (h : (uploadGridStep d g ev).head.uploads[u]? = some th') :
    g.head.uploads[u]? = some th' ∨
      (∃ received stream initialReq, ev = .request u received stream ∧
        clientRequest received = .upload initialReq ∧
        UploadThread.ready d.chunkSize initialReq stream = some th') ∨
      ∃ th, g.head.uploads[u]? = some th ∧
        ((∃ env, ev = .submit u env ∧ th' = th.submitChunkTransfers (d.uploadEnv env)) ∨
          ∃ i outcome, th' = th.transferred i outcome) := by
  cases ev with
  | request v received stream =>
      simp only [uploadGridStep] at h
      split at h
      · rename_i initialReq hrequest
        rcases uploads_uploadStep h with h | ⟨chunkSize, req, str, hev, hready⟩ |
          ⟨-, -, ⟨-, ⟨⟩, -⟩ | ⟨-, -, ⟨⟩, -⟩⟩
        · exact Or.inl h
        · cases hev
          exact Or.inr (Or.inl ⟨received, stream, initialReq, rfl, hrequest, hready⟩)
      · exact Or.inl h
  | submit v env =>
      rcases uploads_uploadStep h with h | ⟨-, -, -, ⟨⟩, -⟩ |
        ⟨th, hth, ⟨-, ⟨⟩, rfl⟩ | ⟨-, -, ⟨⟩, -⟩⟩
      · exact Or.inl h
      · exact Or.inr (Or.inr ⟨th, hth, Or.inl ⟨env, rfl, rfl⟩⟩)
  | transfer v i env =>
      rcases transfer_cases d g v i env with heq | ⟨th₀, p, -, -, -, heq⟩
      · rw [heq] at h
        exact Or.inl h
      · rw [heq] at h
        rcases uploads_uploadStep h with h | ⟨-, -, -, ⟨⟩, -⟩ |
          ⟨th, hth, ⟨-, ⟨⟩, -⟩ | ⟨j, outcome, -, rfl⟩⟩
        · exact Or.inl h
        · exact Or.inr (Or.inr ⟨th, hth, Or.inr ⟨j, outcome, rfl⟩⟩)
  | commit v =>
      rcases uploads_uploadStep h with h | ⟨-, -, -, ⟨⟩, -⟩ | ⟨-, -, ⟨-, ⟨⟩, -⟩ | ⟨-, -, ⟨⟩, -⟩⟩
      exact Or.inl h

/-! ## Sound states -/

/-- The nodes are sound and run, and chunks are on their way to registered servers. -/
structure UploadGrid.Sound (d : Deployment) (dir : Nat → Bytes) (g : UploadGrid) : Prop where
  nodes : SoundNodes dir g.nodes
  running : ∀ n, (g.nodes n).running = true
  servers : ∀ (u : Nat) th, g.head.uploads[u]? = some th → ∀ p ∈ th.pending, d.Registers p.server

/-- **Every step keeps the state sound.** -/
theorem sound_uploadGridStep (hd : Addressed d dir) (hg : g.Sound d dir) (ev : UploadGridEvent) :
    (uploadGridStep d g ev).Sound d dir := by
  have hservers : ∀ (u : Nat) th, (uploadGridStep d g ev).head.uploads[u]? = some th →
      ∀ p ∈ th.pending, d.Registers p.server := by
    intro u th' hth' p hp
    rcases uploads_uploadGridStep hth' with hth | ⟨received, stream, req, -, -, hready⟩ |
      ⟨th, hth, ⟨env, -, rfl⟩ | ⟨i, outcome, rfl⟩⟩
    · exact hg.servers u th' hth p hp
    · rw [UploadThread.pending_ready hready] at hp
      simp at hp
    · rcases UploadThread.mem_pending_submit hp with hp | ⟨hserver, -, -⟩
      · exact hg.servers u th hth p hp
      · exact (hd.selectServers env).2 p.server hserver
    · rcases UploadThread.mem_pending_transferred hp with hp | ⟨q, hq, -, rfl⟩
      · exact hg.servers u th hth p hp
      · exact hg.servers u th hth q (List.mem_of_getElem? hq)
  have hnodes : (uploadGridStep d g ev).nodes = g.nodes ∨ ∃ env filename p,
      (uploadGridStep d g ev).nodes = (sendPending d g.nodes env filename p).1 := by
    cases ev with
    | request u received stream =>
        left
        simp only [uploadGridStep]
        split <;> rfl
    | submit u env => exact Or.inl rfl
    | commit u => exact Or.inl rfl
    | transfer u i env =>
        rcases transfer_cases d g u i env with heq | ⟨th, p, -, -, -, heq⟩
        · rw [heq]
          exact Or.inl rfl
        · rw [heq]
          exact Or.inr ⟨env, _, p, rfl⟩
  rcases hnodes with heq | ⟨env, filename, p, heq⟩
  · exact ⟨heq ▸ hg.nodes, heq ▸ hg.running, hservers⟩
  · refine ⟨?_, fun n => ?_, hservers⟩
    · rw [heq]
      exact (spares_sendChunk hg.nodes _ _ _ _ _ _ _).sound
    · rw [heq]
      exact (running_sendChunk d _ _ _ _ _ _ _ _ n).trans (hg.running n)

/-! ## One upload among others -/

/-- What a pending transfer is recorded as, if it reports this path. -/
def PendingTransfer.replica (p : PendingTransfer) (path : Bytes) : Placement :=
  { chunkId := p.chunk.chunkId, server := p.server, path, checksum := p.chunk.checksum }

/-- The upload of a client's file: its chunks are those of the file, none has been sent to a server
twice, and what was stored is still there. -/
structure OwnThread (d : Deployment) (chunkSize : Nat) (f content : Bytes) (nodes : Nodes)
    (th : UploadThread) : Prop where
  filename : th.request.filename = f
  fileSize : th.request.fileSize = content.length
  fileHash : th.request.fileHash = sha256 content
  fits : Fits f (clientChunks chunkSize content)
  chunks : (th.received ++ th.incoming).map (·.toReceivedChunk) =
    receivedFrom 0 (clientChunks chunkSize content)
  sent : ∀ p ∈ th.pending, p.chunk ∈ th.received
  once : (th.pending.map fun p => (p.chunk.chunkId, p.server)).Nodup
  replicas : ∀ p ∈ th.pending, ∀ path, p.result = some (some path) →
    Replica d f (clientChunks chunkSize content) nodes (p.replica path)

variable {chunkSize : Nat} {f content : Bytes} {nodes : Nodes} {th : UploadThread}

lemma OwnThread.index (h : OwnThread d chunkSize f content nodes th) {c : IntactChunk}
    (hc : c ∈ th.received) :
    ∃ k : Nat, c.chunkId = k ∧ (clientChunks chunkSize content)[k]? = some c.data := by
  have hmem : c.toReceivedChunk ∈ receivedFrom 0 (clientChunks chunkSize content) := by
    rw [← h.chunks]
    exact List.mem_map_of_mem (List.mem_append_left _ hc)
  obtain ⟨k, data, hk, heq⟩ := mem_receivedFrom.mp hmem
  refine ⟨k, ?_, ?_⟩
  · rw [heq, Nat.zero_add]
  · rw [heq]
    exact hk

lemma OwnThread.submit (hd : Addressed d dir) (h : OwnThread d chunkSize f content nodes th)
    (env : RequestEnv) :
    OwnThread d chunkSize f content nodes (th.submitChunkTransfers (d.uploadEnv env)) := by
  unfold UploadThread.submitChunkTransfers
  cases hincoming : th.incoming with
  | nil => exact h
  | cons chunk incoming =>
      obtain ⟨hservers, -⟩ := hd.selectServers env
      have hchunks := h.chunks
      rw [hincoming] at hchunks
      have hids : ((th.received ++ chunk :: incoming).map (·.chunkId)).Nodup := by
        have := nodup_receivedFrom 0 (clientChunks chunkSize content)
        rw [← hchunks, List.map_map] at this
        exact this
      refine ⟨h.filename, h.fileSize, h.fileHash, h.fits, ?_, ?_, ?_, ?_⟩
      · simpa using hchunks
      · intro p hp
        rcases List.mem_append.mp hp with hp | hp
        · exact List.mem_append_left _ (h.sent p hp)
        · obtain ⟨server, -, rfl⟩ := List.mem_map.mp hp
          exact List.mem_append_right _ (List.mem_singleton_self _)
      · rw [List.map_append, List.nodup_append, List.map_map]
        refine ⟨h.once, hservers.map fun a b hab => (Prod.mk.inj hab).2, ?_⟩
        rintro slot hold slot' hnew rfl
        obtain ⟨p, hp, rfl⟩ := List.mem_map.mp hold
        obtain ⟨server, -, heq⟩ := List.mem_map.mp hnew
        -- the chunks handed over before have other identifiers
        rw [List.map_append, List.nodup_append] at hids
        exact hids.2.2 _ (List.mem_map_of_mem (h.sent p hp)) _ List.mem_cons_self
          (Prod.mk.inj heq).1.symm
      · intro p hp path hpath
        rcases List.mem_append.mp hp with hp | hp
        · exact h.replicas p hp path hpath
        · obtain ⟨server, -, rfl⟩ := List.mem_map.mp hp
          cases hpath

lemma OwnThread.transferred (hd : Deployed d dir) (h : OwnThread d chunkSize f content nodes th)
    (hservers : ∀ p ∈ th.pending, d.Registers p.server) {i : Nat} {p : PendingTransfer}
    (hp : th.pending[i]? = some p) (hnone : p.result = none) (env : SendEnv) :
    OwnThread d chunkSize f content (sendPending d nodes env f p).1
      (th.transferred i (sendPending d nodes env f p).2) := by
  have hmem := List.mem_of_getElem? hp
  obtain ⟨k, hk, hdata⟩ := h.index (h.sent p hmem)
  refine ⟨h.filename, h.fileSize, h.fileHash, h.fits, h.chunks, ?_, ?_, ?_⟩
  · intro q hq
    rcases UploadThread.mem_pending_transferred hq with hq | ⟨p', hp', -, rfl⟩
    · exact h.sent q hq
    · exact h.sent p' (List.mem_of_getElem? hp')
  · have hslots : (th.transferred i (sendPending d nodes env f p).2).pending.map
        (fun p => (p.chunk.chunkId, p.server)) =
          th.pending.map fun p => (p.chunk.chunkId, p.server) := by
      refine List.ext_getElem? fun j => ?_
      simp only [UploadThread.transferred, List.getElem?_map, List.getElem?_modify]
      cases th.pending[j]? with
      | none => rfl
      | some q => simp only [Option.map_eq_map, Option.map_some]; split_ifs <;> rfl
    rw [hslots]
    exact h.once
  · intro q hq path hpath
    rcases UploadThread.mem_pending_transferred hq with hq | ⟨p', hp', -, rfl⟩
    · -- another transfer, to another server or of another chunk
      refine (h.replicas q hq path hpath).send hd (hservers p hmem) ?_ _ _ _ _
      by_contra hsame
      simp only [not_or, not_not] at hsame
      have heq : q = p := List.inj_on_of_nodup_map h.once hq hmem (Prod.ext hsame.1 hsame.2)
      rw [heq, hnone] at hpath
      cases hpath
    · obtain rfl : p = p' := Option.some.inj (hp.symm.trans hp')
      have hreport : (sendPending d nodes env f p).2 = some path := Option.some.inj hpath
      unfold sendPending at hreport ⊢
      simp only [PendingTransfer.replica]
      rw [hk] at hreport ⊢
      exact replica_of_send h.fits (hservers p hmem) hdata hreport p.chunk.checksum

/-- A harmless store keeps a replica. -/
lemma Replica.send_harmless {parts : List Bytes} {p : Placement} (hfits : Fits f parts)
    (h : Replica d f parts nodes p) {i : Nat} {stored : Bytes} (hid : p.chunkId = i)
    (hstored : parts[i]? = some stored) {env : SendEnv} {data : Bytes}
    (hharmless : env.Harmless data stored) :
    Replica d f parts (sendChunkToServer d nodes env.link env.fault env.epochUs p.server f i data).1
      p := by
  rcases hharmless with hdown | hnothing | ⟨hwhole, rfl⟩
  · rw [hdown, sendChunkToServer_down]
    exact h
  · rcases sendChunkToServer_cases d nodes env.link env.fault env.epochUs p.server f i data with
      heq | ⟨n, -, -, heq, -⟩
    · rw [heq]
      exact h
    · rw [heq, hnothing]
      exact h.update fun _ _ _ _ _ hholds => ⟨hholds.file, hholds.own, hholds.served⟩
  · rcases sendChunkToServer_cases d nodes env.link env.fault env.epochUs p.server f i data with
      heq | ⟨n, -, -, heq, -⟩
    · rw [heq]
      exact h
    · rw [heq, hwhole, hfits.message hstored]
      refine h.update fun _ j data' hj hdata' hholds => ?_
      obtain rfl : i = j := by exact_mod_cast hid.symm.trans hj
      obtain rfl : data = data' := Option.some.inj (hstored.symm.trans hdata')
      have hfree : (nodes n).Unstamped ∅ (chunkKey f i) p.path := fun us hus => absurd hus (by simp)
      exact (hholds.storeChunk_again hfree (fun _ => ⟨rfl, by simp⟩) fun _ hw => by cases hw).1

/-- A transfer of another upload that does its chunks no harm. -/
lemma OwnThread.other (hd : Deployed d dir) (hsound : SoundNodes dir nodes)
    (h : OwnThread d chunkSize f content nodes th) {filename : Bytes} {p : PendingTransfer}
    (hserver : d.Registers p.server) {env : SendEnv}
    (hguard : ∀ q ∈ th.pending, q.result.join.isSome = true →
      (filename, p.chunk.chunkId, p.server) = (f, q.chunk.chunkId, q.server) →
        env.Harmless p.chunk.data q.chunk.data) :
    OwnThread d chunkSize f content (sendPending d nodes env filename p).1 th := by
  refine ⟨h.filename, h.fileSize, h.fileHash, h.fits, h.chunks, h.sent, h.once, ?_⟩
  intro q hq path hpath
  have hreplica := h.replicas q hq path hpath
  obtain ⟨k, hk, hdata⟩ := h.index (h.sent q hq)
  unfold sendPending
  by_cases hname : filename = f
  · subst hname
    by_cases hslot : q.chunk.chunkId = p.chunk.chunkId ∧ q.server = p.server
    · have hharmless := hguard q hq (by rw [hpath]; rfl) (by rw [hslot.1, hslot.2])
      rw [← hslot.1, ← hslot.2, hk]
      exact hreplica.send_harmless h.fits hk hdata hharmless
    · exact hreplica.send hd hserver (not_and_or.mp hslot) _ _ _ _
  · refine hreplica.spares (spares_sendChunk hsound _ _ _ _ _ _ _) fun hmem => hname ?_
    exact (chunkKey_injective (Set.mem_singleton_iff.mp hmem)).1.symm

/-- Upload `u`, while it is in progress and its client has not broken off, is the upload of this
file. -/
def Own (d : Deployment) (chunkSize : Nat) (f content : Bytes) (u : Nat) (g : UploadGrid) : Prop :=
  ∀ th, g.head.uploads[u]? = some th → th.ended = none →
    OwnThread d chunkSize f content g.nodes th

/-- **One step keeps what an upload has stored**, if it overwrites none of it. -/
theorem own_uploadGridStep (hd : Deployed d dir) (hg : g.Sound d dir) {u : Nat}
    (hown : Own d chunkSize f content u g) {ev : UploadGridEvent} (hguard : NoOverwrite u g ev) :
    Own d chunkSize f content u (uploadGridStep d g ev) := by
  intro th' hth' hended
  cases ev with
  | request v received stream =>
      simp only [uploadGridStep] at hth' ⊢
      split at hth'
      · rw [uploads_of_ne] at hth'
        · exact hown th' hth' hended
        · exact hguard
      · exact hown th' hth' hended
  | submit v env =>
      rcases eq_or_ne v u with rfl | hne
      · simp only [uploadGridStep, uploadStep, Map.get_modify, if_true] at hth'
        obtain ⟨th, hth, rfl⟩ := Option.map_eq_some_iff.mp hth'
        rw [th.ended_submit] at hended
        exact (hown th hth hended).submit hd.addressed env
      · simp only [uploadGridStep] at hth'
        rw [uploads_of_ne] at hth'
        · exact hown th' hth' hended
        · exact hne
  | commit v =>
      simp only [uploadGridStep] at hth'
      rw [uploads_of_ne] at hth'
      · exact hown th' hth' hended
      · exact hguard
  | transfer v i env =>
      rcases transfer_cases d g v i env with heq | ⟨th, p, hth, hp, hnone, heq⟩
      · rw [heq] at hth' ⊢
        exact hown th' hth' hended
      · rw [heq] at hth' ⊢
        rcases eq_or_ne v u with rfl | hne
        · simp only [uploadStep, Map.get_modify, if_true, hth, Option.map_some,
            Option.some.injEq] at hth'
          subst hth'
          have h := hown th hth hended
          rw [h.filename]
          exact h.transferred hd (hg.servers v th hth) hp hnone env
        · have hsame : g.head.uploads[u]? = some th' := by
            rw [uploads_of_ne] at hth'
            · exact hth'
            · exact hne
          have h := hown th' hsame hended
          refine h.other hd hg.nodes (hg.servers v th hth p (List.mem_of_getElem? hp)) ?_
          intro q hq hstored hslot
          exact hguard hne th hth p hp th' hsame q hq hstored (by rw [hslot, h.filename])

lemma own_request (hsend : Sendable chunkSize f content) {u : Nat}
    (hu : g.head.uploads[u]? = none) :
    Own d chunkSize f content u (uploadGridStep d g
      (.request u (uploadRequest chunkSize f content ++ ascii "\n")
        (uploadStream chunkSize content))) := by
  intro th hth hended
  simp only [uploadGridStep, clientRequest_upload hsend.request hsend.nul] at hth ⊢
  rcases uploads_uploadStep hth with hth | ⟨headChunkSize, req, stream, hev, hready⟩ |
    ⟨th₀, hth₀, -⟩
  · rw [hu] at hth
    cases hth
  · cases hev
    cases hparse : parseUploadRequest d.chunkSize (uploadRequest chunkSize f content) with
    | error ended =>
        rw [UploadThread.ready_of_error hparse] at hready
        cases hready
    | ok r =>
        obtain ⟨th', hready', hrequest, hincoming, hended', hreceived, hpending⟩ :=
          UploadThread.ready_of_ok hparse (uploadStream chunkSize content)
        obtain rfl : th = th' := Option.some.inj (hready.symm.trans hready')
        obtain ⟨rfl, hlen⟩ := uploadRequest_parsed hsend.name hparse
        rw [hended] at hended'
        obtain ⟨hchunks, hcount⟩ := uploadStream_received rfl rfl hlen hended'.symm
        refine ⟨by rw [hrequest], by rw [hrequest], by rw [hrequest], hsend.fits hcount, ?_, ?_, ?_,
          ?_⟩
        · rw [hreceived, hincoming, List.nil_append, UploadRequest.intact_map, hchunks]
        · simp [hpending]
        · simp [hpending]
        · simp [hpending]
  · rw [hu] at hth₀
    cases hth₀

/-! ## The commit -/

/-- A transfer that was stored is recorded as what it is. -/
lemma OwnThread.placement_eq (h : OwnThread d chunkSize f content nodes th) {p : PendingTransfer}
    (hp : p ∈ th.pending) {path : Bytes} (hpath : p.result = some (some path)) :
    p.transfer.placement th.request.filename path = p.replica path := by
  obtain ⟨i, data, n, -, -, -, hholds⟩ := (h.replicas p hp path hpath).held
  have hne : path ≠ [] := hholds.own.ne_nil
  simp only [Transfer.placement, Transfer.recordedPath, if_pos hne]
  rfl

/-- What is committed can be read back, and is a replica. -/
lemma OwnThread.recorded (hd : Addressed d dir) (hsound : SoundNodes dir nodes)
    (h : OwnThread d chunkSize f content nodes th) {c : ChunkInfo} (hc : c ∈ th.chunks) :
    c.Readable ∧ Replica d f (clientChunks chunkSize content) nodes c.placement := by
  obtain ⟨p, hp, path, hpath, hplace⟩ := UploadThread.mem_chunks hc
  rw [h.placement_eq hp hpath] at hplace
  have hreplica := h.replicas p hp path hpath
  have hid : c.chunkId = p.chunk.chunkId := congrArg Placement.chunkId hplace
  have hlo := p.chunk.id_lo
  have hhi := p.chunk.id_hi
  obtain ⟨i, data, n, -, -, -, hholds⟩ := hreplica.held
  refine ⟨⟨by omega, by omega, ?_, ?_, ?_⟩, hplace ▸ hreplica⟩
  · rw [show c.serverIp = p.server from congrArg Placement.server hplace]
    exact hd.word p.server hreplica.registered
  · rw [show c.filePath = path from congrArg Placement.path hplace]
    have hown : IsChunkFile (nodes n).storagePath (chunkKey f i) path := hholds.own
    rw [hsound.storagePath n] at hown
    exact hown.word (hd.dirs n) (word_chunkKey h.fits.name i).2
  · rw [show c.checksum = p.chunk.checksum from congrArg Placement.checksum hplace, p.chunk.sum]
    exact word_sha256 _

lemma OwnThread.placements (hd : Addressed d dir) (hsound : SoundNodes dir nodes)
    (h : OwnThread d chunkSize f content nodes th) {m : MetadataMap} {n : Int}
    (hsuccess : (th.commit n m).2 = success) :
    (th.commit n m).1.placementsOf f = th.chunks.map (·.placement) ∧
      (th.commit n m).1.hashOf f = some (sha256 content) := by
  have hname := th.name.not_mem_newline
  have hhash := th.hash.not_mem_newline
  rcases th.commit_cases n m with ⟨-, hfailed⟩ | ⟨-, hcommit, -⟩
  · exact absurd hsuccess hfailed
  · rw [hcommit]
    constructor
    · rw [placementsOf_storeMetadata_readable m n hname hhash
        (fun c hc => (h.recorded hd hsound hc).1), if_pos h.filename.symm]
    · rw [hashOf_storeMetadata m th.chunks n hname hhash, if_pos h.filename.symm, h.fileHash]

/-- **The upload that commits leaves its file stored and available.** -/
theorem OwnThread.stored (hd : Deployed d dir) (hpositive : 0 < chunkSize)
    (hg : g.Sound d dir) (h : OwnThread d chunkSize f content g.nodes th) (hdone : th.Collected)
    {n : Int} (hsuccess : (th.commit n g.head.store).2 = success) (hcomplete : th.Complete) :
    Stored d f (clientChunks chunkSize content)
        { nodes := g.nodes, metadata := (th.commit n g.head.store).1 } ∧
      Available d f (clientChunks chunkSize content)
        { nodes := g.nodes, metadata := (th.commit n g.head.store).1 } := by
  obtain ⟨hplacements, hhash⟩ := h.placements hd.addressed hg.nodes hsuccess
  refine ⟨⟨?_, fun p hp => ?_⟩, fun i hi => ?_⟩
  · rw [hhash, clientChunks_flatten hpositive]
  · rw [hplacements] at hp
    obtain ⟨c, hc, rfl⟩ := List.mem_map.mp hp
    exact (h.recorded hd.addressed hg.nodes hc).2
  · -- chunk `i` was received, so it was stored somewhere
    have hchunks := h.chunks
    rw [hdone.1, List.append_nil] at hchunks
    obtain ⟨data, hdata⟩ : ∃ data, (clientChunks chunkSize content)[i]? = some data :=
      ⟨_, List.getElem?_eq_getElem hi⟩
    have hmem : (⟨((0 + i : Nat) : Int), data, sha256 data⟩ : ReceivedChunk) ∈
        th.received.map (·.toReceivedChunk) := by
      rw [hchunks]
      exact mem_receivedFrom.mpr ⟨i, data, hdata, rfl⟩
    obtain ⟨c, hc, hci⟩ := List.mem_map.mp hmem
    have hid : c.chunkId = i := by
      have := congrArg ReceivedChunk.chunkId hci
      simpa using this
    obtain ⟨p, hp, hpc, hstored⟩ := hcomplete c hc
    obtain ⟨path, hjoin⟩ := Option.isSome_iff_exists.mp hstored
    have hpath : p.result = some (some path) := Option.join_eq_some_iff.mp hjoin
    have hsize : th.request.fileSize ≠ 0 := by
      rw [h.fileSize]
      intro hempty
      rw [clientChunks_nil hempty] at hi
      simp at hi
    have hreplica := h.replicas p hp path hpath
    refine ⟨p.replica path, ?_, hpc.trans hid, ?_⟩
    · rw [hplacements, ← h.placement_eq hp hpath]
      exact UploadThread.placement_mem_chunks hsize hp hpath
    · obtain ⟨k, hk⟩ := hd.transferNode_isSome hreplica.registered
      exact ⟨k, hk, hg.running k⟩

/-- **Concurrent uploads serialise.**  A client uploads a file among other uploads, of this name or
of others, and is the last to commit.  If each of its chunks was stored, and no other upload of the
name has stored other bytes for a chunk on a server where it had stored that chunk, then a download
returns exactly its file. -/
theorem concurrent_uploads_serialise (hd : Deployed d dir) (hg : g.Sound d dir)
    (hsend : Sendable chunkSize f content) {u : Nat} (hu : g.head.uploads[u]? = none)
    {evs : List UploadGridEvent}
    (hrun : AlongRun (uploadGridStep d) (NoOverwrite u) (uploadGridStep d g
      (.request u (uploadRequest chunkSize f content ++ ascii "\n")
        (uploadStream chunkSize content))) evs)
    {last : UploadGrid} (hlast : evs.foldl (uploadGridStep d) (uploadGridStep d g
      (.request u (uploadRequest chunkSize f content ++ ascii "\n")
        (uploadStream chunkSize content))) = last)
    (hsuccess : last.answer d u = some success)
    (hcomplete : ∀ th ∈ last.head.uploads[u]?, th.Complete)
    {env : DownloadEnv} (hup : ∀ k, env.link k = .up) (schedule : Schedule) :
    gridDownload d env schedule (uploadGridStep d last (.commit u)).grid f = some content := by
  have hinv := foldl_invariant (fun g => g.Sound d dir ∧ Own d chunkSize f content u g)
    (fun s ev hs hev => ⟨sound_uploadGridStep hd.addressed hs.1 ev,
      own_uploadGridStep hd hs.1 hs.2 hev⟩)
    ⟨sound_uploadGridStep hd.addressed hg _, own_request hsend hu⟩ hrun
  rw [hlast] at hinv
  obtain ⟨th, hth, hanswer⟩ := Option.bind_eq_some_iff.mp hsuccess
  split_ifs at hanswer with hdone
  have hsuccess := Option.some.inj hanswer
  have hown := hinv.2 th hth hdone.2.1
  obtain ⟨hstored, havail⟩ := hown.stored hd hsend.positive hinv.1 hdone hsuccess
    (hcomplete th hth)
  have hcommit : (uploadGridStep d last (.commit u)).grid =
      { nodes := last.nodes, metadata := (th.commit d.replicationFactor last.head.store).1 } := by
    simp only [UploadGrid.grid, uploadGridStep, uploadStep, hth, if_pos hdone]
  rw [hcommit, gridDownload_eq hd hown.fits hsend.nul hsend.name_length hstored havail hup schedule,
    clientChunks_flatten hsend.positive]

end

/-! ### Two uploads of one name -/

/-- A client uploads this content as `f`, in chunks of one byte. -/
def uploadOf (u : Nat) (content : Bytes) : UploadGridEvent :=
  .request u (uploadRequest 1 (ascii "f") content ++ ascii "\n") (uploadStream 1 content)

/-- Its first transfers run, and succeed. -/
def transfersOf (u n : Nat) : List UploadGridEvent :=
  (List.range n).map fun i => .transfer u i {}

/-- A grid without files, with no upload in progress. -/
def idleGrid : UploadGrid := { nodes := (Grid.empty smallDir).nodes, head := ⟨∅, ∅⟩ }

lemma idleGrid_sound (d : Deployment) : idleGrid.Sound d smallDir :=
  ⟨(sound_empty d smallDir).nodes, fun _ => rfl, fun u th hth => by simp [idleGrid] at hth⟩

/-- Upload 0 stores after upload 1, and commits after it. -/
def oneAfterTheOther : List UploadGridEvent :=
  [.submit 0 {}, .submit 1 {}, .submit 1 {}, .submit 0 {}] ++ transfersOf 1 6 ++ transfersOf 0 6
    ++ [.commit 1]

set_option maxRecDepth 100000 in
theorem concurrent_uploads_serialise_instance :
    let start := uploadGridStep smallGrid idleGrid (uploadOf 1 [67, 68])
    let last := oneAfterTheOther.foldl (uploadGridStep smallGrid)
      (uploadGridStep smallGrid start (uploadOf 0 [65, 66]))
    gridDownload smallGrid {} .inOrder (uploadGridStep smallGrid last (.commit 0)).grid
      (ascii "f") = some [65, 66] := by
  intro start last
  have hconditions : start.head.uploads[0]?.isNone = true ∧
      AlongRun (uploadGridStep smallGrid) (NoOverwrite 0)
        (uploadGridStep smallGrid start (uploadOf 0 [65, 66])) oneAfterTheOther ∧
      last.answer smallGrid 0 = some success ∧ ∀ th ∈ last.head.uploads[0]?, th.Complete := by
    decide +kernel
  obtain ⟨hfree, hrun, hsuccess, hcomplete⟩ := hconditions
  have hsound : start.Sound smallGrid smallDir :=
    sound_uploadGridStep smallGrid_deployed.addressed (idleGrid_sound smallGrid) _
  exact concurrent_uploads_serialise smallGrid_deployed hsound sendable_small
    (Option.isNone_iff_eq_none.mp hfree) hrun rfl hsuccess hcomplete (fun _ => rfl) .inOrder

set_option maxRecDepth 100000 in
/-- **Two uploads that store in one order and commit in the other**: the node serves `B`, the hash
of `A` is on record, both clients were told `SUCCESS`, and the file cannot be downloaded. -/
theorem concurrent_uploads_clash :
    let stored := ([uploadOf 0 [65], uploadOf 1 [66], .submit 0 {}, .submit 1 {}] ++ transfersOf 0 1
      ++ transfersOf 1 1).foldl (uploadGridStep loneGrid) idleGrid
    let committed := uploadGridStep loneGrid stored (.commit 1)
    let final := uploadGridStep loneGrid committed (.commit 0)
    stored.answer loneGrid 1 = some success ∧ committed.answer loneGrid 0 = some success ∧
      (final.nodes 0).running = true ∧ final.head.uploads.isEmpty = true ∧
      gridDownload loneGrid {} .inOrder final.grid (ascii "f") = none := by
  decide +kernel

end FileGrid
