import Mathlib.Data.List.Sort
import FileGrid.Head.Upload

/-!
# What an accepted upload amounts to

A client that sends chunks is not bound to send those of a file.  `handle_client_upload` counts
frames and hashes them in the order they arrive; `file_download` puts the chunks of a file together
by identifier, from 0.  The two agree about the file only if the frames that arrived carry the
identifiers 0, 1, … once each, add up to the announced size, and are in the right order or might as
well be.  None of this is checked.

**Two ways to put chunks together.**  `assembled` concatenates them in increasing order of their
identifiers, `reassembled` is the loop of `file_download`.  They agree on identifiers that are
exactly `0 … n-1` (`assembled_eq_reassembled`).

**What `SUCCESS` is worth.**  `accepted_upload_consistent_iff`: the answer implies that the upload
is consistent exactly if the frames that come through the checks of the handler carry the
identifiers `0 … n-1`, have the announced size together, and have the same digest in the order of
their arrival and in the order of their identifiers.
`accepted_upload_scrambled` is an upload that is accepted and cannot be read back.
-/

namespace FileGrid

/-! ## Putting chunks together -/

/-- The order of the identifiers. -/
def ReceivedChunk.before (a b : ReceivedChunk) : Prop := a.chunkId ≤ b.chunkId

instance : DecidableRel ReceivedChunk.before := fun a b =>
  inferInstanceAs (Decidable (a.chunkId ≤ b.chunkId))

/-- The chunks concatenated in increasing order of their identifiers. -/
def assembled (received : List ReceivedChunk) : Bytes :=
  (received.insertionSort ReceivedChunk.before).flatMap (·.data)

/-- The data of the chunk with this identifier; none, if there is none. -/
def dataOf (received : List ReceivedChunk) (id : Int) : Bytes :=
  ((received.find? (·.chunkId = id)).map (·.data)).getD []

/-- The chunks as the loop of `file_download` concatenates them: `chunk_data[0]`, `chunk_data[1]`,
and so on, as many as there are. -/
def reassembled (received : List ReceivedChunk) : Bytes :=
  (List.range received.length).flatMap fun i : Nat => dataOf received i

/-- The identifiers are `0 … n-1`, each once, in whatever order. -/
def Numbered (received : List ReceivedChunk) : Prop :=
  (received.map (·.chunkId)).Perm ((List.range received.length).map fun i : Nat => (i : Int))

/-- Identifiers from 0 on, put in order, are counted through. -/
lemma Numbered.sorted_ids {received : List ReceivedChunk} (h : Numbered received) :
    (received.insertionSort ReceivedChunk.before).map (·.chunkId) =
      (List.range received.length).map fun i : Nat => (i : Int) := by
  rw [List.map_insertionSort ReceivedChunk.before (· ≤ ·) _ _ fun a _ b _ => Iff.rfl]
  have hrange : ((List.range received.length).map fun i : Nat => (i : Int)).Pairwise (· ≤ ·) := by
    rw [List.pairwise_map]
    exact List.pairwise_lt_range.imp fun hlt => by omega
  exact ((List.perm_insertionSort _ _).trans h).eq_of_pairwise' (List.pairwise_insertionSort _ _)
    hrange

/-- A chunk is found under its identifier, if no other has it. -/
lemma dataOf_chunkId {received : List ReceivedChunk} (h : (received.map (·.chunkId)).Nodup)
    {c : ReceivedChunk} (hc : c ∈ received) : dataOf received c.chunkId = c.data := by
  unfold dataOf
  cases hfind : received.find? (·.chunkId = c.chunkId) with
  | none => simpa using List.find?_eq_none.mp hfind c hc
  | some c' =>
      have hid : c'.chunkId = c.chunkId := by simpa using List.find?_some hfind
      rw [List.inj_on_of_nodup_map h (List.mem_of_find?_eq_some hfind) hc hid]
      rfl

/-- **`file_download` reads the chunks in the order of their identifiers**, when these are
`0 … n-1`. -/
theorem assembled_eq_reassembled {received : List ReceivedChunk} (h : Numbered received) :
    assembled received = reassembled received := by
  have hnodup : (received.map (·.chunkId)).Nodup := by
    refine (List.Perm.nodup_iff h).mpr (List.Nodup.map ?_ List.nodup_range)
    intro i j hij
    simpa using hij
  calc assembled received
      = (received.insertionSort ReceivedChunk.before).flatMap
          fun c => dataOf received c.chunkId := by
        refine List.flatMap_congr fun c hc => (dataOf_chunkId hnodup ?_).symm
        exact (List.mem_insertionSort _).mp hc
    _ = ((received.insertionSort ReceivedChunk.before).map (·.chunkId)).flatMap
          (dataOf received) := by
        rw [List.flatMap_map]
    _ = reassembled received := by
        rw [h.sorted_ids, List.flatMap_map]
        rfl

/-! ## Consistency -/

/-- The size of what was received. -/
def receivedSize (received : List ReceivedChunk) : Nat := (received.map (·.data.length)).sum

/-- An upload and what was committed for it describe one file: the chunks are numbered from 0, they
add up to the announced size, and the committed hash is that of the file a reader puts together. -/
structure Consistent (r : UploadRequest) (received : List ReceivedChunk)
    (committed : Option Bytes) : Prop where
  numbered : Numbered received
  size : receivedSize received = r.fileSize
  hash : committed = some (sha256 (assembled received))
  readable : assembled received = reassembled received

/-- The frames with which a request comes to its end: as many as it announces, or fewer and then
`EOF`.  For an empty file nothing is read. -/
def UploadRequest.Sends (r : UploadRequest) (stream : Bytes) (cs : List ReceivedChunk) : Prop :=
  if r.fileSize = 0 then cs = []
  else ∃ rest, ChunkFrames stream cs rest ∧
    (cs.length = r.numChunks ∨ cs.length < r.numChunks ∧ (readLine rest).1 = ascii "EOF")

/-- What the client has to see to, beyond what the handler checks: the frames carry the identifiers
`0 … n-1` and have the announced size together, and the digest of the chunks in the order in which
they arrive is the one they have in the order of their identifiers.  Of an empty file no digest is
taken. -/
structure UploadRequest.Faithful (r : UploadRequest) (cs : List ReceivedChunk) : Prop where
  ids : (cs.map (·.chunkId)).Perm ((List.range cs.length).map fun i : Nat => (i : Int))
  sizes : (cs.map (·.data.length)).sum = r.fileSize
  digest : sha256 (cs.insertionSort ReceivedChunk.before |>.flatMap (·.data)) =
    sha256 (cs.flatMap (·.data))
  empty : r.fileSize = 0 → r.fileHash = sha256 []

lemma UploadRequest.sends_iff {r : UploadRequest} {stream : Bytes} {cs : List ReceivedChunk} :
    r.Sends stream cs ↔ r.received stream = (cs, none) := by
  unfold UploadRequest.Sends UploadRequest.received
  split_ifs
  · constructor
    · rintro rfl
      rfl
    · intro h
      exact (Prod.mk.inj h).1.symm
  · exact receiveChunks_done_iff.symm

section

variable {σ : Type} (run : σ → Bytes → List Transfer → σ × List (Option Bytes))
  (env : UploadEnv) (s : σ) (m : MetadataMap) (initialReq stream : Bytes)

lemma upload_hashOf {r : UploadRequest}
    (hparse : parseUploadRequest env.chunkSize initialReq = .ok r)
    (h : (handleClientUpload run env s m initialReq stream).2.2 = success) :
    (handleClientUpload run env s m initialReq stream).2.1.hashOf r.filename = some r.fileHash := by
  obtain ⟨hname, hhash⟩ := parseUploadRequest_words hparse
  rw [upload_commits run env s m initialReq stream hparse h,
    hashOf_storeMetadata m _ _ hname.not_mem_newline hhash.not_mem_newline, if_pos rfl]

/-- A replica is stored when a transfer reports a path. -/
lemma collectTransfers_ne_nil_iff {filename : Bytes} {pending : List Transfer}
    {outcomes : List (Option Bytes)} :
    collectTransfers filename pending outcomes ≠ [] ↔
      ∃ t path, (t, some path) ∈ pending.zip outcomes := by
  rw [collectTransfers, ne_eq, List.filterMap_eq_nil_iff]
  push Not
  constructor
  · rintro ⟨result, hmem, hne⟩
    obtain ⟨t, outcome⟩ := result
    cases outcome with
    | none => exact absurd rfl hne
    | some path => exact ⟨t, path, hmem⟩
  · rintro ⟨t, path, hmem⟩
    exact ⟨_, hmem, by simp⟩

/-- **When an upload succeeds**, by its frames: they have the announced digest in the order in which
they arrive, and a transfer of one of them reports a path. -/
lemma upload_success_iff_frames {r : UploadRequest}
    (hparse : parseUploadRequest env.chunkSize initialReq = .ok r) :
    (handleClientUpload run env s m initialReq stream).2.2 = success ↔
      ∃ cs, r.Sends stream cs ∧ (r.fileSize ≠ 0 → r.fileHash = sha256 (cs.flatMap (·.data)) ∧
        ∃ t path, (t, some path) ∈ (env.pending cs).zip (run s r.filename (env.pending cs)).2) := by
  rw [upload_success_iff]
  simp only [hparse, Except.ok.injEq, exists_eq_left', UploadRequest.sends_iff,
    UploadRequest.Accepted, storedReplicas, collectTransfers_ne_nil_iff]
  constructor
  · rintro ⟨⟨hended, hsum⟩, hstored⟩
    refine ⟨(r.received stream).1, Prod.ext rfl hended, fun hsize => ?_⟩
    rw [List.flatMap_def]
    exact ⟨(hsum.resolve_left hsize).symm, hstored.resolve_left hsize⟩
  · rintro ⟨cs, heq, hchecked⟩
    rw [heq]
    by_cases hsize : r.fileSize = 0
    · exact ⟨⟨rfl, Or.inl hsize⟩, Or.inl hsize⟩
    · obtain ⟨hsum, hstored⟩ := hchecked hsize
      rw [List.flatMap_def] at hsum
      exact ⟨⟨rfl, Or.inr hsum.symm⟩, Or.inr hstored⟩

/-- **When `SUCCESS` means that the upload is consistent**: the frames that the handler lets through
are faithful of their own accord. -/
theorem accepted_upload_consistent_iff :
    ((handleClientUpload run env s m initialReq stream).2.2 = success →
      ∀ r, parseUploadRequest env.chunkSize initialReq = .ok r →
        Consistent r (r.received stream).1
          ((handleClientUpload run env s m initialReq stream).2.1.hashOf r.filename)) ↔
    ∀ r cs, parseUploadRequest env.chunkSize initialReq = .ok r → r.Sends stream cs →
      (r.fileSize ≠ 0 → r.fileHash = sha256 (cs.flatMap (·.data)) ∧
        ∃ t path, (t, some path) ∈ (env.pending cs).zip (run s r.filename (env.pending cs)).2) →
      r.Faithful cs := by
  constructor
  · intro h r cs hparse hsends hchecked
    have hsuccess := (upload_success_iff_frames run env s m initialReq stream hparse).mpr
      ⟨cs, hsends, hchecked⟩
    obtain ⟨hnumbered, hsize, hhash, -⟩ := h hsuccess r hparse
    rw [upload_hashOf run env s m initialReq stream hparse hsuccess, Option.some_inj] at hhash
    rw [UploadRequest.sends_iff.mp hsends] at hnumbered hsize hhash
    by_cases hempty : r.fileSize = 0
    · obtain rfl : cs = [] := by simpa [UploadRequest.Sends, hempty] using hsends
      exact ⟨hnumbered, hsize, rfl, fun _ => hhash⟩
    · exact ⟨hnumbered, hsize, hhash.symm.trans (hchecked hempty).1, fun h => absurd h hempty⟩
  · intro h hsuccess r hparse
    obtain ⟨cs, hsends, hchecked⟩ :=
      (upload_success_iff_frames run env s m initialReq stream hparse).mp hsuccess
    obtain ⟨hids, hsizes, hdigest, hfile⟩ := h r cs hparse hsends hchecked
    rw [upload_hashOf run env s m initialReq stream hparse hsuccess,
      UploadRequest.sends_iff.mp hsends]
    refine ⟨hids, hsizes, ?_, assembled_eq_reassembled hids⟩
    by_cases hempty : r.fileSize = 0
    · obtain rfl : cs = [] := by simpa [UploadRequest.Sends, hempty] using hsends
      exact congrArg some (hfile hempty)
    · exact congrArg some ((hchecked hempty).1.trans hdigest.symm)

end

/-- The chunks of `AB`, the first of them under the identifier 1 and the second under 0. -/
def scrambledStream : Bytes :=
  ascii "CHUNK 1 1 559aead08264d5795d3909718cdd05abd49572e84fe55590eef31a88a08fdffd\nA" ++
  ascii "CHUNK 0 1 df7e70e5021544f4834bbee64a9e3789febc4be81470df629cad6ddb03320a5c\nB" ++
  ascii "EOF\n"

set_option maxRecDepth 100000 in
/-- **An accepted file that no one can read**: the upload of `AB` succeeds, its hash is committed,
and in the order of the identifiers the chunks are `BA`. -/
theorem accepted_upload_scrambled :
    let result := handleClientUpload (withOutcomes fun _ => some (ascii "/c/x.dat")) oneServer () ∅
      twoChunkRequest scrambledStream
    result.2.2 = success ∧
      (parseUploadRequest oneServer.chunkSize twoChunkRequest).toOption.map (fun r =>
        assembled (r.received scrambledStream).1) = some (ascii "BA") ∧
      result.2.1.hashOf (ascii "f") = some (sha256 (ascii "AB")) ∧
      sha256 (ascii "AB") ≠ sha256 (ascii "BA") := by
  decide +kernel

end FileGrid
