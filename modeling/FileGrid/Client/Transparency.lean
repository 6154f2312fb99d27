import FileGrid.Client.Client
import FileGrid.Core.Pieces

/-!
# An upload on the wire

Headers and chunks of an upload share one stream: a line of text, then as many bytes as the line
says, then the next line.  The head reads the lines byte by byte and the chunks in one go, and what
`recv` gives it has nothing to do with either.

* `receiveLoop_reads` — the receiving loop over whatever the stream is read from; `receivePieces` is
  the loop over the pieces that `recv` returns, with what it leaves unread.
* `receivePieces_eq` — it receives what `receiveChunks` receives from the whole stream, so that the
  rest of this development need not speak of pieces.
* `receivePieces_frame` — the frame of one chunk, whatever its bytes spell: the reader is at the
  right byte again.  The number of a chunk is a `size_t` where it is sent and an `int` where it is
  received.
* **`upload_transparent_iff`** — the chunks arrive as they were sent, and only `EOF` is left unread,
  exactly if every number is an `int`.
-/

namespace FileGrid

/-! ## The receiving loop -/

section

variable {σ : Type} {src : Source σ} {valid : σ → Prop} {left : σ → Bytes} {s : σ}

/-- A round reads what is left of the stream, whatever it reads it from. -/
lemma receiveRound_reads (hsrc : src.Reads valid left) (h : valid s) (allocates : Nat → Bool) :
    (receiveRound src allocates s).1 = (receiveRound .stream allocates (left s)).1 ∧
      left (receiveRound src allocates s).2 = (receiveRound .stream allocates (left s)).2 ∧
      valid (receiveRound src allocates s).2 := by
  obtain ⟨hline, hleft, hvalid⟩ := hsrc.line h
  obtain ⟨line, rest, hread⟩ : ∃ line rest, src.readLine s = (line, rest) := ⟨_, _, rfl⟩
  rw [hread] at hline hleft hvalid
  have hstream : Source.stream.readLine (left s) = (line, left rest) :=
    Prod.ext hline.symm hleft.symm
  rw [receiveRound, receiveRound, hread, hstream]
  dsimp only at hvalid ⊢
  split_ifs
  · exact ⟨rfl, rfl, hvalid⟩
  · cases parseChunkHeader (line.drop 6) with
    | none => exact ⟨rfl, rfl, hvalid⟩
    | some header =>
        obtain ⟨chunkId, chunkSize, hash⟩ := header
        obtain ⟨hdata, hleft, hvalid'⟩ := hsrc.bytes hvalid chunkSize
        obtain ⟨data, rest', hread⟩ : ∃ data rest', src.readBytes chunkSize rest = (data, rest') :=
          ⟨_, _, rfl⟩
        rw [hread] at hdata hleft hvalid'
        have hstream : Source.stream.readBytes chunkSize (left rest) = (data, left rest') :=
          Prod.ext hdata.symm hleft.symm
        simp only [hread, hstream]
        split_ifs
        · exact ⟨rfl, rfl, hvalid'⟩
        · exact ⟨rfl, rfl, hvalid'⟩
        · exact ⟨rfl, rfl, hvalid'⟩
        · exact ⟨rfl, rfl, hvalid⟩
  · exact ⟨rfl, rfl, hvalid⟩
  · exact ⟨rfl, rfl, hvalid⟩

/-- **The loop reads the stream**, whatever it reads it from. -/
theorem receiveLoop_reads (hsrc : src.Reads valid left) (h : valid s)
    (allocates : Nat → Nat → Bool) (n : Nat) :
    (receiveLoop src allocates n s).1 = (receiveLoop .stream allocates n (left s)).1 ∧
      (receiveLoop src allocates n s).2.1 = (receiveLoop .stream allocates n (left s)).2.1 ∧
      left (receiveLoop src allocates n s).2.2 =
        (receiveLoop .stream allocates n (left s)).2.2 := by
  induction n generalizing s allocates with
  | zero => exact ⟨rfl, rfl, rfl⟩
  | succ n ih =>
      obtain ⟨hresult, hleft, hvalid⟩ := receiveRound_reads hsrc h (allocates 0)
      rw [receiveLoop, receiveLoop]
      generalize receiveRound src (allocates 0) s = round at hresult hleft hvalid ⊢
      generalize receiveRound .stream (allocates 0) (left s) = round' at hresult hleft ⊢
      obtain ⟨result, rest⟩ := round
      obtain ⟨result', rest'⟩ := round'
      dsimp only at hresult hleft hvalid
      subst hresult hleft
      cases result with
      | error ended => exact ⟨rfl, rfl, rfl⟩
      | ok c =>
          obtain ⟨hreceived, hended, hrest⟩ := ih hvalid fun i => allocates (i + 1)
          exact ⟨congrArg (c :: ·) hreceived, hended, hrest⟩

end

/-- The receiving loop of `handle_client_upload` over the pieces that `recv` returns, with the
number of chunks still expected: the chunks received, how the handler ends if it ends there, and
what is left unread. -/
def receivePieces (n : Nat) (pieces : List Bytes) :
    List ReceivedChunk × Option UploadEnd × List Bytes :=
  receiveLoop .pieces unlimited n pieces

/-- **The pieces do not matter**: the loop receives what it receives from the whole stream. -/
theorem receivePieces_eq (n : Nat) {pieces : List Bytes} (h : Pieces pieces) :
    (receivePieces n pieces).1 = (receiveChunks n pieces.flatten).1 ∧
      (receivePieces n pieces).2.1 = (receiveChunks n pieces.flatten).2 := by
  obtain ⟨hreceived, hended, -⟩ := receiveLoop_reads Source.reads_pieces h unlimited n
  exact ⟨hreceived, hended⟩

/-! ## Frames -/

/-- A chunk as it is sent: its number, a `size_t`, and its bytes, which fit a `std::vector`. -/
structure SentChunk where
  id : Nat
  data : Bytes
  fits : data.length < 2 ^ 63

/-- What the sending loop of `file_upload` writes for some chunks. -/
def sentFrames (chunks : List SentChunk) : Bytes := chunks.flatMap fun c => chunkFrame c.id c.data

/-- The loop numbers the chunks of a file one after the other, and then writes what `chunkFrames`
does. -/
theorem sentFrames_eq_chunkFrames (chunks : List SentChunk) (i : Nat)
    (h : chunks.map (·.id) = List.range' i chunks.length) :
    sentFrames chunks = chunkFrames i (chunks.map (·.data)) := by
  induction chunks generalizing i with
  | nil => rfl
  | cons c chunks ih =>
      rw [List.map_cons, List.length_cons, List.range'_succ, List.cons_eq_cons] at h
      rw [sentFrames, List.flatMap_cons, ← sentFrames, ih (i + 1) h.2, h.1, List.map_cons,
        chunkFrames]

/-- **One frame**: if its number is an `int`, its chunk is received and the loop is at the next
frame; if not, nothing is received. -/
lemma receivePieces_frame {c : SentChunk} {rest : Bytes} {pieces : List Bytes} (n : Nat)
    (h : Pieces pieces) (hflat : pieces.flatten = chunkFrame c.id c.data ++ rest) :
    (c.id < 2 ^ 31 → ∃ pieces', Pieces pieces' ∧ pieces'.flatten = rest ∧
      receivePieces (n + 1) pieces =
        ({ chunkId := c.id, data := c.data, checksum := sha256 c.data } ::
          (receivePieces n pieces').1, (receivePieces n pieces').2)) ∧
    (2 ^ 31 ≤ c.id → (receivePieces (n + 1) pieces).1 = []) := by
  obtain ⟨hresult, hleft, hpieces⟩ := receiveRound_reads Source.reads_pieces h (unlimited 0)
  rw [hflat] at hresult hleft
  rw [receivePieces, receiveLoop]
  generalize receiveRound .pieces (unlimited 0) pieces = round at hresult hleft hpieces ⊢
  obtain ⟨result, pieces'⟩ := round
  dsimp only at hresult hleft hpieces
  constructor
  · intro hid
    have hfits := c.fits
    rw [receiveRound_frame rest hid (by omega) rfl] at hresult hleft
    subst hresult
    exact ⟨pieces', hpieces, hleft, rfl⟩
  · intro hid
    obtain ⟨text, hround⟩ := receiveRound_frame_of_le rest hid
    rw [hround] at hresult
    subst hresult
    rfl

/-- **When an upload is transparent.**  However the stream is cut, the chunks decoded are those that
were sent and the line `EOF` is what is left, exactly if the number of every chunk is an `int`. -/
theorem upload_transparent_iff (chunks : List SentChunk) (pieces : List Bytes)
    (hpieces : ∀ piece ∈ pieces, piece ≠ [])
    (hstream : pieces.flatten = sentFrames chunks ++ ascii "EOF\n") :
    ((receivePieces chunks.length pieces).1.map (fun c => (c.chunkId, c.data)) =
          chunks.map (fun c => ((c.id : Int), c.data)) ∧
        (receivePieces chunks.length pieces).2.1 = none ∧
        (receivePieces chunks.length pieces).2.2.flatten = ascii "EOF\n") ↔
      ∀ c ∈ chunks, c.id < 2 ^ 31 := by
  induction chunks generalizing pieces with
  | nil => simpa [receivePieces, receiveLoop, sentFrames] using hstream
  | cons c chunks ih =>
      have hflat : pieces.flatten =
          chunkFrame c.id c.data ++ (sentFrames chunks ++ ascii "EOF\n") := by
        rw [hstream, sentFrames, List.flatMap_cons, List.append_assoc, ← sentFrames]
      obtain ⟨hint, hlarge⟩ := receivePieces_frame chunks.length hpieces hflat
      rw [List.length_cons, List.forall_mem_cons]
      rcases Nat.lt_or_ge c.id (2 ^ 31) with hid | hid
      · obtain ⟨pieces', hpieces', hflat', heq⟩ := hint hid
        rw [heq, ← ih pieces' hpieces' hflat', List.map_cons, List.map_cons, List.cons_eq_cons]
        constructor
        · rintro ⟨⟨-, hchunks⟩, hrest⟩
          exact ⟨hid, hchunks, hrest⟩
        · rintro ⟨-, hchunks, hrest⟩
          exact ⟨⟨rfl, hchunks⟩, hrest⟩
      · rw [hlarge hid]
        refine iff_of_false ?_ (fun h => absurd h.1 (by omega))
        simp

/-- Two chunks whose bytes spell a header and the end of the stream. -/
def trickyChunks : List SentChunk :=
  [⟨0, ascii "CHUNK 7 1 x\nEOF\n", by decide⟩, ⟨1, [], by decide⟩, ⟨2, ascii "EOF", by decide⟩]

/-- They arrive, here in pieces of one byte. -/
theorem upload_transparent_tricky :
    let pieces := (sentFrames trickyChunks ++ ascii "EOF\n").map ([·])
    (receivePieces 3 pieces).1.map (fun c => (c.chunkId, c.data)) =
        [(0, ascii "CHUNK 7 1 x\nEOF\n"), (1, []), (2, ascii "EOF")] ∧
      (receivePieces 3 pieces).2.1 = none ∧
      (receivePieces 3 pieces).2.2.flatten = ascii "EOF\n" := by
  intro pieces
  have hflatten : ∀ s : Bytes, (s.map ([·])).flatten = s := by
    intro s
    induction s with
    | nil => rfl
    | cons b s ih => rw [List.map_cons, List.flatten_cons, ih]; rfl
  have hpieces : ∀ piece ∈ pieces, piece ≠ [] := by
    intro piece hpiece
    obtain ⟨b, -, rfl⟩ := List.mem_map.mp hpiece
    simp
  exact (upload_transparent_iff trickyChunks pieces hpieces (hflatten _)).mpr
    (by simp [trickyChunks])

/-- **A number that is no `int` stops the stream**: the head takes the header for a malformed
one. -/
theorem upload_number_too_large :
    let c : SentChunk := ⟨2 ^ 31, ascii "x", by decide⟩
    let pieces := [sentFrames [c] ++ ascii "EOF\n"]
    pieces.flatten = sentFrames [c] ++ ascii "EOF\n" ∧ (receivePieces 1 pieces).1 = [] ∧
      (receivePieces 1 pieces).1.map (fun c => (c.chunkId, c.data)) ≠
        [c].map (fun c => ((c.id : Int), c.data)) := by
  intro c pieces
  have hflat : pieces.flatten = sentFrames [c] ++ ascii "EOF\n" := by simp [pieces]
  have hframe : pieces.flatten = chunkFrame c.id c.data ++ ascii "EOF\n" := by
    simp [pieces, sentFrames]
  have hnone : (receivePieces 1 pieces).1 = [] :=
    (receivePieces_frame 0 (by simp [Pieces, pieces, ascii]) hframe).2 le_rfl
  exact ⟨hflat, hnone, by simp [hnone]⟩

end FileGrid
