import FileGrid.Core.Bytes

/-!
# Streams in pieces

What one end of a connection sends arrives at the other end in pieces: a call of `recv` returns the
beginning of the next piece, as much of it as there is room for, and the end of the stream is a call
that returns nothing.

Two loops are built on it, one that reads a line byte by byte and one that reads a given number of
bytes.  Both read the stream and not the pieces: `recvLine_spec` and `recvExact_spec` say what they
return in terms of the concatenation, and that what they leave is the rest of it.

A reader that uses nothing else is written over any `Source`; `Source.reads_pieces` says that it
cannot tell the pieces from the stream.
-/

namespace FileGrid

/-- `recv` with room for `room` bytes: what it returns, and the pieces that are left. -/
def recv (room : Nat) : List Bytes → Bytes × List Bytes
  | [] => ([], [])
  | piece :: rest =>
      (piece.take room, if piece.length ≤ room then rest else piece.drop room :: rest)

/-- No piece is empty, which would be the end of the stream. -/
def Pieces (pieces : List Bytes) : Prop := ∀ piece ∈ pieces, piece ≠ []

/-- Nothing is lost between two calls. -/
lemma recv_flatten (room : Nat) (pieces : List Bytes) :
    (recv room pieces).1 ++ (recv room pieces).2.flatten = pieces.flatten := by
  cases pieces with
  | nil => rfl
  | cons piece rest =>
      rw [recv]
      split_ifs with hfits
      · rw [List.take_of_length_le hfits, List.flatten_cons]
      · rw [List.flatten_cons, List.flatten_cons, ← List.append_assoc, List.take_append_drop]

lemma Pieces.recv {pieces : List Bytes} (h : Pieces pieces) (room : Nat) :
    Pieces (recv room pieces).2 := by
  cases pieces with
  | nil => exact h
  | cons piece rest =>
      have hrest : Pieces rest := fun p hp => h p (List.mem_cons_of_mem piece hp)
      rw [FileGrid.recv]
      split_ifs with hfits
      · exact hrest
      · intro p hp
        rcases List.mem_cons.mp hp with rfl | hp
        · rw [← List.length_pos_iff, List.length_drop]
          omega
        · exact hrest p hp

/-- A call returns something as long as there is something. -/
lemma recv_ne_nil {pieces : List Bytes} (h : Pieces pieces) (hne : pieces.flatten ≠ [])
    {room : Nat} (hroom : 0 < room) : (recv room pieces).1 ≠ [] := by
  cases pieces with
  | nil => simp at hne
  | cons piece rest =>
      have hpiece := List.length_pos_iff.mpr (h piece List.mem_cons_self)
      rw [recv, ← List.length_pos_iff, List.length_take]
      omega

lemma length_recv_le (room : Nat) (pieces : List Bytes) : (recv room pieces).1.length ≤ room := by
  cases pieces with
  | nil => simp [recv]
  | cons piece rest => exact List.length_take_le room piece

/-! ## Lines -/

/-- Reading a line byte by byte, to its newline or the end of the stream. -/
def recvLine (pieces : List Bytes) : Bytes × List Bytes :=
  match _h : recv 1 pieces with
  | ([], rest) => ([], rest)
  | (c :: _, rest) =>
      if c = 10 then ([], rest) else (c :: (recvLine rest).1, (recvLine rest).2)
termination_by pieces.flatten.length
decreasing_by
  all_goals
    have hsplit := recv_flatten 1 pieces
    rw [_h] at hsplit
    rw [← hsplit]
    simp

/-- **A line is read off the stream**, however the pieces are cut. -/
theorem recvLine_spec {pieces : List Bytes} (h : Pieces pieces) :
    (recvLine pieces).1 = (readLine pieces.flatten).1 ∧
      (recvLine pieces).2.flatten = (readLine pieces.flatten).2 ∧ Pieces (recvLine pieces).2 := by
  induction hlen : pieces.flatten.length using Nat.strongRecOn generalizing pieces with
  | ind n ih =>
      have hsplit := recv_flatten 1 pieces
      have hrest := h.recv 1
      have hone := length_recv_le 1 pieces
      have hsome := fun hne => @recv_ne_nil pieces h hne 1
      rw [recvLine]
      split
      · rename_i rest heq
        rw [heq] at hsplit hrest hsome
        -- nothing is returned at the end of the stream only
        have hnil : pieces.flatten = [] := by
          by_contra hne
          exact hsome hne Nat.one_pos rfl
        rw [hnil] at hsplit ⊢
        exact ⟨rfl, hsplit, hrest⟩
      · rename_i c tail rest heq
        rw [heq] at hsplit hrest hone
        obtain rfl : tail = [] := by
          rw [← List.length_eq_zero_iff]
          simpa using hone
        have hflat : pieces.flatten = c :: rest.flatten := hsplit.symm
        rw [hflat]
        by_cases hnewline : c = 10
        · rw [if_pos hnewline, hnewline]
          exact ⟨by simp [readLine], by simp [readLine], hrest⟩
        · rw [if_neg hnewline]
          have hshorter : rest.flatten.length < n := by
            rw [← hlen, hflat, List.length_cons]
            omega
          obtain ⟨hline, hleft, hpieces⟩ := ih _ hshorter hrest rfl
          refine ⟨?_, ?_, hpieces⟩
          · simp [readLine, hnewline, hline]
          · simp [readLine, hnewline, hleft]

/-! ## Bytes -/

/-- Reading a number of bytes, or as many as there are. -/
def recvExact (size : Nat) (pieces : List Bytes) : Bytes × List Bytes :=
  if size = 0 then ([], pieces)
  else
    match recv size pieces with
    | ([], rest) => ([], rest)
    | (c :: bytes, rest) =>
        let (more, rest) := recvExact (size - (bytes.length + 1)) rest
        (c :: bytes ++ more, rest)
termination_by size
decreasing_by omega

/-- **The bytes are read off the stream**, however the pieces are cut. -/
theorem recvExact_spec {pieces : List Bytes} (h : Pieces pieces) (size : Nat) :
    (recvExact size pieces).1 = pieces.flatten.take size ∧
      (recvExact size pieces).2.flatten = pieces.flatten.drop size ∧
      Pieces (recvExact size pieces).2 := by
  induction size using Nat.strongRecOn generalizing pieces with
  | ind size ih =>
      have hsplit := recv_flatten size pieces
      have hrest := h.recv size
      have hroom := length_recv_le size pieces
      have hsome := fun hne => @recv_ne_nil pieces h hne size
      rw [recvExact]
      by_cases hzero : size = 0
      · rw [if_pos hzero, hzero]
        exact ⟨rfl, rfl, h⟩
      · rw [if_neg hzero]
        generalize recv size pieces = result at hsplit hrest hroom hsome ⊢
        obtain ⟨bytes, rest⟩ := result
        dsimp only at hsplit hrest hroom hsome ⊢
        cases bytes with
        | nil =>
            -- nothing is returned at the end of the stream only
            have hnil : pieces.flatten = [] := by
              by_contra hne
              exact hsome hne (by omega) rfl
            rw [hnil] at hsplit ⊢
            exact ⟨by simp, by simpa using hsplit, hrest⟩
        | cons c bytes =>
            have hfirst : (c :: bytes).length ≤ size := hroom
            rw [List.length_cons] at hroom
            obtain ⟨hmore, hleft, hpieces⟩ := ih (size - (bytes.length + 1)) (by omega) hrest
            dsimp only
            rw [← hsplit, hmore, List.take_append, List.take_of_length_le hfirst,
              List.drop_append, List.drop_of_length_le hfirst, List.length_cons]
            exact ⟨rfl, hleft, hpieces⟩

/-! ## Sources -/

/-- What a reader reads from: a line, and a number of bytes, of which there may be fewer. -/
structure Source (σ : Type) where
  readLine : σ → Bytes × σ
  readBytes : Nat → σ → Bytes × σ

namespace Source

/-- The whole stream. -/
def stream : Source Bytes where
  readLine := FileGrid.readLine
  readBytes n s := (s.take n, s.drop n)

/-- The pieces that `recv` returns. -/
def pieces : Source (List Bytes) where
  readLine := recvLine
  readBytes := recvExact

/-- In a valid state the source reads what is left of a stream. -/
structure Reads {σ : Type} (src : Source σ) (valid : σ → Prop) (left : σ → Bytes) : Prop where
  line : ∀ {s}, valid s → (src.readLine s).1 = (FileGrid.readLine (left s)).1 ∧
    left (src.readLine s).2 = (FileGrid.readLine (left s)).2 ∧ valid (src.readLine s).2
  bytes : ∀ {s}, valid s → ∀ n, (src.readBytes n s).1 = (left s).take n ∧
    left (src.readBytes n s).2 = (left s).drop n ∧ valid (src.readBytes n s).2

/-- **Pieces are read as the stream they are pieces of.** -/
theorem reads_pieces : pieces.Reads Pieces List.flatten where
  line := recvLine_spec
  bytes := recvExact_spec

end Source

end FileGrid
