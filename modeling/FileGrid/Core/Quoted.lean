import FileGrid.Core.Bytes

/-!
# Texts in pieces between quotes

A reader that looks for a key in quotation marks anywhere in a text finds the first piece between
two marks that is the key, whatever that piece was meant as.  `suffixAt` is a search that returns
the text from the occurrence on, and `separated` a text of pieces with a separator between them;
`suffixAt_separated_append` says what the search finds, by induction over the pieces that it passes.
-/

namespace FileGrid

/-- The text from the first occurrence of the needle on. -/
def suffixAt (needle s : Bytes) : Option Bytes := (find needle s).map fun pos => s.drop pos

lemma suffixAt_cons (needle : Bytes) (c : UInt8) (s : Bytes) :
    suffixAt needle (c :: s) =
      if needle <+: c :: s then some (c :: s) else suffixAt needle s := by
  rw [suffixAt, find]
  split_ifs with hstart
  · rfl
  · rw [Option.map_map, suffixAt]
    rfl

/-- The search passes over what lacks the first byte of the needle. -/
lemma suffixAt_append_of_notMem {b : UInt8} {needle a : Bytes} (h : b ∉ a) (s : Bytes) :
    suffixAt (b :: needle) (a ++ s) = suffixAt (b :: needle) s := by
  induction a with
  | nil => rfl
  | cons c a ih =>
      obtain ⟨hc, ha⟩ := List.ne_and_not_mem_of_not_mem_cons h
      rw [List.cons_append, suffixAt_cons, if_neg, ih ha]
      intro hstart
      exact hc (List.cons_prefix_cons.mp hstart).1

/-- A single byte is found where it first occurs. -/
lemma suffixAt_singleton {b : UInt8} {a : Bytes} (h : b ∉ a) (s : Bytes) :
    suffixAt [b] (a ++ b :: s) = some (b :: s) := by
  rw [suffixAt_append_of_notMem h, suffixAt_cons, if_pos (by simp)]

/-- A piece with its separator tells the piece. -/
lemma concat_prefix_iff {b : UInt8} {key piece : Bytes} (hkey : b ∉ key) (hpiece : b ∉ piece)
    (s : Bytes) : key ++ [b] <+: piece ++ b :: s ↔ key = piece := by
  induction key generalizing piece with
  | nil =>
      cases piece with
      | nil => simp
      | cons c piece =>
          have hc : b ≠ c := (List.ne_and_not_mem_of_not_mem_cons hpiece).1
          simp [hc]
  | cons k key ih =>
      obtain ⟨hk, hkey⟩ := List.ne_and_not_mem_of_not_mem_cons hkey
      cases piece with
      | nil => simp [hk.symm]
      | cons c piece =>
          obtain ⟨-, hpiece⟩ := List.ne_and_not_mem_of_not_mem_cons hpiece
          rw [List.cons_append, List.cons_append, List.cons_prefix_cons, ih hkey hpiece,
            List.cons.injEq]

/-- Pieces with a separator between them. -/
def separated (b : UInt8) : Bytes → List Bytes → Bytes
  | first, [] => first
  | first, piece :: pieces => first ++ b :: separated b piece pieces

lemma exists_separated_eq (b : UInt8) (first : Bytes) (pieces : List Bytes) :
    ∃ rest, separated b first pieces = first ++ rest := by
  cases pieces with
  | nil => exact ⟨[], (List.append_nil _).symm⟩
  | cons piece pieces => exact ⟨_, rfl⟩

/-- The search for a key between separators, one piece on. -/
lemma suffixAt_separated {b : UInt8} {key first piece : Bytes} (hkey : b ∉ key)
    (hfirst : b ∉ first) (hpiece : b ∉ piece) (next : Bytes) (pieces : List Bytes) :
    suffixAt (b :: key ++ [b]) (separated b first (piece :: next :: pieces)) =
      if key = piece then some (b :: separated b piece (next :: pieces))
      else suffixAt (b :: key ++ [b]) (separated b piece (next :: pieces)) := by
  have hstart : b :: key ++ [b] <+: b :: separated b piece (next :: pieces) ↔ key = piece := by
    rw [List.cons_append, List.cons_prefix_cons, separated, concat_prefix_iff hkey hpiece]
    simp
  rw [separated, List.cons_append, suffixAt_append_of_notMem hfirst, suffixAt_cons]
  simp only [← List.cons_append, hstart]

/-- **The search finds the first piece that is the key**, after any pieces that are not. -/
theorem suffixAt_separated_append {b : UInt8} {key first : Bytes} (hkey : b ∉ key)
    (hfirst : b ∉ first) (passed : List Bytes) (hpassed : ∀ piece ∈ passed, b ∉ piece)
    (hother : key ∉ passed) (next : Bytes) (pieces : List Bytes) :
    suffixAt (b :: key ++ [b]) (separated b first (passed ++ key :: next :: pieces)) =
      some (b :: separated b key (next :: pieces)) := by
  induction passed generalizing first with
  | nil => rw [List.nil_append, suffixAt_separated hkey hfirst hkey, if_pos rfl]
  | cons piece passed ih =>
      obtain ⟨hpiece, hpassed⟩ := List.forall_mem_cons.mp hpassed
      obtain ⟨hne, hother⟩ := List.ne_and_not_mem_of_not_mem_cons hother
      have hstep : suffixAt (b :: key ++ [b])
          (separated b first (piece :: (passed ++ key :: next :: pieces))) =
            suffixAt (b :: key ++ [b]) (separated b piece (passed ++ key :: next :: pieces)) := by
        cases passed with
        | nil => exact (suffixAt_separated hkey hfirst hpiece _ _).trans (if_neg hne)
        | cons piece' passed => exact (suffixAt_separated hkey hfirst hpiece _ _).trans (if_neg hne)
      exact hstep.trans (ih hpiece hpassed hother)

end FileGrid
