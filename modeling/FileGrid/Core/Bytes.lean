import Mathlib.Tactic
import Mathlib.Data.List.TakeWhile
import Mathlib.Data.Nat.Digits.Lemmas

/-!
# Byte strings and C++ text input

Every string of the modelled programs is a `std::string`, that is a sequence of bytes, and almost
every protocol line is taken apart with the standard stream operators.  This file has the part
of that vocabulary the development needs, and names nothing of any particular program:

* `ascii`, the bytes of a literal; `find`, `std::string::find`.
* `words`, `readWord`, `lines`, `readLine` — `>>` into a string and `std::getline`.
* `dec` — `std::to_string` and `<<` of an integer; `readInt`, `readNat` — `>>` into a signed or
  unsigned integer, which is also what `std::stoi`, `std::stoll` and `std::stoull` accept.

The results are the two facts the protocols rest on: **what is printed is read back**
(`readInt_dec`, `readWord_append`, `lines_append`), and **a separator that does not occur in the
last field splits a string in one way only** (`splitLast`).
-/

namespace FileGrid

/-- A `std::string` or a `std::vector<char>`. -/
abbrev Bytes := List UInt8

/-- The bytes of a string literal. -/
def ascii (s : String) : Bytes := s.toList.map fun c => UInt8.ofNat c.toNat

/-- `s.find(needle)`: the first position at which `needle` occurs, if any. -/
def find (needle : Bytes) : Bytes → Option Nat
  | [] => if needle = [] then some 0 else none
  | c :: s => if needle <+: c :: s then some 0 else (find needle s).map (· + 1)

lemma find_self_append {needle : Bytes} (hne : needle ≠ []) (s : Bytes) :
    find needle (needle ++ s) = some 0 := by
  cases needle with
  | nil => exact absurd rfl hne
  | cons c needle => simp [find]

lemma isSome_find {needle s : Bytes} : (find needle s).isSome ↔ needle <:+: s := by
  induction s with
  | nil =>
      by_cases h : needle = [] <;> simp [find, h]
  | cons c s ih =>
      rw [find, List.infix_cons_iff]
      by_cases h : needle <+: c :: s
      · simp [h]
      · simp [h, ih]

lemma drop_of_find {needle s : Bytes} {pos : Nat} (h : find needle s = some pos) :
    ∃ rest, s.drop pos = needle ++ rest := by
  induction s generalizing pos with
  | nil =>
      rw [find] at h
      split_ifs at h with hnil
      exact ⟨[], by simp [hnil]⟩
  | cons c s ih =>
      rw [find] at h
      split_ifs at h with hstart
      · cases h
        obtain ⟨rest, hrest⟩ := hstart
        exact ⟨rest, hrest.symm⟩
      · obtain ⟨pos, hpos, rfl⟩ := Option.map_eq_some_iff.mp h
        exact ih hpos

/-- **What does not contain the separator is found on one side of it.** -/
lemma infix_append_cons {needle a c : Bytes} {b : UInt8} (hb : b ∉ needle) :
    needle <:+: a ++ b :: c ↔ needle <:+: a ∨ needle <:+: c := by
  constructor
  · rintro ⟨s, t, h⟩
    rcases List.append_eq_append_iff.mp h with ⟨w, ha, -⟩ | ⟨w, hs, hw⟩
    · exact Or.inl ⟨s, w, ha.symm⟩
    · -- the occurrence reaches beyond `a`, so it begins after the separator
      cases w with
      | nil => exact Or.inl ⟨s, [], by simpa using hs⟩
      | cons d w =>
          obtain ⟨rfl, hc⟩ := List.cons.inj hw
          rcases List.append_eq_append_iff.mp hs with ⟨u, -, hu⟩ | ⟨u, -, hu⟩
          · exact absurd (by rw [hu]; simp) hb
          · cases u with
            | nil => exact absurd (by rw [← List.nil_append needle, ← hu]; simp) hb
            | cons e u =>
                obtain ⟨-, hu⟩ := List.cons.inj hu
                exact Or.inr ⟨u, t, by rw [hc, hu]; rfl⟩
  · rintro (h | h)
    · exact h.trans (List.prefix_append a _).isInfix
    · exact h.trans ((List.suffix_cons b c).trans (List.suffix_append a _)).isInfix

/-- `std::isspace` in the C locale. -/
def isSpace (b : UInt8) : Bool := b == 32 || (9 ≤ b.toNat && b.toNat ≤ 13)

/-- `std::isdigit`. -/
def isDigit (b : UInt8) : Bool := 48 ≤ b.toNat && b.toNat ≤ 57

/-- A non-empty string without white space: what `>>` delivers. -/
def Word (w : Bytes) : Prop := w ≠ [] ∧ ∀ b ∈ w, isSpace b = false

lemma noSpace_iff {s : Bytes} : s.all (! isSpace ·) = true ↔ ∀ b ∈ s, isSpace b = false := by
  simp

instance (w : Bytes) : Decidable (Word w) :=
  decidable_of_iff (w ≠ [] ∧ w.all (! isSpace ·) = true) (and_congr_right fun _ => noSpace_iff)

lemma Word.append {v w : Bytes} (hv : Word v) (hw : ∀ b ∈ w, isSpace b = false) :
    Word (v ++ w) := by
  refine ⟨by simp [hv.1], fun b hb => ?_⟩
  rcases List.mem_append.mp hb with h | h
  · exact hv.2 b h
  · exact hw b h

lemma Word.take {w : Bytes} (hw : Word w) {n : Nat} (hn : 0 < n) : Word (w.take n) := by
  refine ⟨?_, fun b hb => hw.2 b (List.mem_of_mem_take hb)⟩
  rw [ne_eq, List.take_eq_nil_iff, not_or]
  exact ⟨by omega, hw.1⟩

lemma eq_nil_or_word {w : Bytes} (h : ∀ b ∈ w, isSpace b = false) : w = [] ∨ Word w := by
  by_cases hw : w = []
  · exact Or.inl hw
  · exact Or.inr ⟨hw, h⟩

lemma not_mem_newline_of_noSpace {w : Bytes} (hw : ∀ b ∈ w, isSpace b = false) :
    (10 : UInt8) ∉ w := by
  intro h
  have := hw _ h
  simp [isSpace] at this

lemma Word.not_mem_newline {w : Bytes} (hw : Word w) : (10 : UInt8) ∉ w :=
  not_mem_newline_of_noSpace hw.2

/-- Fields separated by blanks have no newline among them. -/
lemma not_mem_newline_append {w s : Bytes} (hw : (10 : UInt8) ∉ w) (hs : (10 : UInt8) ∉ s) :
    (10 : UInt8) ∉ w ++ 32 :: s := by
  intro h
  rcases List.mem_append.mp h with h | h
  · exact hw h
  · rcases List.mem_cons.mp h with h | h
    · exact absurd h (by decide)
    · exact hs h

lemma Word.append_not_mem_newline {w s : Bytes} (hw : Word w) (hs : (10 : UInt8) ∉ s) :
    (10 : UInt8) ∉ w ++ 32 :: s :=
  not_mem_newline_append hw.not_mem_newline hs

lemma isSpace_of_isDigit {b : UInt8} (h : isDigit b = true) : isSpace b = false := by
  simp only [isDigit, Bool.and_eq_true, decide_eq_true_eq] at h
  simp only [isSpace, Bool.or_eq_false_iff, beq_eq_false_iff_ne, ne_eq, Bool.and_eq_false_iff,
    decide_eq_false_iff_not]
  refine ⟨?_, Or.inr (by omega)⟩
  rintro rfl
  simp at h

/-! ## Words and lines -/

/-- All the words of a string: `while (in >> t) tokens.push_back(t)`. -/
def words (s : Bytes) : List Bytes := (s.splitOnP isSpace).filter (· ≠ [])

/-- `in >> t`: the next word and what is left of the stream. -/
def readWord (s : Bytes) : Option (Bytes × Bytes) :=
  let t := s.dropWhile isSpace
  let w := t.takeWhile (! isSpace ·)
  if w = [] then none else some (w, t.dropWhile (! isSpace ·))

/-- A line read one byte at a time, up to and without its newline, and what is left. -/
def readLine (s : Bytes) : Bytes × Bytes :=
  (s.takeWhile (· ≠ 10), (s.dropWhile (· ≠ 10)).drop 1)

/-- The lines successive `std::getline` calls deliver. -/
def lines : Bytes → List Bytes
  | [] => []
  | c :: s =>
      if c = 10 then [] :: lines s
      else match lines s with
        | [] => [[c]]
        | l :: ls => (c :: l) :: ls

/-- `s` is exhausted, or its next byte does not satisfy `p`: where a scan over `p` stops. -/
def Stops (p : UInt8 → Bool) (s : Bytes) : Prop := ∀ c ∈ s.head?, p c = false

lemma stops_nil (p : UInt8 → Bool) : Stops p [] := by simp [Stops]

lemma stops_cons {p : UInt8 → Bool} {c : UInt8} (s : Bytes) (h : p c = false) :
    Stops p (c :: s) := by simpa [Stops] using h

lemma Stops.takeWhile {p : UInt8 → Bool} {s : Bytes} (h : Stops p s) : s.takeWhile p = [] := by
  cases s with
  | nil => rfl
  | cons c s => simp [h c (by simp)]

lemma Stops.dropWhile {p : UInt8 → Bool} {s : Bytes} (h : Stops p s) : s.dropWhile p = s := by
  cases s with
  | nil => rfl
  | cons c s => simp [h c (by simp)]

/-- A scan over `p` takes a run of `p` bytes off, exactly. -/
lemma takeWhile_append_stops {p : UInt8 → Bool} {w s : Bytes} (hw : ∀ b ∈ w, p b = true)
    (hs : Stops p s) : (w ++ s).takeWhile p = w ∧ (w ++ s).dropWhile p = s := by
  rw [List.takeWhile_append_of_pos hw, List.dropWhile_append_of_pos hw, hs.takeWhile,
    hs.dropWhile]
  simp

lemma Word.stops {w : Bytes} (hw : Word w) (s : Bytes) : Stops isSpace (w ++ s) := by
  obtain ⟨hne, hsp⟩ := hw
  cases w with
  | nil => exact absurd rfl hne
  | cons c w => exact stops_cons _ (hsp c (by simp))

/-- `>>` after the beginning of a word: the word goes on to the next blank. -/
lemma readWord_append_takeWhile {w : Bytes} (hw : Word w) (s : Bytes) :
    readWord (w ++ s) = some (w ++ s.takeWhile (! isSpace ·), s.dropWhile (! isSpace ·)) := by
  have hpos : ∀ b ∈ w, (! isSpace b) = true := fun b hb => by simp [hw.2 b hb]
  simp only [readWord, (hw.stops s).dropWhile, List.takeWhile_append_of_pos hpos,
    List.dropWhile_append_of_pos hpos]
  rw [if_neg (by simp [hw.1])]

/-- **A word that was written is read back**, and nothing after it is consumed. -/
theorem readWord_append {w s : Bytes} (hw : Word w) (hs : Stops (! isSpace ·) s) :
    readWord (w ++ s) = some (w, s) := by
  rw [readWord_append_takeWhile hw, hs.takeWhile, hs.dropWhile, List.append_nil]

lemma readWord_space {c : UInt8} (s : Bytes) (h : isSpace c = true) :
    readWord (c :: s) = readWord s := by
  simp [readWord, h]

/-- What `>>` delivers is a word, and it stands in the stream. -/
lemma readWord_word {s w t : Bytes} (h : readWord s = some (w, t)) : Word w := by
  simp only [readWord] at h
  split at h
  · cases h
  · rename_i hne
    simp only [Option.some.injEq, Prod.mk.injEq] at h
    obtain ⟨rfl, -⟩ := h
    exact ⟨hne, fun b hb => by simpa using List.mem_takeWhile_imp hb⟩

lemma readWord_subset {s w t : Bytes} (h : readWord s = some (w, t)) : w ⊆ s ∧ t ⊆ s := by
  have hdrop : s.dropWhile isSpace ⊆ s := (List.dropWhile_suffix _).subset
  simp only [readWord] at h
  split at h
  · cases h
  · cases h
    exact ⟨List.Subset.trans (List.takeWhile_prefix _).subset hdrop,
      List.Subset.trans (List.dropWhile_suffix _).subset hdrop⟩

lemma readLine_append {l : Bytes} (s : Bytes) (hl : (10 : UInt8) ∉ l) :
    readLine (l ++ 10 :: s) = (l, s) := by
  have hsplit := takeWhile_append_stops (p := (· ≠ (10 : UInt8))) (w := l) (s := 10 :: s)
    (fun b hb => by simpa using fun h : b = 10 => hl (h ▸ hb)) (stops_cons _ (by simp))
  simp only [readLine, hsplit.1, hsplit.2, List.drop_one, List.tail_cons]

/-- **A line that was written is read back.** -/
theorem lines_append {l : Bytes} (s : Bytes) (hl : (10 : UInt8) ∉ l) :
    lines (l ++ 10 :: s) = l :: lines s := by
  induction l with
  | nil => simp [lines]
  | cons c l ih =>
      simp only [List.mem_cons, not_or] at hl
      simp only [List.cons_append, lines, ih hl.2, if_neg (Ne.symm hl.1)]

lemma lines_single {l : Bytes} (hl : (10 : UInt8) ∉ l) (hne : l ≠ []) : lines l = [l] := by
  induction l with
  | nil => exact absurd rfl hne
  | cons c l ih =>
      simp only [List.mem_cons, not_or] at hl
      cases l with
      | nil => simp [lines, Ne.symm hl.1]
      | cons d l => rw [lines, ih hl.2 (by simp), if_neg (Ne.symm hl.1)]

lemma lines_flatMap {ls : List Bytes} (h : ∀ l ∈ ls, (10 : UInt8) ∉ l) :
    lines (ls.flatMap (· ++ [10])) = ls := by
  induction ls with
  | nil => rfl
  | cons l ls ih =>
      rw [List.flatMap_cons, List.append_assoc, List.singleton_append,
        lines_append _ (h l List.mem_cons_self), ih fun k hk => h k (List.mem_cons_of_mem _ hk)]

/-- A newline cuts the lines before it off from those after it. -/
lemma lines_append_newline (a s : Bytes) : lines (a ++ 10 :: s) = lines (a ++ [10]) ++ lines s := by
  induction a with
  | nil => simp [lines]
  | cons c a ih =>
      have hne : lines (a ++ [10]) ≠ [] := by
        cases a with
        | nil => simp [lines]
        | cons d a =>
            simp only [List.cons_append, lines]
            split_ifs
            · simp
            · cases lines (a ++ [10]) <;> simp
      obtain ⟨l, ls, hl⟩ := List.exists_cons_of_ne_nil hne
      simp only [List.cons_append, lines, ih, hl]
      split_ifs <;> simp

lemma lines_subset {s l : Bytes} (h : l ∈ lines s) : l ⊆ s := by
  induction s generalizing l with
  | nil => simp [lines] at h
  | cons c s ih =>
      rw [lines] at h
      split_ifs at h with hc
      · rcases List.mem_cons.mp h with rfl | h
        · simp
        · exact List.subset_cons_of_subset _ (ih h)
      · cases hlines : lines s with
        | nil =>
            rw [hlines] at h
            obtain rfl : l = [c] := by simpa using h
            simp
        | cons l' ls =>
            simp only [hlines] at h ih
            rcases List.mem_cons.mp h with rfl | h
            · exact List.cons_subset_cons _ (ih List.mem_cons_self)
            · exact List.subset_cons_of_subset _ (ih (List.mem_cons_of_mem _ h))

lemma lines_newline_not_mem : ∀ (s : Bytes), ∀ l ∈ lines s, (10 : UInt8) ∉ l
  | [], l, h => by simp [lines] at h
  | c :: s, l, h => by
      have ih := lines_newline_not_mem s
      simp only [lines] at h
      split_ifs at h with hc
      · rcases List.mem_cons.mp h with rfl | h
        · simp
        · exact ih l h
      · cases hs : lines s with
        | nil =>
            rw [hs] at h
            simp only [List.mem_singleton] at h
            subst h
            simpa using Ne.symm hc
        | cons k ks =>
            rw [hs] at h ih
            rcases List.mem_cons.mp h with rfl | h
            · simpa [List.mem_cons] using ⟨Ne.symm hc, ih k (by simp)⟩
            · exact ih l (by simp [h])

lemma words_space {c : UInt8} (s : Bytes) (h : isSpace c = true) :
    words (c :: s) = words s := by
  simp [words, List.splitOnP_cons_eq_if_modifyHead, h]

lemma words_single {w : Bytes} (hw : Word w) : words w = [w] := by
  simp [words, List.splitOnP_eq_singleton hw.2, hw.1]

lemma words_append_space {w : Bytes} {c : UInt8} (s : Bytes) (hw : Word w)
    (hc : isSpace c = true) : words (w ++ c :: s) = w :: words s := by
  simp [words, List.splitOnP_append_cons_of_forall_mem hw.2 c hc, hw.1]

lemma words_append_blank (s : Bytes) {w : Bytes} (hw : ∀ b ∈ w, isSpace b = true) :
    words (s ++ w) = words s := by
  cases w with
  | nil => rw [List.append_nil]
  | cons c w =>
      have hblank : words w = [] := by
        induction w with
        | nil => rfl
        | cons d w ih =>
            rw [words_space w (hw d (by simp))]
            exact ih fun b hb => hw b (by
              rcases List.mem_cons.mp hb with rfl | hb
              · simp
              · simp [hb])
      rw [words, List.splitOnP_append_cons _ _ (hw c (by simp)), List.filter_append]
      exact (congrArg _ hblank).trans (List.append_nil _)

lemma word_of_mem_words {s w : Bytes} (h : w ∈ words s) : Word w := by
  simp only [words, List.mem_filter, decide_eq_true_eq] at h
  refine ⟨h.2, fun b hb => ?_⟩
  have key : ∀ (s : Bytes), ∀ v ∈ s.splitOnP isSpace, ∀ b ∈ v, isSpace b = false := by
    intro s
    induction s with
    | nil => simp [List.splitOnP_nil]
    | cons c s ih =>
        intro v hv b hb
        rw [List.splitOnP_cons_eq_if_modifyHead] at hv
        by_cases hc : isSpace c = true
        · simp only [hc, if_true, List.mem_cons] at hv
          rcases hv with rfl | hv
          · simp at hb
          · exact ih v hv b hb
        · simp only [hc] at hv
          cases hsp : s.splitOnP isSpace with
          | nil => exact absurd hsp (List.splitOnP_ne_nil _ _)
          | cons u us =>
              rw [hsp] at hv ih
              simp only [Bool.false_eq_true, if_false, List.modifyHead_cons, List.mem_cons] at hv
              rcases hv with rfl | hv
              · rcases List.mem_cons.mp hb with rfl | hb
                · simpa using hc
                · exact ih u (by simp) b hb
              · exact ih v (by simp [hv]) b hb
  exact key s w h.1 b hb

/-! ## Decimal integers -/

/-- The digit `d` as a character. -/
def digitByte (d : Nat) : UInt8 := UInt8.ofNat (48 + d)

/-- An unsigned integer in decimal. -/
def natDec (n : Nat) : Bytes :=
  if n = 0 then [digitByte 0] else (Nat.digits 10 n).reverse.map digitByte

/-- `std::to_string` and `<<` of an integer. -/
def dec (n : Int) : Bytes := if n < 0 then 45 :: natDec n.natAbs else natDec n.natAbs

/-- The number a run of decimal digits denotes. -/
def digitsVal (ds : Bytes) : Nat := ds.foldl (fun v d => v * 10 + (d.toNat - 48)) 0

/-- An optional sign: whether it was `-`, and what follows it. -/
def readSign : Bytes → Bool × Bytes
  | [] => (false, [])
  | c :: s => if c = 45 then (true, s) else if c = 43 then (false, s) else (false, c :: s)

/-- `in >> n` for a signed type with the given range.  `none` is the failed state of the stream:
no digits, or a value that does not fit. -/
def readInt (lo hi : Int) (s : Bytes) : Option (Int × Bytes) :=
  let (neg, t) := readSign (s.dropWhile isSpace)
  let ds := t.takeWhile isDigit
  let v : Int := if neg then - (digitsVal ds) else digitsVal ds
  if ds = [] ∨ v < lo ∨ hi < v then none else some (v, t.dropWhile isDigit)

/-- `in >> n` for an unsigned type with the given maximum: a minus sign is accepted, and the
value is negated modulo the size of the type. -/
def readNat (max : Nat) (s : Bytes) : Option (Nat × Bytes) :=
  let (neg, t) := readSign (s.dropWhile isSpace)
  let ds := t.takeWhile isDigit
  let v := digitsVal ds
  if ds = [] ∨ max < v then none
  else some (if neg ∧ v ≠ 0 then max + 1 - v else v, t.dropWhile isDigit)

/-- `int`. -/
def readI32 : Bytes → Option (Int × Bytes) := readInt (-2 ^ 31) (2 ^ 31 - 1)

/-- `long long`. -/
def readI64 : Bytes → Option (Int × Bytes) := readInt (-2 ^ 63) (2 ^ 63 - 1)

/-- `size_t`. -/
def readU64 : Bytes → Option (Nat × Bytes) := readNat (2 ^ 64 - 1)

/-- `std::stoi`; `none` is the exception. -/
def stoi (s : Bytes) : Option Int := (readI32 s).map (·.1)

/-- `std::stoll`; `none` is the exception. -/
def stoll (s : Bytes) : Option Int := (readI64 s).map (·.1)

/-- `std::stoull`; `none` is the exception. -/
def stoull (s : Bytes) : Option Nat := (readU64 s).map (·.1)

lemma digitByte_toNat {d : Nat} (h : d < 10) : (digitByte d).toNat = 48 + d := by
  simp only [digitByte, UInt8.toNat_ofNat']
  omega

lemma isDigit_digitByte {d : Nat} (h : d < 10) : isDigit (digitByte d) = true := by
  simp [isDigit, digitByte_toNat h]; omega

lemma natDec_ne_nil (n : Nat) : natDec n ≠ [] := by
  unfold natDec
  split_ifs with h
  · simp
  · simp [Nat.digits_ne_nil_iff_ne_zero, h]

lemma natDec_of_lt {d : Nat} (h : d < 10) : natDec d = [digitByte d] := by
  unfold natDec
  split_ifs with hd
  · rw [hd]
  · rw [Nat.digits_of_lt 10 d hd h]
    rfl

lemma length_natDec_le {n k : Nat} (hk : 0 < k) (h : n < 10 ^ k) : (natDec n).length ≤ k := by
  unfold natDec
  split_ifs
  · exact hk
  · rw [List.length_map, List.length_reverse]
    exact (Nat.digits_length_le_iff (by omega) n).mpr h

lemma isDigit_of_mem_natDec {n : Nat} {b : UInt8} (h : b ∈ natDec n) : isDigit b = true := by
  unfold natDec at h
  split_ifs at h with hn
  · simp only [List.mem_singleton] at h
    rw [h]; exact isDigit_digitByte (by norm_num)
  · simp only [List.mem_map, List.mem_reverse] at h
    obtain ⟨d, hd, rfl⟩ := h
    exact isDigit_digitByte (Nat.digits_lt_base (by norm_num) hd)

lemma word_natDec (n : Nat) : Word (natDec n) :=
  ⟨natDec_ne_nil n, fun _ hb => isSpace_of_isDigit (isDigit_of_mem_natDec hb)⟩

lemma digitsVal_natDec (n : Nat) : digitsVal (natDec n) = n := by
  unfold natDec
  split_ifs with h
  · subst h; decide
  · have fold : ∀ (ds : List Nat), (∀ d ∈ ds, d < 10) →
        digitsVal (ds.reverse.map digitByte) = Nat.ofDigits 10 ds := by
      intro ds
      induction ds with
      | nil => intro _; rfl
      | cons d ds ih =>
          intro hd
          have ih := ih fun x hx => hd x (by simp [hx])
          simp only [digitsVal, List.reverse_cons, List.map_append, List.map_cons, List.map_nil,
            List.foldl_append, List.foldl_cons, List.foldl_nil] at ih ⊢
          rw [ih, digitByte_toNat (hd d (by simp)), Nat.ofDigits_cons]
          omega
    rw [fold _ fun d hd => Nat.digits_lt_base (by norm_num) hd, Nat.ofDigits_digits]

/-- A decimal begins with a digit, or with a minus sign. -/
lemma dec_cons (n : Int) : ∃ c s, dec n = c :: s ∧ (isDigit c = true ∨ c = 45) := by
  unfold dec
  split_ifs
  · exact ⟨_, _, rfl, Or.inr rfl⟩
  · obtain ⟨c, s, hcs⟩ := List.exists_cons_of_ne_nil (natDec_ne_nil n.natAbs)
    exact ⟨c, s, hcs, Or.inl (isDigit_of_mem_natDec (by rw [hcs]; simp))⟩

lemma mem_dec {n : Int} {b : UInt8} (h : b ∈ dec n) : isDigit b = true ∨ b = 45 := by
  unfold dec at h
  split_ifs at h
  · rcases List.mem_cons.mp h with rfl | h
    · exact Or.inr rfl
    · exact Or.inl (isDigit_of_mem_natDec h)
  · exact Or.inl (isDigit_of_mem_natDec h)

lemma word_dec (n : Int) : Word (dec n) := by
  refine ⟨?_, fun b hb => ?_⟩
  · obtain ⟨c, s, h, -⟩ := dec_cons n
    simp [h]
  · rcases mem_dec hb with h | rfl
    · exact isSpace_of_isDigit h
    · rfl

lemma dec_natCast (n : Nat) : dec (n : Int) = natDec n := by
  simp [dec]

lemma readSign_of_isDigit {c : UInt8} (s : Bytes) (h : isDigit c = true) :
    readSign (c :: s) = (false, c :: s) := by
  have h45 : c ≠ 45 := by rintro rfl; simp [isDigit] at h
  have h43 : c ≠ 43 := by rintro rfl; simp [isDigit] at h
  simp [readSign, h45, h43]

lemma readSign_dec (n : Int) (s : Bytes) :
    readSign (dec n ++ s) = (decide (n < 0), natDec n.natAbs ++ s) := by
  unfold dec
  split_ifs with h
  · simp [readSign, h]
  · obtain ⟨c, t, hct⟩ := List.exists_cons_of_ne_nil (natDec_ne_nil n.natAbs)
    have hc : isDigit c = true := isDigit_of_mem_natDec (by rw [hct]; simp)
    rw [hct, List.cons_append, readSign_of_isDigit _ hc]
    simp [h]

/-- What a printed integer is read as: the range of the type decides. -/
lemma readInt_dec_eq (lo hi n : Int) {s : Bytes} (hs : Stops isDigit s) :
    readInt lo hi (dec n ++ s) = if n < lo ∨ hi < n then none else some (n, s) := by
  have hsplit := takeWhile_append_stops (p := isDigit) (w := natDec n.natAbs) (s := s)
    (fun _ => isDigit_of_mem_natDec) hs
  have hval : (if decide (n < 0) = true then - (n.natAbs : Int) else n.natAbs) = n := by
    simp only [decide_eq_true_eq]
    split_ifs <;> omega
  simp only [readInt, ((word_dec n).stops s).dropWhile, readSign_dec, hsplit.1, hsplit.2,
    digitsVal_natDec, hval, natDec_ne_nil, false_or]

/-- **A printed integer is read back**, and nothing after it is consumed. -/
theorem readInt_dec {lo hi n : Int} {s : Bytes} (hlo : lo ≤ n) (hhi : n ≤ hi)
    (hs : Stops isDigit s) : readInt lo hi (dec n ++ s) = some (n, s) := by
  rw [readInt_dec_eq lo hi n hs, if_neg (by omega)]

theorem readI32_dec {n : Int} {s : Bytes} (hlo : -2 ^ 31 ≤ n) (hhi : n ≤ 2 ^ 31 - 1)
    (hs : Stops isDigit s) : readI32 (dec n ++ s) = some (n, s) := readInt_dec hlo hhi hs

theorem readI64_dec {n : Int} {s : Bytes} (hlo : -2 ^ 63 ≤ n) (hhi : n ≤ 2 ^ 63 - 1)
    (hs : Stops isDigit s) : readI64 (dec n ++ s) = some (n, s) := readInt_dec hlo hhi hs

lemma readInt_dec_of_lt {lo hi n : Int} {s : Bytes} (hhi : hi < n) (hs : Stops isDigit s) :
    readInt lo hi (dec n ++ s) = none := by
  rw [readInt_dec_eq lo hi n hs, if_pos (Or.inr hhi)]

lemma readU64_natDec_eq (n : Nat) {s : Bytes} (hs : Stops isDigit s) :
    readU64 (natDec n ++ s) = if 2 ^ 64 - 1 < n then none else some (n, s) := by
  have hsplit := takeWhile_append_stops (p := isDigit) (w := natDec n) (s := s)
    (fun _ => isDigit_of_mem_natDec) hs
  have hsign := readSign_dec n s
  rw [dec_natCast, Int.natAbs_natCast] at hsign
  have hneg : ¬(decide ((n : Int) < 0) = true ∧ n ≠ 0) := by simp
  simp only [readU64, readNat, ((word_natDec n).stops s).dropWhile, hsign, hsplit.1, hsplit.2,
    digitsVal_natDec, natDec_ne_nil, false_or]
  rw [if_neg hneg]

/-- A printed unsigned integer is read back. -/
theorem readU64_natDec {n : Nat} {s : Bytes} (hn : n ≤ 2 ^ 64 - 1) (hs : Stops isDigit s) :
    readU64 (natDec n ++ s) = some (n, s) := by
  rw [readU64_natDec_eq n hs, if_neg (by omega)]

lemma readInt_range {lo hi n : Int} {s t : Bytes} (h : readInt lo hi s = some (n, t)) :
    lo ≤ n ∧ n ≤ hi := by
  simp only [readInt, Option.ite_none_left_eq_some, Option.some.injEq, Prod.mk.injEq, not_or,
    not_lt] at h
  rw [← h.2.1]
  exact h.1.2

/-- What is left after a number stands in the stream. -/
lemma readInt_subset {lo hi n : Int} {s t : Bytes} (h : readInt lo hi s = some (n, t)) : t ⊆ s := by
  have hdrop : s.dropWhile isSpace ⊆ s := (List.dropWhile_suffix _).subset
  have hsign : (readSign (s.dropWhile isSpace)).2 ⊆ s.dropWhile isSpace := by
    generalize s.dropWhile isSpace = u
    cases u with
    | nil => simp [readSign]
    | cons c u =>
        rw [readSign]
        split_ifs <;> simp
  simp only [readInt, Option.ite_none_left_eq_some, Option.some.injEq, Prod.mk.injEq] at h
  rw [← h.2.2]
  exact List.Subset.trans (List.dropWhile_suffix _).subset (List.Subset.trans hsign hdrop)

lemma readU64_natDec_of_lt {n : Nat} {s : Bytes} (hn : 2 ^ 64 - 1 < n) (hs : Stops isDigit s) :
    readU64 (natDec n ++ s) = none := by
  rw [readU64_natDec_eq n hs, if_pos hn]

/-- `std::stoull` of a printed number: the number, or an exception if it does not fit. -/
lemma stoull_natDec (n : Nat) : stoull (natDec n) = if n ≤ 2 ^ 64 - 1 then some n else none := by
  have happ : natDec n = natDec n ++ [] := (List.append_nil _).symm
  rw [stoull, happ]
  split_ifs with h
  · rw [readU64_natDec h (stops_nil _)]
    rfl
  · rw [readU64_natDec_of_lt (by omega) (stops_nil _)]
    rfl

lemma readInt_space {lo hi : Int} {c : UInt8} (s : Bytes) (h : isSpace c = true) :
    readInt lo hi (c :: s) = readInt lo hi s := by
  simp [readInt, h]

lemma readU64_space {c : UInt8} (s : Bytes) (h : isSpace c = true) :
    readU64 (c :: s) = readU64 s := by
  simp [readU64, readNat, h]

/-- What does not begin with a blank, a sign or a digit is no number. -/
lemma readInt_none_of_head {lo hi : Int} {c : UInt8} (s : Bytes) (hsp : isSpace c = false)
    (h45 : c ≠ 45) (h43 : c ≠ 43) (hd : isDigit c = false) : readInt lo hi (c :: s) = none := by
  simp [readInt, readSign, hsp, h45, h43, hd]

lemma stoi_dec {n : Int} (hlo : -2 ^ 31 ≤ n) (hhi : n ≤ 2 ^ 31 - 1) : stoi (dec n) = some n := by
  have h := readI32_dec hlo hhi (stops_nil isDigit)
  rw [List.append_nil] at h
  simp [stoi, h]

theorem dec_injective {m n : Int} (h : dec m = dec n) : m = n := by
  have key := congrArg (fun s => readInt (min m n) (max m n) s) h
  have hm := @readInt_dec (min m n) (max m n) m [] (by omega) (by omega) (stops_nil isDigit)
  have hn := @readInt_dec (min m n) (max m n) n [] (by omega) (by omega) (stops_nil isDigit)
  rw [List.append_nil] at hm hn
  simpa [hm, hn] using key

/-! ## Splitting at the last separator -/

/-- A separator that does not occur in the last field determines the split. -/
theorem splitLast {c : UInt8} {a b u v : Bytes} (hu : c ∉ u) (hv : c ∉ v)
    (h : a ++ c :: u = b ++ c :: v) : a = b ∧ u = v := by
  rcases List.append_eq_append_iff.mp h with ⟨w, rfl, hw⟩ | ⟨w, rfl, hw⟩
  · cases w with
    | nil => simpa using hw
    | cons d w =>
        simp only [List.cons_append, List.cons.injEq] at hw
        exact absurd (by rw [hw.2]; simp) hu
  · cases w with
    | nil => simpa [eq_comm] using hw
    | cons d w =>
        simp only [List.cons_append, List.cons.injEq] at hw
        exact absurd (by rw [hw.2]; simp) hv

end FileGrid
