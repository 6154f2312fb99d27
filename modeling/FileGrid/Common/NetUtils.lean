import FileGrid.Common.ServerRegistry

/-!
# Addresses

`dfg::net::parse_address`, and the numeric form of an address that `inet_pton` accepts.  An
address the registry prints is taken apart into the host and port it was made of
(`parseAddress_addressOf`), provided the host has no colon of its own.
-/

namespace FileGrid

/-- The byte `:`. -/
def colon : UInt8 := 58

/-- `dfg::net::parse_address`. -/
def parseAddress (address : Bytes) (defaultPort : Int := 8080) : Bytes × Int :=
  match find [colon] address with
  | none => (address, defaultPort)
  | some pos => (address.take pos, (stoi (address.drop (pos + 1))).getD defaultPort)

/-- `inet_pton(AF_INET, s.c_str(), …)`: four decimal fields of at most three digits and at most
255, without a leading zero, separated by dots.  The C string ends at the first NUL. -/
def inetPton (s : Bytes) : Option (List Nat) :=
  let fields := (s.takeWhile (· ≠ 0)).splitOn 46
  let ok (f : Bytes) : Bool :=
    f ≠ [] ∧ f.all isDigit ∧ digitsVal f ≤ 255 ∧ (f.length = 1 ∨ f.head? ≠ some 48)
  if fields.length = 4 ∧ fields.all ok then some (fields.map digitsVal) else none

/-! ## Reading an address back -/

lemma find_singleton_append {c : UInt8} {a : Bytes} (s : Bytes) (h : c ∉ a) :
    find [c] (a ++ c :: s) = some a.length := by
  induction a with
  | nil => simp [find]
  | cons d a ih =>
      simp only [List.mem_cons, not_or] at h
      have hd : ¬ ([c] <+: d :: (a ++ c :: s)) := by
        simp [List.cons_prefix_cons, h.1]
      simp [find, hd, ih h.2]

lemma colon_not_mem_dec (n : Int) : colon ∉ dec n := by
  intro h
  rcases mem_dec h with h | h
  · simp [isDigit, colon] at h
  · simp [colon] at h

/-- **An address that was printed is taken apart into its host and port.** -/
theorem parseAddress_addressOf {host : Bytes} {port defaultPort : Int} (hhost : colon ∉ host)
    (hlo : -2 ^ 31 ≤ port) (hhi : port ≤ 2 ^ 31 - 1) :
    parseAddress (addressOf host port) defaultPort = (host, port) := by
  have hform : addressOf host port = host ++ colon :: dec port := by
    simp [addressOf, ascii, colon]
  have hfind := find_singleton_append (dec port) hhost
  simp only [parseAddress, hform, hfind, List.take_left]
  rw [← List.drop_drop, List.drop_left, List.drop_one, List.tail_cons, stoi_dec hlo hhi]
  rfl

lemma mem_intercalate {sep b : UInt8} {fields : List Bytes} (h : b ∈ [sep].intercalate fields) :
    b = sep ∨ ∃ field ∈ fields, b ∈ field := by
  induction fields with
  | nil => simp [List.intercalate] at h
  | cons field fields ih =>
      cases fields with
      | nil => exact Or.inr ⟨field, by simp, by simpa [List.intercalate] using h⟩
      | cons field' fields =>
          have h' : b ∈ field ∨ b = sep ∨ b ∈ [sep].intercalate (field' :: fields) := by
            simpa [List.intercalate, List.intersperse] using h
          rcases h' with h' | h' | h'
          · exact Or.inr ⟨field, by simp, h'⟩
          · exact Or.inl h'
          · rcases ih h' with h' | ⟨x, hx, hb⟩
            · exact Or.inl h'
            · exact Or.inr ⟨x, List.mem_cons_of_mem _ hx, hb⟩

/-- A numeric address is made of digits and dots. -/
lemma inetPton_chars {s : Bytes} {ip : List Nat} (hnul : (0 : UInt8) ∉ s)
    (h : inetPton s = some ip) : s ≠ [] ∧ ∀ b ∈ s, isDigit b = true ∨ b = 46 := by
  have hs : s.takeWhile (· ≠ 0) = s :=
    List.takeWhile_eq_self_iff.mpr fun b hb => by simpa using fun h0 : b = 0 => hnul (h0 ▸ hb)
  simp only [inetPton, hs] at h
  split_ifs at h with hok
  obtain ⟨hlen, hall⟩ := hok
  refine ⟨?_, fun b hb => ?_⟩
  · rintro rfl
    simp at hlen
  · have hjoin : [46].intercalate (s.splitOn 46) = s := List.intercalate_splitOn 46
    rw [← hjoin] at hb
    rcases mem_intercalate hb with rfl | ⟨field, hfield, hb⟩
    · exact Or.inr rfl
    · have hdigits := List.all_eq_true.mp hall field hfield
      simp only [Bool.decide_and, Bool.and_eq_true, decide_eq_true_eq, List.all_eq_true] at hdigits
      exact Or.inl (hdigits.2.1 b hb)

end FileGrid
