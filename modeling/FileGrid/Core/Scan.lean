import Mathlib.Tactic

/-!
# Scans that keep the best

A loop over a list that keeps one element, and replaces it by one that is better.

* `foldl_first_largest`: by a size, starting from nothing of size zero; what is kept in the end is
  the first of the largest.
* `bestOf`: by any relation, starting with the first element.  The relation need not be an order, so
  that what is kept in the end need not be better than what was passed over: `bestOf_eq_some_iff`
  says when a given element is kept.  `bestOf_undominated` is what holds in any case: a strict order
  that the relation extends and respects never puts anything before what is kept.
-/

namespace FileGrid

/-- A scan of a list that keeps the first element of the largest size seen so far. -/
lemma foldl_first_largest {α κ : Type} (key : α → κ) (size : α → Nat) (k₀ : κ) (l : List α) :
    let best := l.foldl (fun best a => if best.2 < size a then (key a, size a) else best) (k₀, 0)
    (∀ a ∈ l, size a ≤ best.2) ∧ (best.2 = 0 ∨ ∃ before a after, l = before ++ a :: after ∧
      best = (key a, size a) ∧ ∀ b ∈ before, size b < size a) := by
  induction l using List.reverseRecOn with
  | nil => simp
  | append_singleton l a ih =>
      obtain ⟨hle, hbest⟩ := ih
      rw [List.foldl_append, List.foldl_cons, List.foldl_nil]
      split_ifs with hlt
      · refine ⟨fun b hb => ?_, .inr ⟨l, a, [], rfl, rfl, fun b hb => (hle b hb).trans_lt hlt⟩⟩
        rcases List.mem_append.mp hb with hb | hb
        · exact (hle b hb).trans hlt.le
        · rw [List.mem_singleton.mp hb]
      · refine ⟨fun b hb => ?_, hbest.imp_right ?_⟩
        · rcases List.mem_append.mp hb with hb | hb
          · exact hle b hb
          · rw [List.mem_singleton.mp hb]
            exact not_lt.mp hlt
        · rintro ⟨before, b, after, rfl, hb, hlarger⟩
          exact ⟨before, b, after ++ [a], by simp, hb, hlarger⟩

variable {α : Type} (better : α → α → Bool)

/-- One step of the scan: the kept element, and the next one. -/
def keepBetter (best : Option α) (a : α) : Option α :=
  match best with
  | none => some a
  | some b => if better a b then some a else some b

/-- What is kept in the end. -/
def bestOf (l : List α) : Option α := l.foldl (keepBetter better) none

variable {better}

/-- What is kept is what was kept before, or one of the list. -/
lemma mem_of_foldl_keepBetter {best : Option α} {l : List α} {x : α}
    (h : l.foldl (keepBetter better) best = some x) : best = some x ∨ x ∈ l := by
  induction l generalizing best with
  | nil => exact Or.inl h
  | cons a l ih =>
      rcases ih h with hkept | hmem
      · cases best with
        | none =>
            rw [Option.some.inj hkept]
            exact Or.inr List.mem_cons_self
        | some b =>
            rw [keepBetter] at hkept
            split_ifs at hkept
            · rw [Option.some.inj hkept]
              exact Or.inr List.mem_cons_self
            · exact Or.inl hkept
      · exact Or.inr (List.mem_cons_of_mem a hmem)

lemma mem_of_bestOf {l : List α} {x : α} (h : bestOf better l = some x) : x ∈ l := by
  rcases mem_of_foldl_keepBetter h with hnone | hmem
  · exact absurd hnone (by simp)
  · exact hmem

/-- An element that is kept stays if nothing better follows. -/
lemma foldl_keepBetter_eq_iff {l : List α} {x : α} (hx : x ∉ l) :
    l.foldl (keepBetter better) (some x) = some x ↔ ∀ y ∈ l, better y x = false := by
  induction l with
  | nil => simp
  | cons a l ih =>
      rw [List.mem_cons, not_or] at hx
      rw [List.foldl_cons, keepBetter, List.forall_mem_cons]
      by_cases ha : better a x = true
      · rw [if_pos ha]
        refine iff_of_false ?_ ?_
        · intro hkept
          rcases mem_of_foldl_keepBetter hkept with heq | hmem
          · exact hx.1 (Option.some.inj heq).symm
          · exact hx.2 hmem
        · rintro ⟨hfalse, -⟩
          rw [ha] at hfalse
          exact Bool.noConfusion hfalse
      · rw [if_neg ha, ih hx.2]
        exact ⟨fun h => ⟨Bool.eq_false_iff.mpr ha, h⟩, fun h => h.2⟩

/-- **When a scan keeps an element**: it is better than what was kept before it, and nothing behind
it is better. -/
theorem bestOf_eq_some_iff {before after : List α} {x : α}
    (hnodup : (before ++ x :: after).Nodup) :
    bestOf better (before ++ x :: after) = some x ↔
      (∀ b, bestOf better before = some b → better x b = true) ∧
        ∀ y ∈ after, better y x = false := by
  have hbefore : x ∉ before := fun hmem =>
    (List.nodup_append.mp hnodup).2.2 x hmem x List.mem_cons_self rfl
  have hafter : x ∉ after := (List.nodup_cons.mp (List.nodup_append.mp hnodup).2.1).1
  rw [bestOf, List.foldl_append, List.foldl_cons, ← bestOf]
  cases hkept : bestOf better before with
  | none =>
      rw [keepBetter, foldl_keepBetter_eq_iff hafter]
      simp
  | some b =>
      rw [keepBetter]
      by_cases hb : better x b = true
      · rw [if_pos hb, foldl_keepBetter_eq_iff hafter]
        simp [hb]
      · rw [if_neg hb]
        refine iff_of_false ?_ ?_
        · intro hx
          rcases mem_of_foldl_keepBetter hx with heq | hmem
          · exact hbefore (Option.some.inj heq ▸ mem_of_bestOf hkept)
          · exact hafter hmem
        · rintro ⟨hbetter, -⟩
          exact hb (hbetter b rfl)

lemma bestOf_ne_none {l : List α} (h : l ≠ []) : bestOf better l ≠ none := by
  have hsome : ∀ (l : List α) (x : α), l.foldl (keepBetter better) (some x) ≠ none := by
    intro l
    induction l with
    | nil => simp
    | cons a l ih =>
        intro x
        rw [List.foldl_cons, keepBetter]
        split_ifs
        · exact ih a
        · exact ih x
  obtain ⟨a, l, rfl⟩ := List.exists_cons_of_ne_nil h
  exact hsome l a

/-- Relations that agree on what comes later in the list and what comes before it. -/
lemma bestOf_congr {better' : α → α → Bool} {l : List α}
    (h : l.Pairwise fun b a => better a b = better' a b) : bestOf better l = bestOf better' l := by
  have hsome : ∀ (l : List α) (x : α), (x :: l).Pairwise (fun b a => better a b = better' a b) →
      l.foldl (keepBetter better) (some x) = l.foldl (keepBetter better') (some x) := by
    intro l
    induction l with
    | nil => simp
    | cons a l ih =>
        intro x hpairs
        simp only [List.pairwise_cons, List.mem_cons, forall_eq_or_imp] at hpairs
        obtain ⟨⟨hax, hxl⟩, hal, hl⟩ := hpairs
        rw [List.foldl_cons, List.foldl_cons, keepBetter, keepBetter, hax]
        split_ifs
        · exact ih a (List.pairwise_cons.mpr ⟨hal, hl⟩)
        · exact ih x (List.pairwise_cons.mpr ⟨hxl, hl⟩)
  cases l with
  | nil => rfl
  | cons a l => exact hsome l a h

/-- **Nothing that was seen dominates what is kept**, if domination `D` is a reason to be kept, and
what dominates an element dominates all that this element replaces. -/
theorem bestOf_undominated {D : α → α → Prop} (hirrefl : ∀ a, ¬D a a)
    (hbetter : ∀ a b, D a b → better a b = true)
    (htrans : ∀ a b c, D c a → better a b = true → D c b) {l : List α} {x : α}
    (h : bestOf better l = some x) : ∀ y ∈ l, ¬D y x := by
  induction l using List.reverseRecOn generalizing x with
  | nil => simp
  | append_singleton l a ih =>
      rw [bestOf, List.foldl_append, List.foldl_cons, List.foldl_nil, ← bestOf] at h
      intro y hy
      rw [List.mem_append, List.mem_singleton] at hy
      cases hkept : bestOf better l with
      | none =>
          have hnil : l = [] := by
            by_contra hne
            exact bestOf_ne_none hne hkept
          rw [hkept, keepBetter, Option.some_inj] at h
          rcases hy with hy | rfl
          · simp [hnil] at hy
          · exact h ▸ hirrefl y
      | some b =>
          rw [hkept, keepBetter] at h
          by_cases ha : better a b = true
          · -- the new element replaces the kept one, and inherits that nothing dominates it
            rw [if_pos ha, Option.some_inj] at h
            rcases hy with hy | rfl
            · exact fun hdom => ih hkept y hy (htrans a b y (h ▸ hdom) ha)
            · exact h ▸ hirrefl y
          · rw [if_neg ha, Option.some_inj] at h
            rcases hy with hy | rfl
            · exact h ▸ ih hkept y hy
            · exact fun hdom => ha (hbetter y b (h ▸ hdom))

end FileGrid
