import FileGrid.Core.Runs

/-!
# Threads as a list of phases

A program of several threads that do the same is a list that says how far each thread is, and a step
of a thread replaces its phase.  The lemmas say what the replacement does to what is read off the
list: the phase of a thread, what the threads carry, and the work that is left to all of them.

`length_le_of_decreasing` is the rule for termination: if every guarded step lowers a measure, a run
of guarded steps is no longer than the measure was at its start.
-/

namespace FileGrid

section Phases

variable {α β : Type} {l : List α} {i : Nat} {a : α}

/-- The phases after a step of one thread. -/
lemma getElem?_set_of_some (h : l[i]? = some a) (b : α) (j : Nat) :
    (l.set i b)[j]? = if j = i then some b else l[j]? := by
  have hi : i < l.length := (List.getElem?_eq_some_iff.mp h).1
  rw [List.getElem?_set]
  by_cases hij : j = i
  · simp [hij, hi]
  · simp [hij, Ne.symm hij]

/-- A thread that is not where the step leads is another, and was there before. -/
lemma getElem?_of_set (h : l[i]? = some a) {b c : α} (hne : b ≠ c) {j : Nat}
    (hget : (l.set i b)[j]? = some c) : j ≠ i ∧ l[j]? = some c := by
  rw [getElem?_set_of_some h] at hget
  split_ifs at hget with hij
  · exact absurd (Option.some.inj hget) hne
  · exact ⟨hij, hget⟩

lemma mem_set_of_some (h : l[i]? = some a) (b : α) : b ∈ l.set i b :=
  List.mem_of_getElem? (i := i) (by rw [getElem?_set_of_some h, if_pos rfl])

/-- A phase that is not the one that is left is still there. -/
lemma mem_set_of_ne (h : l[i]? = some a) {c : α} (hc : c ∈ l) (hne : c ≠ a) (b : α) :
    c ∈ l.set i b := by
  obtain ⟨j, hj⟩ := List.mem_iff_getElem?.mp hc
  refine List.mem_of_getElem? (i := j) ?_
  rw [getElem?_set_of_some h, if_neg, hj]
  rintro rfl
  exact hne (Option.some.inj (hj.symm.trans h))

/-- A new thread, in a phase in which the others are not looked for. -/
lemma exists_getElem?_concat {p : α → Bool} (hp : p a = false) (l : List α) (j : Nat) :
    (∃ x, (l ++ [a])[j]? = some x ∧ p x = true) ↔ ∃ x, l[j]? = some x ∧ p x = true := by
  simp only [List.getElem?_append, List.getElem?_singleton]
  split_ifs with hlt hlast
  · rfl
  · simp [hp, List.getElem?_eq_none (not_lt.mp hlt)]
  · simp [List.getElem?_eq_none (not_lt.mp hlt)]

/-- What the threads carry: the one that steps gives up what it had and takes what it gets. -/
lemma perm_filterMap_set (f : α → Option β) (h : l[i]? = some a) (b : α) :
    ((f a).toList ++ (l.set i b).filterMap f).Perm ((f b).toList ++ l.filterMap f) := by
  induction l generalizing i with
  | nil => simp at h
  | cons c l ih =>
      have hcons : ∀ (x : α) (xs : List α),
          (x :: xs).filterMap f = (f x).toList ++ xs.filterMap f := by
        intro x xs
        cases hx : f x <;> simp [hx]
      cases i with
      | zero =>
          cases h
          rw [List.set_cons_zero, hcons, hcons, ← List.append_assoc, ← List.append_assoc]
          exact List.perm_append_comm.append_right _
      | succ i =>
          rw [List.set_cons_succ, hcons, hcons]
          have hswap : ∀ xs ys zs : List β, (xs ++ (ys ++ zs)).Perm (ys ++ (xs ++ zs)) := by
            intro xs ys zs
            rw [← List.append_assoc, ← List.append_assoc]
            exact List.perm_append_comm.append_right zs
          have hrest := (ih (i := i) (by simpa using h)).append_left (f c).toList
          exact (hswap _ _ _).trans (hrest.trans (hswap _ _ _))

/-- The work that is left to all the threads. -/
lemma sum_map_set (f : α → Nat) (h : l[i]? = some a) (b : α) :
    ((l.set i b).map f).sum + f a = (l.map f).sum + f b := by
  induction l generalizing i with
  | nil => simp at h
  | cons c l ih =>
      cases i with
      | zero =>
          cases h
          simp only [List.set_cons_zero, List.map_cons, List.sum_cons]
          omega
      | succ i =>
          have hrest := ih (i := i) (by simpa using h)
          simp only [List.set_cons_succ, List.map_cons, List.sum_cons]
          omega

end Phases

/-- **A measure that every step lowers bounds the run.** -/
theorem length_le_of_decreasing {σ ε : Type} {step : σ → ε → σ} {guard : σ → ε → Prop}
    (inv : σ → Prop) (hinv : ∀ s e, inv s → inv (step s e)) (measure : σ → Nat)
    (hlt : ∀ s e, inv s → guard s e → measure (step s e) < measure s) {s : σ} (hs : inv s)
    {es : List ε} (hrun : AlongRun step guard s es) : es.length ≤ measure s := by
  induction es generalizing s with
  | nil => exact Nat.zero_le _
  | cons e es ih =>
      have hfirst := hlt s e hs hrun.1
      have hrest := ih (hinv s e hs) hrun.2
      rw [List.length_cons]
      omega

end FileGrid
