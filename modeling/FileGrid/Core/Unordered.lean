import Mathlib.Tactic
import Mathlib.Data.List.Sort

/-!
# What the C++ library leaves open

Places where a program does not say in which order things happen:

* `std::sort` may leave equivalent elements in any order.  A `StdSort` is any function that
  permutes its input and, for a strict weak order, sorts it.
* Jobs handed to a thread pool finish in any order.  A `Schedule` picks, for every number of jobs,
  the order in which they take effect; `runPool` runs them in that order and collects the results
  in the order of submission, as a loop over the futures does.  A `Schedule` also says in which
  order an unordered map is gone over (`Schedule.visit`).

A result about a program that sorts or uses a pool is proved for every `StdSort` and every
`Schedule`.  The induction over the jobs of a pool is `runPool_rule`: an invariant of the state
that each job keeps, and a postcondition of each job that the other jobs do not destroy.
-/

namespace FileGrid

/-! ## Sorting -/

/-- What `std::sort` requires of its comparison. -/
structure StrictWeak {α : Type} (lt : α → α → Bool) : Prop where
  asymm : ∀ a b, lt a b = true → lt b a = false
  negTrans : ∀ a b c, lt a b = false → lt b c = false → lt a c = false

structure StdSort (α : Type) where
  sort : (α → α → Bool) → List α → List α
  perm : ∀ lt l, (sort lt l).Perm l
  sorted : ∀ lt l, StrictWeak lt → (sort lt l).Pairwise fun a b => lt b a = false

/-- One such function: insertion sort. -/
def StdSort.insertion (α : Type) : StdSort α where
  sort lt l := l.insertionSort fun a b => lt b a = false
  perm lt l := List.perm_insertionSort _ l
  sorted := by
    intro lt l hlt
    have : Std.Total fun a b => lt b a = false := by
      refine ⟨fun a b => ?_⟩
      cases hba : lt b a with
      | false => exact Or.inl rfl
      | true => exact Or.inr (hlt.asymm b a hba)
    have : IsTrans α fun a b => lt b a = false := ⟨fun a b c hab hbc => hlt.negTrans c b a hbc hab⟩
    exact List.pairwise_insertionSort _ l

lemma StdSort.mem_sort {α : Type} (s : StdSort α) {lt : α → α → Bool} {l : List α} {a : α} :
    a ∈ s.sort lt l ↔ a ∈ l := (s.perm lt l).mem_iff

/-- **The first elements of what was sorted are least**: none that is left out comes before them. -/
lemma StdSort.least_of_mem_take {α : Type} (s : StdSort α) {lt : α → α → Bool} (hlt : StrictWeak lt)
    {l : List α} {n : Nat} {a b : α} (ha : a ∈ (s.sort lt l).take n) (hb : b ∈ l)
    (hout : b ∉ (s.sort lt l).take n) : lt b a = false := by
  have hsorted := s.sorted lt l hlt
  have hmem : b ∈ s.sort lt l := s.mem_sort.mpr hb
  rw [← List.take_append_drop n (s.sort lt l)] at hsorted hmem
  have hdrop : b ∈ (s.sort lt l).drop n := (List.mem_append.mp hmem).resolve_left hout
  exact (List.pairwise_append.mp hsorted).2.2 a ha b hdrop

lemma StdSort.least_of_head {α : Type} (s : StdSort α) {lt : α → α → Bool} (hlt : StrictWeak lt)
    {l rest : List α} {a b : α} (hsort : s.sort lt l = a :: rest) (hb : b ∈ l) :
    lt b a = false := by
  have hsorted := s.sorted lt l hlt
  have hmem : b ∈ s.sort lt l := s.mem_sort.mpr hb
  rw [hsort] at hsorted hmem
  rcases List.mem_cons.mp hmem with rfl | hmem
  · cases hself : lt b b with
    | false => rfl
    | true => exact hself.symm.trans (hlt.asymm b b hself)
  · exact (List.pairwise_cons.mp hsorted).1 b hmem

/-! ## Jobs of a pool -/

structure Schedule where
  order : Nat → List Nat
  perm : ∀ n, (order n).Perm (List.range n)

/-- The jobs in the order of submission. -/
def Schedule.inOrder : Schedule := ⟨List.range, fun _ => List.Perm.refl _⟩

variable {σ α β : Type} (exec : σ → Nat → α → σ × β)

/-- The job with this number takes effect, and its result is kept under its number. -/
def poolStep (jobs : List α) (acc : σ × (Nat → Option β)) (i : Nat) : σ × (Nat → Option β) :=
  match jobs[i]? with
  | none => acc
  | some a => ((exec acc.1 i a).1, Function.update acc.2 i (some (exec acc.1 i a).2))

/-- All the jobs; the results are in the order of submission. -/
def runPool (schedule : Schedule) (jobs : List α) (s : σ) : σ × List β :=
  let acc := (schedule.order jobs.length).foldl (poolStep exec jobs) (s, fun _ => none)
  (acc.1, (List.range jobs.length).filterMap acc.2)

variable {exec}

lemma getElem?_range_filterMap {f : Nat → Option β} {n : Nat} (h : ∀ i < n, (f i).isSome) {i : Nat}
    (hi : i < n) : ((List.range n).filterMap f)[i]? = f i := by
  have hsome : ∀ l : List Nat, (∀ j ∈ l, (f j).isSome) → (l.filterMap f).map some = l.map f := by
    intro l hl
    induction l with
    | nil => rfl
    | cons j l ih =>
        obtain ⟨b, hb⟩ := Option.isSome_iff_exists.mp (hl j List.mem_cons_self)
        rw [List.filterMap_cons_some hb, List.map_cons, List.map_cons, hb,
          ih fun k hk => hl k (List.mem_cons_of_mem j hk)]
  have hget := congrArg (·[i]?) (hsome (List.range n) fun j hj => h j (List.mem_range.mp hj))
  obtain ⟨b, hb⟩ := Option.isSome_iff_exists.mp (h i hi)
  simpa [List.getElem?_map, List.getElem?_range hi, hb] using hget

/-- The elements of a list in the order of a schedule are the elements of the list. -/
lemma order_filterMap_perm {α : Type} (schedule : Schedule) (l : List α) :
    ((schedule.order l.length).filterMap (l[·]?)).Perm l := by
  have hrange : (List.range l.length).filterMap (l[·]?) = l := by
    refine List.ext_getElem? fun i => ?_
    rcases Nat.lt_or_ge i l.length with hi | hi
    · exact getElem?_range_filterMap (fun j hj => by simp [hj]) hi
    · rw [List.getElem?_eq_none hi, List.getElem?_eq_none]
      exact (List.length_filterMap_le _ _).trans (by rw [List.length_range]; exact hi)
  calc
    ((schedule.order l.length).filterMap (l[·]?)).Perm
        ((List.range l.length).filterMap (l[·]?)) := (schedule.perm l.length).filterMap _
    _ = l := hrange

/-- The elements of a list in the order of a schedule: how a container without an order of its own
is gone over. -/
def Schedule.visit {α : Type} (order : Schedule) (l : List α) : List α :=
  (order.order l.length).filterMap (l[·]?)

lemma Schedule.visit_perm {α : Type} (order : Schedule) (l : List α) : (order.visit l).Perm l :=
  order_filterMap_perm order l

/-- The rule for the jobs that have run so far, whichever they are. -/
lemma foldl_poolStep_rule {jobs : List α} {s : σ} (inv : σ → Prop) (post : σ → Nat → α → β → Prop)
    (hs : inv s)
    (hinv : ∀ s i a, jobs[i]? = some a → inv s →
      inv (exec s i a).1 ∧ post (exec s i a).1 i a (exec s i a).2)
    (hpost : ∀ s i a j a' b', jobs[i]? = some a → jobs[j]? = some a' → i ≠ j → inv s →
      post s j a' b' → post (exec s i a).1 j a' b') (order : List Nat) (hnodup : order.Nodup) :
    inv (order.foldl (poolStep exec jobs) (s, fun _ => none)).1 ∧
      ∀ i ∈ order, ∀ a, jobs[i]? = some a →
        ∃ b, (order.foldl (poolStep exec jobs) (s, fun _ => none)).2 i = some b ∧
          post (order.foldl (poolStep exec jobs) (s, fun _ => none)).1 i a b := by
  -- the induction is on the jobs that have run, the last one first
  induction order using List.reverseRecOn with
  | nil => exact ⟨hs, by simp⟩
  | append_singleton order j ih =>
      obtain ⟨hnodup, -, hdisjoint⟩ := List.nodup_append.mp hnodup
      obtain ⟨hinv', hdone⟩ := ih hnodup
      rw [List.foldl_concat]
      generalize order.foldl (poolStep exec jobs) (s, fun _ => none) = acc at hinv' hdone ⊢
      cases hjob : jobs[j]? with
      | none =>
          simp only [poolStep, hjob]
          refine ⟨hinv', fun i hi a ha => ?_⟩
          rcases List.mem_append.mp hi with hi | hi
          · exact hdone i hi a ha
          · rw [List.mem_singleton.mp hi, hjob] at ha
            cases ha
      | some a' =>
          obtain ⟨hnext, hresult⟩ := hinv acc.1 j a' hjob hinv'
          simp only [poolStep, hjob]
          refine ⟨hnext, fun i hi a ha => ?_⟩
          rcases List.mem_append.mp hi with hi | hi
          · have hne : i ≠ j := hdisjoint i hi j (List.mem_singleton_self j)
            obtain ⟨b, hb, hkept⟩ := hdone i hi a ha
            exact ⟨b, by rw [Function.update_of_ne hne, hb],
              hpost acc.1 j a' i a b hjob ha (Ne.symm hne) hinv' hkept⟩
          · obtain rfl := List.mem_singleton.mp hi
            obtain rfl : a' = a := Option.some.inj (hjob.symm.trans ha)
            exact ⟨_, Function.update_self _ _ _, hresult⟩

/-- **The rule for a pool.**  What each job establishes and no other job destroys holds of its
result once all have run. -/
theorem runPool_rule {schedule : Schedule} {jobs : List α} {s : σ} (inv : σ → Prop)
    (post : σ → Nat → α → β → Prop) (hs : inv s)
    (hinv : ∀ s i a, jobs[i]? = some a → inv s →
      inv (exec s i a).1 ∧ post (exec s i a).1 i a (exec s i a).2)
    (hpost : ∀ s i a j a' b', jobs[i]? = some a → jobs[j]? = some a' → i ≠ j → inv s →
      post s j a' b' → post (exec s i a).1 j a' b') :
    inv (runPool exec schedule jobs s).1 ∧
      ∀ i a, jobs[i]? = some a → ∃ b, (runPool exec schedule jobs s).2[i]? = some b ∧
        post (runPool exec schedule jobs s).1 i a b := by
  have hperm := schedule.perm jobs.length
  obtain ⟨hend, hdone⟩ := foldl_poolStep_rule inv post hs hinv hpost (schedule.order jobs.length)
    (hperm.nodup_iff.mpr List.nodup_range)
  have hran : ∀ j < jobs.length, j ∈ schedule.order jobs.length := fun j hj =>
    hperm.mem_iff.mpr (List.mem_range.mpr hj)
  refine ⟨hend, fun i a hi => ?_⟩
  obtain ⟨hlt, -⟩ := List.getElem?_eq_some_iff.mp hi
  obtain ⟨b, hb, hb'⟩ := hdone i (hran i hlt) a hi
  refine ⟨b, (getElem?_range_filterMap (fun j hj => ?_) hlt).trans hb, hb'⟩
  obtain ⟨b, hb, -⟩ := hdone j (hran j hj) jobs[j] (List.getElem?_eq_getElem hj)
  rw [hb, Option.isSome_some]

lemma length_runPool_le (schedule : Schedule) (jobs : List α) (s : σ) :
    (runPool exec schedule jobs s).2.length ≤ jobs.length := by
  refine (List.length_filterMap_le _ _).trans ?_
  rw [List.length_range]

/-- **Jobs that share no state have the same results in every order.** -/
theorem runPool_stateless {result : Nat → α → β} (hexec : ∀ s i a, (exec s i a).2 = result i a)
    (schedule : Schedule) (jobs : List α) (s : σ) :
    (runPool exec schedule jobs s).2 = jobs.mapIdx result := by
  have hrule : ∀ i a, jobs[i]? = some a → ∃ b, (runPool exec schedule jobs s).2[i]? = some b ∧
      b = result i a :=
    (runPool_rule (fun _ => True) (fun _ i a b => b = result i a) trivial
      (fun s i a _ _ => ⟨trivial, hexec s i a⟩) (fun _ _ _ _ _ _ _ _ _ _ h => h)).2
  refine List.ext_getElem? fun i => ?_
  rw [List.getElem?_mapIdx]
  cases hjob : jobs[i]? with
  | none =>
      refine List.getElem?_eq_none ?_
      exact (length_runPool_le schedule jobs s).trans (List.getElem?_eq_none_iff.mp hjob)
  | some a =>
      obtain ⟨b, hb, rfl⟩ := hrule i a hjob
      exact hb

/-- A result is the result of a job. -/
lemma exists_job_of_result {schedule : Schedule} {jobs : List α} {s : σ} {i : Nat} {b : β}
    (h : (runPool exec schedule jobs s).2[i]? = some b) : ∃ a, jobs[i]? = some a := by
  have hlt := (List.getElem?_eq_some_iff.mp h).1
  exact ⟨_, List.getElem?_eq_getElem (hlt.trans_le (length_runPool_le schedule jobs s))⟩

/-- The part of the rule that is about the state only. -/
lemma runPool_invariant {schedule : Schedule} {jobs : List α} {s : σ} (inv : σ → Prop) (hs : inv s)
    (hinv : ∀ s i a, jobs[i]? = some a → inv s → inv (exec s i a).1) :
    inv (runPool exec schedule jobs s).1 :=
  (runPool_rule inv (fun _ _ _ _ => True) hs (fun s i a hi h => ⟨hinv s i a hi h, trivial⟩)
    (fun _ _ _ _ _ _ _ _ _ _ _ => trivial)).1

end FileGrid
