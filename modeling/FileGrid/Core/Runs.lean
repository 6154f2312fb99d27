import Mathlib.Tactic

/-!
# Runs of a transition function

A system is a state type, a type of events and a function that takes one step; a run is a fold.
`AlongRun` says that a guard, which may look at the state before the step, holds of every step of
a run, and `foldl_invariant` is the induction every invariant of the development is proved by.
-/

namespace FileGrid

variable {σ α : Type}

/-- Every step of the run from `s` along the events meets the guard in the state it is taken. -/
def AlongRun (step : σ → α → σ) (guard : σ → α → Prop) : σ → List α → Prop
  | _, [] => True
  | s, a :: as => guard s a ∧ AlongRun step guard (step s a) as

instance AlongRun.decidable (step : σ → α → σ) (guard : σ → α → Prop)
    [∀ s a, Decidable (guard s a)] : ∀ s as, Decidable (AlongRun step guard s as)
  | _, [] => isTrue trivial
  | s, a :: as =>
      have := AlongRun.decidable step guard (step s a) as
      inferInstanceAs (Decidable (_ ∧ _))

lemma alongRun_append {step : σ → α → σ} {guard : σ → α → Prop} {s : σ} {as bs : List α} :
    AlongRun step guard s (as ++ bs) ↔
      AlongRun step guard s as ∧ AlongRun step guard (as.foldl step s) bs := by
  induction as generalizing s with
  | nil => simp [AlongRun]
  | cons a as ih => simp only [List.cons_append, AlongRun, List.foldl_cons, ih, and_assoc]

/-- Guards that are the same for every event of the run. -/
lemma alongRun_congr_of_mem {step : σ → α → σ} {guard guard' : σ → α → Prop} {as : List α}
    (h : ∀ a ∈ as, ∀ s, guard s a ↔ guard' s a) (s : σ) :
    AlongRun step guard s as ↔ AlongRun step guard' s as := by
  induction as generalizing s with
  | nil => rfl
  | cons a as ih =>
      obtain ⟨ha, has⟩ := List.forall_mem_cons.mp h
      rw [AlongRun, AlongRun, ha, ih has]

/-- Guards that are the same in every state. -/
lemma alongRun_congr {step : σ → α → σ} {guard guard' : σ → α → Prop}
    (h : ∀ s a, guard s a ↔ guard' s a) (s : σ) (as : List α) :
    AlongRun step guard s as ↔ AlongRun step guard' s as :=
  alongRun_congr_of_mem (fun a _ s => h s a) s

/-- A property of the events alone may be added to the guard. -/
lemma AlongRun.and_forall {step : σ → α → σ} {guard : σ → α → Prop} {p : α → Prop} {s : σ}
    {as : List α} (hrun : AlongRun step guard s as) (hp : ∀ a ∈ as, p a) :
    AlongRun step (fun s a => guard s a ∧ p a) s as := by
  induction as generalizing s with
  | nil => trivial
  | cons a as ih =>
      exact ⟨⟨hrun.1, hp a (by simp)⟩, ih hrun.2 fun x hx => hp x (by simp [hx])⟩

/-- **What every guarded step preserves, every guarded run preserves.** -/
theorem foldl_invariant {step : σ → α → σ} {guard : σ → α → Prop} (inv : σ → Prop)
    (hstep : ∀ s a, inv s → guard s a → inv (step s a)) {s : σ} {as : List α} (hs : inv s)
    (hrun : AlongRun step guard s as) : inv (as.foldl step s) := by
  induction as generalizing s with
  | nil => exact hs
  | cons a as ih => exact ih (hstep s a hs hrun.1) hrun.2

/-- **A run keeps an invariant exactly if every step of it meets the guard**, when the guard is what
a step from the invariant needs.  The steps may be known to meet a condition of their own, and a
second invariant that those steps keep may help. -/
theorem forall_reached_iff_of_alongRun {step : σ → α → σ} {pre guard : σ → α → Prop}
    (aux inv : σ → Prop) (haux : ∀ s a, aux s → pre s a → aux (step s a))
    (hstep : ∀ s a, aux s → pre s a → inv s → (inv (step s a) ↔ guard s a)) {s : σ} {as : List α}
    (hpre : AlongRun step pre s as) (hs : aux s) (h : inv s) :
    (∀ before, before <+: as → inv (before.foldl step s)) ↔ AlongRun step guard s as := by
  induction as generalizing s with
  | nil =>
      refine ⟨fun _ => trivial, ?_⟩
      intro _ before hbefore
      rw [List.prefix_nil.mp hbefore]
      exact h
  | cons a as ih =>
      have hiff := hstep s a hs hpre.1 h
      have hs' := haux s a hs hpre.1
      constructor
      · intro hall
        have hnext : inv (step s a) := hall [a] ⟨as, rfl⟩
        refine ⟨hiff.mp hnext, (ih hpre.2 hs' hnext).mp ?_⟩
        intro before hbefore
        exact hall (a :: before) (List.cons_prefix_cons.mpr ⟨rfl, hbefore⟩)
      · rintro ⟨hguard, hrun⟩ before hbefore
        have hnext : inv (step s a) := hiff.mpr hguard
        cases before with
        | nil => exact h
        | cons b before =>
            obtain ⟨rfl, htail⟩ := List.cons_prefix_cons.mp hbefore
            exact (ih hpre.2 hs' hnext).mpr hrun before htail

lemma alongRun_true (step : σ → α → σ) (s : σ) (as : List α) :
    AlongRun step (fun _ _ => True) s as := by
  induction as generalizing s with
  | nil => trivial
  | cons a as ih => exact ⟨trivial, ih (step s a)⟩

/-- The same, of any run. -/
theorem forall_reached_iff {step : σ → α → σ} {guard : σ → α → Prop} (aux inv : σ → Prop)
    (haux : ∀ s a, aux s → aux (step s a))
    (hstep : ∀ s a, aux s → inv s → (inv (step s a) ↔ guard s a)) {s : σ} {as : List α}
    (hs : aux s) (h : inv s) :
    (∀ before, before <+: as → inv (before.foldl step s)) ↔ AlongRun step guard s as :=
  forall_reached_iff_of_alongRun aux inv (fun s a hs _ => haux s a hs)
    (fun s a hs _ h => hstep s a hs h) (alongRun_true step s as) hs h

end FileGrid
