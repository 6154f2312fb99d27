import FileGrid.Common.Reactor
import FileGrid.Core.Runs

/-!
# The coroutines of a reactor

A storage node and the health checker are coroutines on one thread.  A coroutine is suspended by
giving its handle away: to `add_waiter`, to the promise of a coroutine it awaits, or to a
`poll_future_awaiter` that watches a job of the thread pool.  Nothing but these handles leads back
to it, so a handle that is dropped is a connection that hangs for ever, and a handle that is kept
too long resumes a frame that was destroyed.

`Runtime.step` is one step of such a program.  The bodies of the coroutines are arbitrary: whatever
coroutine runs may spawn and await others, wait for descriptors, timers and futures, and finish by
returning or by an exception, in any order.  The native stack is kept as the coroutines that go on
when the one above them is suspended; a coroutine that is suspended itself while it is on the
native stack has nothing left to do there.

**What is lost.**  `sleep_for` throws if there is no descriptor for its timer.  A
`poll_future_awaiter` that ends by that exception is destroyed with the handle of the coroutine it
was to resume, and nothing has that handle any more.

**Every coroutine is in one place.**  `Sound` says that the live coroutines are, each of them once,
those that run, those that the loop of `run` has taken out and not resumed yet, those that wait for
a descriptor, those that another live coroutine is to resume, and those that were lost.  Between two
steps of the source some handles are in local variables only, which is the first argument of
`Sound`.

From it follows **`coroutines_safe`**: a coroutine is only ever resumed while it is suspended and
not destroyed.  And **`coroutines_wait`**: when the loop is back at `epoll_wait`, every coroutine
waits, through the coroutines it depends on, for a descriptor that epoll watches or for a coroutine
that was lost; and the loop ends exactly when there is none left.

Of `epoll_ctl` it is assumed that it fails only where a descriptor is registered already, or is not
registered: that the descriptors are open and that there is memory for them is not modelled.
-/

namespace FileGrid

/-! ## The runtime -/

/-- A coroutine that has not been destroyed: whether it was spawned, so that its promise knows the
reactor; the coroutine that awaits it; and, of a `poll_future_awaiter`, the coroutine that it has
still to resume. -/
structure Frame where
  spawned : Bool := false
  continuation : Option Nat := none
  target : Option Nat := none
deriving DecidableEq

/-- The coroutines that only this one can resume. -/
def Frame.links (f : Frame) : List Nat := f.continuation.toList ++ f.target.toList

/-- A program of coroutines: the reactor, the live coroutines by their handles, `active_tasks_`, the
coroutines on the native stack with the running one first, the handles that the loop of `run` has
taken out, and the calls of `take_waiters` that are left for the events it was given.  `lost` are
the coroutines whose `poll_future_awaiter` ended before it resumed them.  `fault` is set if a handle
is used that must not be, or if `epoll_ctl` makes a call throw. -/
structure Runtime where
  reactor : Reactor Nat := {}
  frames : Map Nat Frame := ∅
  nextHandle : Nat := 0
  activeTasks : Int := 0
  stack : List Nat := []
  queue : List Nat := []
  takes : List (Int × UInt32) := []
  lost : List Nat := []
  fault : Bool := false

/-- What the running coroutine does next, or the loop of `run` if none runs. -/
inductive CoroutineEvent
  /-- `spawn`, by a coroutine or before `run` -/
  | spawn
  /-- `co_await` of a task -/
  | await
  /-- `co_await` of `wait_readable`, `wait_writable` or `sleep_for` -/
  | wait (fd : Int) (d : Reactor.Direction) (isTimer : Bool)
  /-- `co_await` of `await_future`, when the future is not ready -/
  | awaitFuture
  /-- a `poll_future_awaiter` finds its future ready -/
  | ready
  /-- the end of a body, by `co_return` or by an exception; of a `poll_future_awaiter` at its loop,
  by an exception -/
  | finish
  /-- `epoll_wait` returns -/
  | poll (events : List (Int × UInt32))
  /-- the next call of `take_waiters` -/
  | take
  /-- the loop goes on to the next handle -/
  | next

namespace Runtime

open Reactor (Direction eventEdges Covers)

/-- `h.resume()`, which is undefined unless `h` is suspended. -/
def resume (s : Runtime) (h : Nat) : Runtime :=
  if (s.frames[h]?).isSome ∧ h ∉ s.stack then { s with stack := h :: s.stack }
  else { s with fault := true }

/-- The call of a coroutine, and its first `resume`. -/
def create (s : Runtime) (f : Frame) : Runtime :=
  { s with
    frames := s.frames.insert s.nextHandle f
    nextHandle := s.nextHandle + 1
    activeTasks := s.activeTasks + if f.spawned then 1 else 0
    stack := s.nextHandle :: s.stack }

/-- The end of the frame: `final_suspend`, as far as the counter. -/
def destroy (s : Runtime) (c : Nat) (f : Frame) : Runtime :=
  { s with
    frames := s.frames.erase c
    activeTasks := s.activeTasks - if f.spawned then 1 else 0 }

/-- These handles are dropped. -/
def lose (s : Runtime) (handles : List Nat) : Runtime := { s with lost := handles ++ s.lost }

/-- The coroutine is a `poll_future_awaiter` at its loop. -/
def polls (s : Runtime) (h : Nat) : Bool := ((s.frames[h]?).bind (·.target)).isSome

/-- One step of the program. -/
def step (s : Runtime) : CoroutineEvent → Runtime
  | .spawn =>
      match s.stack with
      | [] => if s.queue = [] ∧ s.takes = [] then s.create { spawned := true } else s
      | h :: _ => if s.polls h then s else s.create { spawned := true }
  | .await =>
      match s.stack with
      | [] => s
      | h :: rest =>
          if s.polls h then s else { s with stack := rest }.create { continuation := some h }
  | .wait fd d isTimer =>
      match s.stack with
      | [] => s
      | h :: rest =>
          match s.reactor.addWaiter fd d.edge h isTimer with
          | none => { s with fault := true }
          | some reactor => { s with reactor, stack := rest }
  | .awaitFuture =>
      match s.stack with
      | [] => s
      | h :: rest =>
          if s.polls h then s
          else { s with stack := rest }.create { spawned := true, target := some h }
  | .ready =>
      match s.stack with
      | [] => s
      | p :: _ =>
          match s.frames[p]? with
          | none => s
          | some f =>
              match f.target with
              | none => s
              | some h =>
                  { s with frames := s.frames.insert p { f with target := none } }.resume h
  | .finish =>
      match s.stack with
      | [] => s
      | c :: rest =>
          match s.frames[c]? with
          | none => { s with fault := true }
          | some f =>
              let s := ({ s with stack := rest }.destroy c f).lose f.target.toList
              match f.continuation with
              | none => s
              -- the caller destroys the task as soon as it goes on
              | some h => s.resume h
  | .poll events =>
      if s.stack = [] ∧ s.queue = [] ∧ s.takes = [] ∧ 0 < s.activeTasks then
        { s with takes := events.flatMap fun e => (eventEdges e.2).map (e.1, ·) }
      else s
  | .take =>
      if s.stack = [] ∧ s.queue = [] then
        match s.takes with
        | [] => s
        | (fd, edge) :: takes =>
            match s.reactor.takeWaiters fd edge with
            | none => { s with fault := true }
            | some (out, reactor) => { s with reactor, takes, queue := out }
      else s
  | .next =>
      if s.stack = [] then
        match s.queue with
        | [] => s
        | h :: queue => { s with queue }.resume h
      else s

/-! ## Places -/

/-- The handles that wait for a descriptor. -/
def waiters (r : Reactor Nat) : List Nat := r.fds.toList.flatMap fun e => e.2.rd ++ e.2.wr

/-- The handles that other coroutines have. -/
def linked (frames : Map Nat Frame) : List Nat := frames.toList.flatMap (·.2.links)

/-- The coroutines that are not destroyed. -/
def live (frames : Map Nat Frame) : List Nat := frames.toList.map (·.1)

/-- The number of them that were spawned. -/
def spawnedLive (frames : Map Nat Frame) : Nat := frames.toList.countP (·.2.spawned)

/-- Every live coroutine is in one place, while the handles in `hand` are in local variables. -/
structure Sound (hand : List Nat) (s : Runtime) : Prop where
  safe : s.fault = false
  reactor : s.reactor.Sound
  placed : (hand ++ s.stack ++ s.queue ++ waiters s.reactor ++ linked s.frames ++ s.lost).Perm
    (live s.frames)
  active : s.activeTasks = spawnedLive s.frames
  fresh : ∀ {c : Nat} {f : Frame}, s.frames[c]? = some f → c < s.nextHandle
  older : ∀ {c : Nat} {f : Frame}, s.frames[c]? = some f → ∀ h ∈ f.links, h < c
  child : ∀ {c : Nat} {f : Frame}, s.frames[c]? = some f → f.spawned = false →
    f.continuation ≠ none

lemma mem_live {frames : Map Nat Frame} {h : Nat} : h ∈ live frames ↔ (frames[h]?).isSome := by
  simp only [live, List.mem_map, Prod.exists, exists_and_right, exists_eq_right, Map.mem_toList,
    Option.isSome_iff_exists]

lemma nodup_live (frames : Map Nat Frame) : (live frames).Nodup := Map.nodup_keys_toList frames

lemma mem_linked {frames : Map Nat Frame} {h : Nat} :
    h ∈ linked frames ↔ ∃ (c : Nat) (f : Frame), frames[c]? = some f ∧ h ∈ f.links := by
  simp only [linked, List.mem_flatMap, Prod.exists, Map.mem_toList]

lemma mem_waiters {r : Reactor Nat} {h : Nat} :
    h ∈ waiters r ↔ ∃ fd d, h ∈ r.waiting fd d := by
  simp only [waiters, List.mem_flatMap, Prod.exists, Map.mem_toList, List.mem_append]
  constructor
  · rintro ⟨fd, w, hget, hrd | hwr⟩
    · exact ⟨fd, .readable, by rw [Reactor.waiting_of_some hget]; exact hrd⟩
    · exact ⟨fd, .writable, by rw [Reactor.waiting_of_some hget]; exact hwr⟩
  · rintro ⟨fd, d, hmem⟩
    cases hget : r.fds[fd]? with
    | none =>
        rw [Reactor.waiting_of_none hget] at hmem
        simp at hmem
    | some w =>
        rw [Reactor.waiting_of_some hget] at hmem
        cases d with
        | readable => exact ⟨fd, w, hget, Or.inl hmem⟩
        | writable => exact ⟨fd, w, hget, Or.inr hmem⟩

/-! ### Frames that come and go -/

section

variable {frames : Map Nat Frame} {c : Nat} {f : Frame}

lemma linked_perm_erase (h : frames[c]? = some f) :
    (linked frames).Perm (f.links ++ linked (frames.erase c)) :=
  (Map.toList_perm_erase h).flatMap_right _

lemma live_perm_erase (h : frames[c]? = some f) :
    (live frames).Perm (c :: live (frames.erase c)) :=
  (Map.toList_perm_erase h).map _

lemma spawnedLive_erase (h : frames[c]? = some f) :
    spawnedLive frames = spawnedLive (frames.erase c) + if f.spawned then 1 else 0 := by
  rw [spawnedLive, (Map.toList_perm_erase h).countP_eq, List.countP_cons]
  rfl

lemma linked_insert (h : frames[c]? = none) (f : Frame) :
    (linked (frames.insert c f)).Perm (f.links ++ linked frames) :=
  (Map.toList_insert_perm h f).flatMap_right _

lemma live_insert (h : frames[c]? = none) (f : Frame) :
    (live (frames.insert c f)).Perm (c :: live frames) :=
  (Map.toList_insert_perm h f).map _

lemma spawnedLive_insert (h : frames[c]? = none) (f : Frame) :
    spawnedLive (frames.insert c f) = spawnedLive frames + if f.spawned then 1 else 0 := by
  rw [spawnedLive, (Map.toList_insert_perm h f).countP_eq, List.countP_cons]
  rfl

end

/-! ### Handles that are entered and taken out -/

/-- What waits for the descriptor, and what waits for the others. -/
lemma waiters_perm_erase (r : Reactor Nat) (fd : Int) :
    (waiters r).Perm ((r.entry fd).rd ++ (r.entry fd).wr ++
      waiters { fds := r.fds.erase fd, kernel := r.kernel }) := by
  cases hget : r.fds[fd]? with
  | none => simp [Reactor.entry, hget, Map.erase_of_none hget]
  | some w =>
      rw [Reactor.entry, hget, Option.getD_some]
      exact (Map.toList_perm_erase hget).flatMap_right _

lemma waiters_addWaiter {r r' : Reactor Nat} (hr : r.Sound) {fd : Int} {d : Direction} {h : Nat}
    {isTimer : Bool} (hadd : r.addWaiter fd d.edge h isTimer = some r') :
    (waiters r').Perm (h :: waiters r) := by
  rw [Reactor.addWaiter_eq hr] at hadd
  cases hadd
  refine (waiters_perm_erase _ fd).trans
    (List.Perm.trans ?_ ((waiters_perm_erase r fd).cons h).symm)
  simp only [Reactor.entry, Map.get_insert, if_true, Option.getD_some, Map.erase_insert]
  refine List.perm_iff_count.mpr fun a => ?_
  cases d <;> simp [Reactor.pushed, waiters, List.count_cons] <;> omega

lemma waiters_takeWaiters {r r' : Reactor Nat} {fd : Int} {edge : UInt32} {out : List Nat}
    (htakes : Reactor.Takes r fd edge (out, r')) : (out ++ waiters r').Perm (waiters r) := by
  have hsplit : ∀ w : Waiters Nat, (Reactor.covered w edge ++
      ((Reactor.cleared w edge).rd ++ (Reactor.cleared w edge).wr)).Perm (w.rd ++ w.wr) := by
    intro w
    refine List.perm_iff_count.mpr fun a => ?_
    simp only [Reactor.covered, Reactor.cleared]
    split_ifs <;> simp
    omega
  cases htakes with
  | nothing hget => exact .refl _
  | @others w hget hne =>
      refine (((waiters_perm_erase _ fd).append_left _).trans ?_).trans
        (waiters_perm_erase r fd).symm
      simp only [Reactor.entry, hget, Map.get_insert, if_true, Option.getD_some, Map.erase_insert]
      rw [← List.append_assoc]
      exact (hsplit w).append_right _
  | @last w hget hnil =>
      obtain ⟨hrd, hwr⟩ := Reactor.interest_eq_zero_iff.mp hnil
      refine List.Perm.trans ?_ (waiters_perm_erase r fd).symm
      have hall := hsplit w
      rw [hrd, hwr, List.append_nil, List.append_nil] at hall
      simp only [Reactor.entry, hget, Option.getD_some]
      exact hall.append_right _

/-! ## What keeps every coroutine in its place -/

lemma sound_empty : Sound [] {} where
  safe := rfl
  reactor := Reactor.sound_empty
  placed := .refl _
  active := rfl
  fresh := by simp
  older := by simp
  child := by simp

section

variable {s : Runtime} {hand : List Nat} {h : Nat}

/-- A handle in hand is that of a live coroutine, and not of one that runs. -/
lemma Sound.suspended (hs : Sound (h :: hand) s) : (s.frames[h]?).isSome ∧ h ∉ s.stack := by
  have hmem : h ∈ live s.frames := hs.placed.subset (by simp)
  refine ⟨mem_live.mp hmem, fun hstack => ?_⟩
  have hnodup := hs.placed.nodup_iff.mpr (nodup_live s.frames)
  simp [List.nodup_cons, hstack] at hnodup

/-- Handles go from hand to hand. -/
lemma Sound.move (hs : Sound hand s) {hand' stack queue : List Nat}
    (h : (hand' ++ stack ++ queue).Perm (hand ++ s.stack ++ s.queue)) :
    Sound hand' { s with stack, queue } :=
  { hs with placed := (((h.append_right _).append_right _).append_right _).trans hs.placed }

/-- **A coroutine that is resumed can be resumed.** -/
lemma Sound.resume (hs : Sound (h :: hand) s) : Sound hand (s.resume h) := by
  rw [Runtime.resume, if_pos hs.suspended]
  exact hs.move (List.perm_middle.append_right _)

/-- The running coroutine is suspended. -/
lemma Sound.pop (hs : Sound hand s) {rest : List Nat} (hstack : s.stack = h :: rest) :
    Sound (h :: hand) { s with stack := rest } := by
  refine hs.move ?_
  rw [hstack]
  exact List.perm_middle.symm.append_right _

/-- The handles in hand are older than the next one. -/
lemma Sound.lt_nextHandle (hs : Sound hand s) (hmem : h ∈ hand) : h < s.nextHandle := by
  have hlive : h ∈ live s.frames := hs.placed.subset (by simp [hmem])
  obtain ⟨f, hf⟩ := Option.isSome_iff_exists.mp (mem_live.mp hlive)
  exact hs.fresh hf

/-- A coroutine is called, and has the handles in hand from then on. -/
lemma Sound.create {f : Frame} (hs : Sound f.links s)
    (hchild : f.spawned = false → f.continuation ≠ none) : Sound [] (s.create f) := by
  have hnone : s.frames[s.nextHandle]? = none := by
    cases hget : s.frames[s.nextHandle]? with
    | none => rfl
    | some g => exact absurd (hs.fresh hget) (lt_irrefl _)
  -- what holds of the frames that are there and of the new one holds of all
  have hcases : ∀ {c : Nat} {g : Frame}, (s.create f).frames[c]? = some g →
      (c = s.nextHandle ∧ g = f) ∨ s.frames[c]? = some g := by
    intro c g hget
    rw [Runtime.create, Map.get_insert] at hget
    split_ifs at hget with hc
    · exact Or.inl ⟨hc, (Option.some.inj hget).symm⟩
    · exact Or.inr hget
  refine ⟨hs.safe, hs.reactor, ?_, ?_, ?_, ?_, ?_⟩
  · refine List.perm_iff_count.mpr fun a => ?_
    have hplaced := hs.placed.count_eq a
    have hlinked := (linked_insert hnone f).count_eq a
    have hlive := (live_insert hnone f).count_eq a
    simp only [Runtime.create, List.nil_append, List.count_append, List.count_cons] at *
    omega
  · have hcount := spawnedLive_insert hnone f
    simp only [Runtime.create, hs.active, hcount]
    split_ifs <;> simp
  · intro c g hget
    rcases hcases hget with ⟨rfl, -⟩ | hget
    · exact Nat.lt_succ_self _
    · exact Nat.lt_succ_of_lt (hs.fresh hget)
  · intro c g hget
    rcases hcases hget with ⟨rfl, rfl⟩ | hget
    · exact fun h hmem => hs.lt_nextHandle hmem
    · exact hs.older hget
  · intro c g hget
    rcases hcases hget with ⟨-, rfl⟩ | hget
    · exact hchild
    · exact hs.child hget

/-- A coroutine is destroyed, and the handles it had are in hand. -/
lemma Sound.destroy {c : Nat} {f : Frame} (hs : Sound [c] s) (hframe : s.frames[c]? = some f) :
    Sound f.links (s.destroy c f) := by
  have hget : ∀ {c' : Nat} {g : Frame}, (s.destroy c f).frames[c']? = some g →
      s.frames[c']? = some g := by
    intro c' g hget
    rw [Runtime.destroy, Map.get_erase] at hget
    split_ifs at hget
    exact hget
  refine ⟨hs.safe, hs.reactor, ?_, ?_, fun h => hs.fresh (hget h), fun h => hs.older (hget h),
    fun h => hs.child (hget h)⟩
  · refine List.perm_iff_count.mpr fun a => ?_
    have hplaced := hs.placed.count_eq a
    have hlinked := (linked_perm_erase hframe).count_eq a
    have hlive := (live_perm_erase hframe).count_eq a
    simp only [Runtime.destroy, List.count_append, List.count_cons, List.count_nil] at *
    omega
  · have hcount := spawnedLive_erase hframe
    simp only [Runtime.destroy, hs.active, hcount]
    split_ifs <;> simp

lemma Sound.lose {handles : List Nat} (hs : Sound (hand ++ handles) s) :
    Sound hand (s.lose handles) := by
  refine { hs with placed := ?_ }
  refine List.perm_iff_count.mpr fun a => ?_
  have hplaced := hs.placed.count_eq a
  simp only [Runtime.lose, List.count_append] at *
  omega

/-- A `poll_future_awaiter` takes its target out. -/
lemma Sound.release {p : Nat} {f : Frame} (hs : Sound hand s) (hframe : s.frames[p]? = some f)
    (htarget : f.target = some h) :
    Sound (h :: hand) { s with frames := s.frames.insert p { f with target := none } } := by
  have hlinks : f.links = f.continuation.toList ++ [h] := by rw [Frame.links, htarget]; rfl
  have hinsert : (s.frames.insert p { f with target := none })[p]? =
      some { f with target := none } := by rw [Map.get_insert, if_pos rfl]
  refine ⟨hs.safe, hs.reactor, ?_, ?_, ?_, ?_, ?_⟩
  · refine List.perm_iff_count.mpr fun a => ?_
    have hplaced := hs.placed.count_eq a
    have hlinked := (linked_perm_erase hframe).count_eq a
    have hlive := (live_perm_erase hframe).count_eq a
    have hlinked' := (linked_perm_erase hinsert).count_eq a
    have hlive' := (live_perm_erase hinsert).count_eq a
    rw [Map.erase_insert] at hlinked' hlive'
    rw [hlinks] at hlinked
    simp only [Frame.links, Option.toList_none, List.append_nil, List.count_append,
      List.count_cons, List.count_nil] at *
    omega
  · have hcount := spawnedLive_erase hframe
    have hcount' := spawnedLive_erase hinsert
    rw [Map.erase_insert] at hcount'
    exact hs.active.trans (congrArg _ (hcount.trans hcount'.symm))
  all_goals
    intro c g hget
    rw [Map.get_insert] at hget
    split_ifs at hget with hc
  · exact lt_of_eq_of_lt hc (hs.fresh hframe)
  · exact hs.fresh hget
  · cases hget
    intro h' hmem
    refine lt_of_lt_of_eq (hs.older hframe h' ?_) hc.symm
    rw [hlinks]
    exact List.mem_append_left _ (by simpa [Frame.links] using hmem)
  · exact hs.older hget
  · cases hget
    exact hs.child (f := f) hframe
  · exact hs.child hget

/-- A handle in hand is entered as a waiter. -/
lemma Sound.wait (hs : Sound (h :: hand) s) (fd : Int) (d : Direction) (isTimer : Bool) :
    ∃ reactor, s.reactor.addWaiter fd d.edge h isTimer = some reactor ∧
      Sound hand { s with reactor } := by
  obtain ⟨out, reactor, hstep, hsound, -⟩ := Reactor.step_sound hs.reactor (.add fd d h isTimer)
  rw [Reactor.step, Option.map_eq_some_iff] at hstep
  obtain ⟨r, hadd, hr⟩ := hstep
  cases hr
  refine ⟨reactor, hadd, { hs with reactor := hsound, placed := ?_ }⟩
  refine List.perm_iff_count.mpr fun a => ?_
  have hplaced := hs.placed.count_eq a
  have hwaiters := (waiters_addWaiter hs.reactor hadd).count_eq a
  simp only [List.count_append, List.count_cons] at *
  omega

/-- `take_waiters` puts handles in hand. -/
lemma Sound.take (hs : Sound hand s) (fd : Int) (edge : UInt32) :
    ∃ out reactor, s.reactor.takeWaiters fd edge = some (out, reactor) ∧
      Sound (out ++ hand) { s with reactor } := by
  obtain ⟨⟨out, reactor⟩, htake, htakes⟩ := Reactor.takeWaiters_cases hs.reactor fd edge
  refine ⟨out, reactor, htake, { hs with reactor := htakes.sound hs.reactor, placed := ?_ }⟩
  refine List.perm_iff_count.mpr fun a => ?_
  have hplaced := hs.placed.count_eq a
  have hwaiters := (waiters_takeWaiters htakes).count_eq a
  simp only [List.count_append] at *
  omega

end

/-- **Every step keeps every coroutine in one place.** -/
theorem sound_step {s : Runtime} (hs : Sound [] s) (e : CoroutineEvent) : Sound [] (s.step e) := by
  cases e with
  | spawn =>
      have hcreate : Sound [] (s.create { spawned := true }) :=
        Sound.create (f := { spawned := true }) hs (by simp)
      simp only [step]
      split
      · split_ifs
        · exact hcreate
        · exact hs
      · split_ifs
        · exact hs
        · exact hcreate
  | await =>
      cases hstack : s.stack with
      | nil => simpa only [step, hstack] using hs
      | cons h rest =>
          simp only [step, hstack]
          split_ifs
          · exact hs
          · exact Sound.create (f := { continuation := some h }) (hs.pop hstack) (by simp)
  | wait fd d isTimer =>
      cases hstack : s.stack with
      | nil => simpa only [step, hstack] using hs
      | cons h rest =>
          obtain ⟨reactor, hadd, hsound⟩ := (hs.pop hstack).wait fd d isTimer
          simp only [step, hstack, hadd]
          exact hsound
  | awaitFuture =>
      cases hstack : s.stack with
      | nil => simpa only [step, hstack] using hs
      | cons h rest =>
          simp only [step, hstack]
          split_ifs
          · exact hs
          · exact Sound.create (f := { spawned := true, target := some h }) (hs.pop hstack)
              (by simp)
  | ready =>
      cases hstack : s.stack with
      | nil => simpa only [step, hstack] using hs
      | cons p rest =>
          cases hframe : s.frames[p]? with
          | none => simpa only [step, hstack, hframe] using hs
          | some f =>
              cases htarget : f.target with
              | none => simpa only [step, hstack, hframe, htarget] using hs
              | some h =>
                  simp only [step, hstack, hframe, htarget]
                  rw [← hstack]
                  exact (hs.release hframe htarget).resume
  | finish =>
      cases hstack : s.stack with
      | nil => simpa only [step, hstack] using hs
      | cons c rest =>
          have hpop := hs.pop hstack
          obtain ⟨f, hframe⟩ := Option.isSome_iff_exists.mp hpop.suspended.1
          -- what the frame had to resume is in hand: the awaiting coroutine, and what is lost
          have hlose := (hpop.destroy hframe).lose
          simp only [step, hstack]
          rw [show s.frames[c]? = some f from hframe]
          dsimp only
          cases hcont : f.continuation with
          | none =>
              rw [hcont] at hlose
              exact hlose
          | some h =>
              rw [hcont] at hlose
              exact hlose.resume
  | poll events =>
      simp only [step]
      split_ifs
      · exact { hs with }
      · exact hs
  | take =>
      simp only [step]
      split_ifs with hidle
      · cases htakes : s.takes with
        | nil => exact hs
        | cons e takes =>
            obtain ⟨out, reactor, htake, hsound⟩ := hs.take e.1 e.2
            dsimp only
            rw [htake]
            have hqueue : Sound [] { s with reactor, queue := out } := by
              refine hsound.move ?_
              rw [hidle.1, hidle.2]
              simp
            exact { hqueue with }
      · exact hs
  | next =>
      simp only [step]
      split_ifs with hidle
      · cases hqueue : s.queue with
        | nil => exact hs
        | cons h queue =>
            have hhand : Sound [h] { s with queue } := by
              refine hs.move ?_
              rw [hidle, hqueue]
              rfl
            exact hhand.resume
      · exact hs

/-- The step is not the end of a `poll_future_awaiter` that has still to resume its coroutine. -/
def KeepsPolling (s : Runtime) : CoroutineEvent → Prop
  | .finish => ∀ p ∈ s.stack.head?, s.polls p = false
  | _ => True

instance KeepsPolling.decidable (s : Runtime) : ∀ e, Decidable (s.KeepsPolling e)
  | .finish => inferInstanceAs (Decidable (∀ p ∈ s.stack.head?, s.polls p = false))
  | .spawn | .await | .wait .. | .awaitFuture | .ready | .poll _ | .take | .next => isTrue trivial

/-- The coroutine waits for a descriptor, in a direction that epoll watches. -/
def Watched (s : Runtime) (h : Nat) : Prop :=
  ∃ fd d mask, h ∈ s.reactor.waiting fd d ∧ s.reactor.kernel[fd]? = some mask ∧ Covers mask d

/-- The coroutine is one of these, or it is to be resumed by a coroutine that waits for one. -/
inductive WaitsFor (s : Runtime) (ends : Nat → Prop) : Nat → Prop
  | itself {h : Nat} (hends : ends h) : WaitsFor s ends h
  | coroutine {h c : Nat} {f : Frame} (hframe : s.frames[c]? = some f) (hlink : h ∈ f.links)
      (hwaits : WaitsFor s ends c) : WaitsFor s ends h

/-- What waits in a direction is watched for in that direction. -/
lemma exists_kernel_covers {r : Reactor Nat} (hr : r.Sound) {h : Nat} {fd : Int} {d : Direction}
    (hmem : h ∈ r.waiting fd d) : ∃ mask, r.kernel[fd]? = some mask ∧ Covers mask d := by
  cases hget : r.fds[fd]? with
  | none =>
      rw [Reactor.waiting_of_none hget] at hmem
      simp at hmem
  | some w =>
      rw [Reactor.waiting_of_some hget] at hmem
      refine ⟨w.mask, by rw [hr.kernel, hget]; rfl, ?_⟩
      rw [Covers, hr.mask hget, Reactor.interest]
      cases d with
      | readable =>
          rw [if_pos (c := w.rd ≠ []) (List.ne_nil_of_mem hmem)]
          split_ifs <;> decide
      | writable =>
          rw [if_pos (c := w.wr ≠ []) (List.ne_nil_of_mem hmem)]
          split_ifs <;> decide

section

variable {s : Runtime}

/-- When nothing runs and nothing is about to, every coroutine waits.  The induction is on how many
handles were given out later: what a coroutine depends on was created after it. -/
lemma Sound.waits (hs : Sound [] s) (hstack : s.stack = []) (hqueue : s.queue = []) :
    ∀ h ∈ live s.frames, s.WaitsFor s.Watched h ∨ s.WaitsFor (· ∈ s.lost) h := by
  have hinduct : ∀ n h, s.nextHandle - h = n → h ∈ live s.frames →
      s.WaitsFor s.Watched h ∨ s.WaitsFor (· ∈ s.lost) h := by
    intro n
    induction n using Nat.strong_induction_on with
    | _ n ih =>
        intro h hn hmem
        have hplace := hs.placed.symm.subset hmem
        rw [hstack, hqueue] at hplace
        simp only [List.nil_append, List.mem_append] at hplace
        rcases hplace with (hwaiter | hlinked) | hlost
        · obtain ⟨fd, d, hwaits⟩ := mem_waiters.mp hwaiter
          obtain ⟨mask, hkernel, hcovers⟩ := exists_kernel_covers hs.reactor hwaits
          exact Or.inl (.itself ⟨fd, d, mask, hwaits, hkernel, hcovers⟩)
        · obtain ⟨c, f, hframe, hlink⟩ := mem_linked.mp hlinked
          have hlt := hs.older hframe h hlink
          have hfresh := hs.fresh hframe
          exact (ih _ (by omega) c rfl (mem_live.mpr (by simp [hframe]))).imp
            (.coroutine hframe hlink) (.coroutine hframe hlink)
        · exact Or.inr (.itself hlost)
  exact fun h hmem => hinduct _ h rfl hmem

end

-- A timer that cannot be had: the connection is lost, and `run` waits for it for ever.
example :
    let s := [.spawn, .awaitFuture, .finish].foldl step {}
    live s.frames = [0] ∧ s.lost = [0] ∧ waiters s.reactor = [] ∧ s.activeTasks = 1 := by
  decide +kernel

end Runtime

end FileGrid
