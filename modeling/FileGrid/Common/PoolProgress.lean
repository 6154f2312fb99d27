import FileGrid.Common.ThreadPool
import FileGrid.Core.Unordered

/-!
# Every job is run

`Sound` says where the jobs of a pool are in every state of every run; here is what it says about
whole runs.

**Nothing is started twice, or out of order**: what was accepted is what was started and then what
is queued, and what was started is finished or in the hands of one worker.

**Nothing is left.**  `Enabled` are the steps that are left to the threads that are already there:
no new call, no beginning of the destructor, and no wake-up for no reason.  Each of them lowers
`work` (`work_step`), whoever takes it, so after at most that many steps none is left; and when none
is left, every accepted job is finished and every call has returned or thrown (`rest_of_quiet`).
This is where no wake-up may be lost.  The steps of a job itself are not counted: a job ends.

**`threadPool_runs_jobs`** puts it together.
-/

namespace FileGrid

namespace ThreadPool

/-! ## The work that is left -/

/-- The steps that the threads of the pool can take. -/
def Enabled (s : ThreadPool) : PoolEvent → Prop
  | .submit | .destroy | .wake _ => False
  | .submitLock call => s.submits[call]? = some .locking ∧ s.mutex = none
  | .submitTest call => s.submits[call]? = some .testing
  | .submitPush call => s.submits[call]? = some .pushing
  | .notifyOne call i =>
      s.submits[call]? = some .notifying ∧ (s.workers[i]? = some .waiting ∨ .waiting ∉ s.workers)
  | .workerLock i => s.workers[i]? = some .locking ∧ s.mutex = none
  | .workerTest i => s.workers[i]? = some .testing
  | .workerTake i => s.workers[i]? = some .through
  | .jobEnds i _ => ∃ job, s.workers[i]? = some (.running job)
  | .destructorLock => s.destructor = .locking ∧ s.mutex = none
  | .setStop => s.destructor = .holding
  | .notifyAll => s.destructor = .notifying
  | .join => s.destructor = .joining ∧ ∀ w ∈ s.workers, w = .exited

def workerWork : WorkerPhase → Nat
  | .running _ => 4
  | .locking => 3
  | .testing => 2
  | .through => 1
  | .waiting | .exited => 0

def submitWork : SubmitPhase → Nat
  | .locking => 11
  | .testing => 10
  | .pushing => 9
  | .notifying => 4
  | .returned | .threw => 0

/-- `notify_all` may set all the workers to work again. -/
def destructorWork (workers : Nat) : DestructorPhase → Nat
  | .alive | .done => 0
  | .locking => 3 * workers + 4
  | .holding => 3 * workers + 3
  | .notifying => 3 * workers + 2
  | .joining => 1

/-- How many steps are left, at most. -/
def work (s : ThreadPool) : Nat :=
  (s.workers.map workerWork).sum + (s.submits.map submitWork).sum + 4 * s.jobs.length +
    destructorWork s.workers.length s.destructor

lemma sum_workerWork_notified (workers : List WorkerPhase) :
    ((workers.map notified).map workerWork).sum ≤
      (workers.map workerWork).sum + 3 * workers.length := by
  induction workers with
  | nil => rfl
  | cons w workers ih =>
      have hw : workerWork (notified w) ≤ workerWork w + 3 := by
        cases w <;> simp [notified, workerWork]
      simp only [List.map_cons, List.sum_cons, List.length_cons]
      omega

/-- **Every step lowers the work.** -/
theorem work_step {s : ThreadPool} (h : s.Placed) {e : PoolEvent} (henabled : s.Enabled e) :
    (s.step e).work < s.work := by
  cases e with
  | submit | destroy | wake i => exact henabled.elim
  | submitLock call =>
      rw [Enabled] at henabled
      have hsum := sum_map_set submitWork henabled.1 .testing
      rw [step, if_pos henabled]
      simp only [work, submitWork] at hsum ⊢
      omega
  | submitTest call =>
      rw [Enabled] at henabled
      rw [step, if_pos henabled]
      split_ifs
      · have hsum := sum_map_set submitWork henabled .threw
        simp only [work, submitWork] at hsum ⊢
        omega
      · have hsum := sum_map_set submitWork henabled .pushing
        simp only [work, submitWork] at hsum ⊢
        omega
  | submitPush call =>
      rw [Enabled] at henabled
      have hsum := sum_map_set submitWork henabled .notifying
      rw [step, if_pos henabled]
      simp only [work, submitWork, List.length_append, List.length_singleton] at hsum ⊢
      omega
  | notifyOne call i =>
      obtain ⟨hcall, hwake⟩ := henabled
      have hsum := sum_map_set submitWork hcall .returned
      rw [step, if_pos hcall]
      split_ifs with hworker hnone
      · have hwoken := sum_map_set workerWork hworker .locking
        simp only [work, submitWork, workerWork, List.length_set] at hsum hwoken ⊢
        omega
      · exact absurd hwake (by simp [hworker, hnone])
      · simp only [work, submitWork] at hsum ⊢
        omega
  | workerLock i =>
      rw [Enabled] at henabled
      have hsum := sum_map_set workerWork henabled.1 .testing
      rw [step, if_pos henabled]
      simp only [work, workerWork, List.length_set] at hsum ⊢
      omega
  | workerTest i =>
      rw [Enabled] at henabled
      rw [step, if_pos henabled]
      split_ifs
      · have hsum := sum_map_set workerWork henabled .through
        simp only [work, workerWork, List.length_set] at hsum ⊢
        omega
      · have hsum := sum_map_set workerWork henabled .waiting
        simp only [work, workerWork, List.length_set] at hsum ⊢
        omega
  | workerTake i =>
      rw [Enabled] at henabled
      rw [step, if_pos henabled]
      split_ifs with hexit
      · have hsum := sum_map_set workerWork henabled .exited
        simp only [work, workerWork, List.length_set] at hsum ⊢
        omega
      · split
        · rename_i hjobs
          exact absurd ⟨(h.through henabled).resolve_right (not_not.mpr hjobs), hjobs⟩ hexit
        · rename_i job jobs hjobs
          have hsum := sum_map_set workerWork henabled (.running job)
          simp only [work, workerWork, hjobs, List.length_set, List.length_cons] at hsum ⊢
          omega
  | jobEnds i result =>
      obtain ⟨job, hworker⟩ := henabled
      have hsum := sum_map_set workerWork hworker .locking
      rw [step, hworker]
      simp only [work, workerWork, List.length_set] at hsum ⊢
      omega
  | destructorLock =>
      rw [Enabled] at henabled
      rw [step, if_pos henabled]
      simp only [work, henabled.1, destructorWork]
      omega
  | setStop =>
      rw [Enabled] at henabled
      rw [step, if_pos henabled]
      simp only [work, henabled, destructorWork]
      omega
  | notifyAll =>
      rw [Enabled] at henabled
      have hsum := sum_workerWork_notified s.workers
      rw [step, if_pos henabled]
      simp only [work, henabled, destructorWork]
      omega
  | join =>
      rw [Enabled] at henabled
      rw [step, if_pos henabled]
      simp only [work, henabled.1, destructorWork]
      omega

/-! ## When nothing is left to do -/

lemma enabled_of_holds {s : ThreadPool} {t : PoolThread} (h : s.Holds t) : ∃ e, s.Enabled e := by
  cases t with
  | worker i =>
      obtain ⟨w, hget, hholds⟩ := h
      cases w with
      | testing => exact ⟨.workerTest i, hget⟩
      | through => exact ⟨.workerTake i, hget⟩
      | _ => cases hholds
  | submit call =>
      obtain ⟨p, hget, hholds⟩ := h
      cases p with
      | testing => exact ⟨.submitTest call, hget⟩
      | pushing => exact ⟨.submitPush call, hget⟩
      | _ => cases hholds
  | destructor => exact ⟨.setStop, h⟩

section Quiet

variable {s : ThreadPool} (h : s.Sound) (hquiet : ∀ e, ¬ s.Enabled e)

include h hquiet

lemma mutex_of_quiet : s.mutex = none := by
  cases hmutex : s.mutex with
  | none => rfl
  | some t =>
      obtain ⟨e, he⟩ := enabled_of_holds ((h.exclusive t).mpr hmutex)
      exact absurd he (hquiet e)

/-- A worker waits or has left. -/
lemma asleep_of_quiet {w : WorkerPhase} (hw : w ∈ s.workers) : w = .waiting ∨ w = .exited := by
  obtain ⟨i, hget⟩ := List.mem_iff_getElem?.mp hw
  cases w with
  | waiting => exact Or.inl rfl
  | exited => exact Or.inr rfl
  | locking => exact absurd ⟨hget, mutex_of_quiet h hquiet⟩ (hquiet (.workerLock i))
  | testing => exact absurd hget (hquiet (.workerTest i))
  | through => exact absurd hget (hquiet (.workerTake i))
  | running job => exact absurd ⟨job, hget⟩ (hquiet (.jobEnds i .value))

/-- A call has returned or thrown. -/
lemma returned_of_quiet {p : SubmitPhase} (hp : p ∈ s.submits) : p = .returned ∨ p = .threw := by
  obtain ⟨call, hget⟩ := List.mem_iff_getElem?.mp hp
  cases p with
  | returned => exact Or.inl rfl
  | threw => exact Or.inr rfl
  | locking => exact absurd ⟨hget, mutex_of_quiet h hquiet⟩ (hquiet (.submitLock call))
  | testing => exact absurd hget (hquiet (.submitTest call))
  | pushing => exact absurd hget (hquiet (.submitPush call))
  | notifying =>
      -- one that waits can be woken, and if none waits there is nothing to do
      by_cases hwaiting : .waiting ∈ s.workers
      · obtain ⟨i, hi⟩ := List.mem_iff_getElem?.mp hwaiting
        exact absurd ⟨hget, Or.inl hi⟩ (hquiet (.notifyOne call i))
      · exact absurd ⟨hget, Or.inr hwaiting⟩ (hquiet (.notifyOne call 0))

/-- **Nothing is left**: no job is queued and none is being run. -/
theorem rest_of_quiet : s.jobs = [] ∧ s.running = [] := by
  constructor
  · by_contra hjobs
    rcases h.attended hjobs with ⟨w, hw, hawake⟩ | hnotifying
    · rcases asleep_of_quiet h hquiet hw with rfl | rfl <;> cases hawake
    · rcases returned_of_quiet h hquiet hnotifying with hp | hp <;> cases hp
  · rw [running, List.filterMap_eq_nil_iff]
    intro w hw
    rcases asleep_of_quiet h hquiet hw with rfl | rfl <;> rfl

/-- The destructor has not begun or has joined all the workers. -/
theorem destructor_of_quiet : s.destructor = .alive ∨ s.destructor = .done := by
  cases hdestructor : s.destructor with
  | alive => exact Or.inl rfl
  | done => exact Or.inr rfl
  | locking => exact absurd ⟨hdestructor, mutex_of_quiet h hquiet⟩ (hquiet .destructorLock)
  | holding => exact absurd hdestructor (hquiet .setStop)
  | notifying => exact absurd hdestructor (hquiet .notifyAll)
  | joining =>
      refine absurd ⟨hdestructor, fun w hw => ?_⟩ (hquiet .join)
      rcases asleep_of_quiet h hquiet hw with rfl | rfl
      · obtain ⟨i, hget⟩ := List.mem_iff_getElem?.mp hw
        exact absurd hdestructor (h.placed.waiting hget).1
      · rfl

end Quiet

/-! ## Runs -/

lemma Sound.finished_perm {s : ThreadPool} (h : s.Sound) (hjobs : s.jobs = [])
    (hrunning : s.running = []) : (s.finished.map (·.1)).Perm s.accepted := by
  have hexecuted := h.accounted.executed
  rw [hrunning, List.append_nil] at hexecuted
  rw [h.accounted.order, hjobs, List.append_nil]
  exact hexecuted.symm

/-- **A stopped pool accepts nothing.** -/
lemma accepted_of_stop {s : ThreadPool} (h : s.Sound) (hstop : s.stop = true) (e : PoolEvent) :
    (s.step e).stop = true ∧ (s.step e).accepted = s.accepted := by
  have heffect := effect_step s e
  generalize s.step e = s' at heffect ⊢
  cases heffect with
  | pushes hcall =>
      rw [h.placed.pushing hcall] at hstop
      cases hstop
  | stops hdestructor => exact ⟨rfl, rfl⟩
  | _ => exact ⟨hstop, rfl⟩

lemma accepted_foldl_of_stop {s : ThreadPool} (h : s.Sound) (hstop : s.stop = true)
    (later : List PoolEvent) : (later.foldl step s).accepted = s.accepted := by
  induction later generalizing s with
  | nil => rfl
  | cons e later ih =>
      obtain ⟨hnext, haccepted⟩ := accepted_of_stop h hstop e
      exact (ih (sound_step h e) hnext).trans haccepted

lemma sound_foldl {s : ThreadPool} (h : s.Sound) (events : List PoolEvent) :
    (events.foldl step s).Sound :=
  List.foldlRecOn events step h fun _ hs e _ => sound_step hs e

/-- **The pool runs every accepted job exactly once**, whatever the number of workers and the order
of the steps.  In every state that is reached,

* the jobs that were accepted are all different, and they are those that were started, in this
  order, and then those that are queued; those that are finished are some of the started ones, each
  of them once;
* the job of a call that returned a future was accepted, and that of a call that threw was not;
* the front of an empty queue was never taken;
* once the pool is stopped, nothing is accepted any more;
* when all the workers have left, the queue is empty and the accepted jobs are finished, each of
  them once;
* and the threads can take only so many steps before none is left, and when none is left the
  accepted jobs are finished, each of them once, and the destructor, if it was called, is done. -/
theorem threadPool_runs_jobs {n : Nat} (hn : 1 ≤ n) (events : List PoolEvent) :
    let s := events.foldl step (start n)
    (s.accepted.Nodup ∧ s.accepted = s.started ++ s.jobs ∧
      s.started.Perm (s.finished.map (·.1) ++ s.running)) ∧
    (∀ call : Nat, (s.submits[call]? = some .returned → call ∈ s.accepted) ∧
      (s.submits[call]? = some .threw → call ∉ s.accepted)) ∧
    s.underflow = false ∧
    (s.stop = true → ∀ later : List PoolEvent, (later.foldl step s).accepted = s.accepted) ∧
    ((∀ w ∈ s.workers, w = .exited) →
      s.jobs = [] ∧ (s.finished.map (·.1)).Perm s.accepted) ∧
    (∀ later, AlongRun step Enabled s later → later.length ≤ s.work) ∧
    ((∀ e, ¬ s.Enabled e) → (s.finished.map (·.1)).Perm s.accepted ∧
      (s.destructor = .alive ∨ s.destructor = .done)) := by
  intro s
  have h : s.Sound := sound_foldl (sound_start hn) events
  refine ⟨⟨h.accounted.nodup, h.accounted.order, h.accounted.executed⟩, ?_, h.placed.underflow,
    ?_, ?_, ?_, ?_⟩
  · intro call
    rw [h.accounted.accepted]
    exact ⟨fun hget => ⟨_, hget, rfl⟩, fun hget => by simp [hget, submitAccepted]⟩
  · intro hstop later
    exact accepted_foldl_of_stop h hstop later
  · intro hall
    obtain ⟨w, hw⟩ := List.exists_mem_of_ne_nil _ h.workers
    obtain ⟨i, hget⟩ := List.mem_iff_getElem?.mp hw
    have hjobs : s.jobs = [] := (h.placed.exited (hall w hw ▸ hget)).2
    refine ⟨hjobs, h.finished_perm hjobs ?_⟩
    rw [running, List.filterMap_eq_nil_iff]
    intro w hw
    rw [hall w hw]
    rfl
  · intro later hrun
    exact length_le_of_decreasing Sound (fun s e hs => sound_step hs e) work
      (fun s e hs he => work_step hs.placed he) h hrun
  · intro hquiet
    obtain ⟨hjobs, hrunning⟩ := rest_of_quiet h hquiet
    exact ⟨h.finished_perm hjobs hrunning, destructor_of_quiet h hquiet⟩

/-- Two workers and two jobs, of which the one that was accepted first throws and is finished last;
a call that comes after the stop; and the destructor. -/
def twoJobs : List PoolEvent :=
  [.workerLock 1, .workerTest 1, .submit, .submit, .submitLock 1, .submitTest 1, .submitPush 1,
    .workerLock 0, .workerTest 0, .workerTake 0, .notifyOne 1 1, .submitLock 0, .submitTest 0,
    .submitPush 0, .notifyOne 0 0, .workerLock 1, .workerTest 1, .workerTake 1, .destroy,
    .destructorLock, .setStop, .submit, .submitLock 2, .submitTest 2, .jobEnds 1 .value,
    .notifyAll, .jobEnds 0 .exception, .workerLock 0, .workerTest 0, .workerTake 0, .workerLock 1,
    .workerTest 1, .workerTake 1, .join]

theorem threadPool_runs_twoJobs :
    let s := twoJobs.foldl step (start 2)
    (s.finished = [(0, .value), (1, .exception)] ∧ s.accepted = [1, 0] ∧
      s.submits = [.returned, .returned, .threw] ∧ s.destructor = .done) ∧
    s.jobs = [] ∧ (s.finished.map (·.1)).Perm s.accepted :=
  ⟨by decide +kernel,
    (threadPool_runs_jobs (by decide) twoJobs).2.2.2.2.1 (by decide +kernel)⟩

end ThreadPool

end FileGrid
