import FileGrid.Core.Threads

/-!
# The thread pool

`dfg::ThreadPool` runs the transfers of an upload, the fetches of a download and the file operations
of a node.  `submit` puts a job into a queue and wakes a worker, the workers take jobs from the
front, and the destructor raises `stop_`, wakes everybody and joins the workers.

**Steps.**  Any number of threads call `submit`, and their steps, those of the workers and those of
the destructor are taken in any order.  A step is what a thread does between two points at which
another may get in: it takes the mutex; it does what it does under the mutex, a test and an action
as two steps; or it notifies, which is done without the mutex.  A worker that waits is woken by a
notification or for no reason.  A job ends with a value or with an exception; `packaged_task` keeps
the one as it keeps the other, so the worker goes on.

**What the mutex is for.**  A worker that has found the queue not empty takes its front a step
later, and a `submit` that has found the pool not stopped pushes a step later; in between nobody
else can take a job or stop the pool, because the thread that holds the mutex is the one that the
mutex says (`Exclusive`).  Without it the worker would take the front of an empty queue, which is
recorded here as `underflow`.

**What is accounted for.**  `accepted`, `started` and `finished` are not of the source: they are the
jobs that were pushed, taken and completed so far, in order.

* `order_step` — what was accepted is what was started and then what is queued.
* `executed_step` — what was started is finished or being run by one worker.
* `attended_step` — no wake-up is lost: while there are jobs, a worker is awake or a notification
  is still to come.
-/

namespace FileGrid

/-- Where a worker is in `worker_loop`. -/
inductive WorkerPhase
  /-- At the mutex, at the beginning of a turn or back from the wait. -/
  | locking
  /-- It has the mutex and is about to test for what it waits. -/
  | testing
  /-- It has the mutex, and the test succeeded. -/
  | through
  | waiting
  | running (job : Nat)
  | exited
deriving DecidableEq

/-- Where a call of `submit` is. -/
inductive SubmitPhase
  | locking
  /-- It has the mutex and is about to look at `stop_`. -/
  | testing
  /-- It has the mutex, and the pool is not stopped. -/
  | pushing
  | notifying
  /-- The caller has the future. -/
  | returned
  | threw
deriving DecidableEq

/-- Where the destructor is. -/
inductive DestructorPhase
  | alive
  | locking
  | holding
  | notifying
  | joining
  | done
deriving DecidableEq

inductive PoolThread
  | worker (i : Nat)
  | submit (call : Nat)
  | destructor
deriving DecidableEq

/-- How a job ends. -/
inductive JobResult
  | value
  | exception
deriving DecidableEq

/-- The pool and the threads that use it.  A job is named by the number of the call that submits
it. -/
structure ThreadPool where
  workers : List WorkerPhase
  jobs : List Nat := []
  stop : Bool := false
  /-- Who holds the mutex. -/
  mutex : Option PoolThread := none
  submits : List SubmitPhase := []
  destructor : DestructorPhase := .alive
  accepted : List Nat := []
  started : List Nat := []
  finished : List (Nat × JobResult) := []
  /-- A worker has asked for the front of an empty queue. -/
  underflow : Bool := false

inductive PoolEvent
  /-- A thread calls `submit`. -/
  | submit
  | submitLock (call : Nat)
  | submitTest (call : Nat)
  | submitPush (call : Nat)
  /-- `notify_one`, with the worker that is woken, if one waits. -/
  | notifyOne (call i : Nat)
  | workerLock (i : Nat)
  | workerTest (i : Nat)
  | workerTake (i : Nat)
  | jobEnds (i : Nat) (result : JobResult)
  /-- A worker is woken for no reason. -/
  | wake (i : Nat)
  | destroy
  | destructorLock
  | setStop
  | notifyAll
  | join

namespace ThreadPool

/-- A pool of `n` workers, none of which has done anything. -/
def start (n : Nat) : ThreadPool := { workers := List.replicate n .locking }

/-- A worker after `notify_all`. -/
def notified : WorkerPhase → WorkerPhase
  | .waiting => .locking
  | w => w

/-- A step; a step that cannot be taken leaves everything as it is. -/
def step (s : ThreadPool) : PoolEvent → ThreadPool
  | .submit => { s with submits := s.submits ++ [.locking] }
  | .submitLock call =>
      if s.submits[call]? = some .locking ∧ s.mutex = none then
        { s with mutex := some (.submit call), submits := s.submits.set call .testing }
      else s
  | .submitTest call =>
      if s.submits[call]? = some .testing then
        if s.stop then { s with mutex := none, submits := s.submits.set call .threw }
        else { s with submits := s.submits.set call .pushing }
      else s
  | .submitPush call =>
      if s.submits[call]? = some .pushing then
        { s with
          jobs := s.jobs ++ [call]
          accepted := s.accepted ++ [call]
          mutex := none
          submits := s.submits.set call .notifying }
      else s
  | .notifyOne call i =>
      if s.submits[call]? = some .notifying then
        if s.workers[i]? = some .waiting then
          { s with workers := s.workers.set i .locking, submits := s.submits.set call .returned }
        -- it is the kernel that chooses, but it chooses one that waits
        else if .waiting ∉ s.workers then { s with submits := s.submits.set call .returned }
        else s
      else s
  | .workerLock i =>
      if s.workers[i]? = some .locking ∧ s.mutex = none then
        { s with mutex := some (.worker i), workers := s.workers.set i .testing }
      else s
  | .workerTest i =>
      if s.workers[i]? = some .testing then
        if s.stop ∨ s.jobs ≠ [] then { s with workers := s.workers.set i .through }
        else { s with mutex := none, workers := s.workers.set i .waiting }
      else s
  | .workerTake i =>
      if s.workers[i]? = some .through then
        if s.stop ∧ s.jobs = [] then
          { s with mutex := none, workers := s.workers.set i .exited }
        else
          match s.jobs with
          -- `front` of an empty queue
          | [] => { s with underflow := true }
          | job :: jobs =>
              { s with
                jobs
                started := s.started ++ [job]
                mutex := none
                workers := s.workers.set i (.running job) }
      else s
  | .jobEnds i result =>
      match s.workers[i]? with
      | some (.running job) =>
          { s with
            finished := s.finished ++ [(job, result)]
            workers := s.workers.set i .locking }
      | _ => s
  | .wake i =>
      if s.workers[i]? = some .waiting then { s with workers := s.workers.set i .locking } else s
  | .destroy => if s.destructor = .alive then { s with destructor := .locking } else s
  | .destructorLock =>
      if s.destructor = .locking ∧ s.mutex = none then
        { s with mutex := some .destructor, destructor := .holding }
      else s
  | .setStop =>
      if s.destructor = .holding then
        { s with stop := true, mutex := none, destructor := .notifying }
      else s
  | .notifyAll =>
      if s.destructor = .notifying then
        { s with workers := s.workers.map notified, destructor := .joining }
      else s
  | .join =>
      if s.destructor = .joining ∧ ∀ w ∈ s.workers, w = .exited then { s with destructor := .done }
      else s

/-- **Everything an event can do.** -/
inductive Effect (s : ThreadPool) : PoolEvent → ThreadPool → Prop
  | idle {e} : Effect s e s
  | calls : Effect s .submit { s with submits := s.submits ++ [.locking] }
  | locksSubmit {call} (h : s.submits[call]? = some .locking) (hfree : s.mutex = none) :
      Effect s (.submitLock call)
        { s with mutex := some (.submit call), submits := s.submits.set call .testing }
  | refuses {call} (h : s.submits[call]? = some .testing) (hstop : s.stop = true) :
      Effect s (.submitTest call) { s with mutex := none, submits := s.submits.set call .threw }
  | admits {call} (h : s.submits[call]? = some .testing) (hstop : s.stop = false) :
      Effect s (.submitTest call) { s with submits := s.submits.set call .pushing }
  | pushes {call} (h : s.submits[call]? = some .pushing) :
      Effect s (.submitPush call)
        { s with
          jobs := s.jobs ++ [call]
          accepted := s.accepted ++ [call]
          mutex := none
          submits := s.submits.set call .notifying }
  | notifies {call i} (h : s.submits[call]? = some .notifying)
      (hworker : s.workers[i]? = some .waiting) :
      Effect s (.notifyOne call i)
        { s with workers := s.workers.set i .locking, submits := s.submits.set call .returned }
  | notifiesNone {call i} (h : s.submits[call]? = some .notifying)
      (hnone : .waiting ∉ s.workers) :
      Effect s (.notifyOne call i) { s with submits := s.submits.set call .returned }
  | locks {i} (h : s.workers[i]? = some .locking) (hfree : s.mutex = none) :
      Effect s (.workerLock i)
        { s with mutex := some (.worker i), workers := s.workers.set i .testing }
  | passes {i} (h : s.workers[i]? = some .testing) (hpred : s.stop = true ∨ s.jobs ≠ []) :
      Effect s (.workerTest i) { s with workers := s.workers.set i .through }
  | waits {i} (h : s.workers[i]? = some .testing) (hstop : s.stop = false) (hjobs : s.jobs = []) :
      Effect s (.workerTest i) { s with mutex := none, workers := s.workers.set i .waiting }
  | exits {i} (h : s.workers[i]? = some .through) (hstop : s.stop = true) (hjobs : s.jobs = []) :
      Effect s (.workerTake i) { s with mutex := none, workers := s.workers.set i .exited }
  | underflows {i} (h : s.workers[i]? = some .through) (hstop : s.stop = false)
      (hjobs : s.jobs = []) : Effect s (.workerTake i) { s with underflow := true }
  | starts {i job jobs} (h : s.workers[i]? = some .through) (hjobs : s.jobs = job :: jobs) :
      Effect s (.workerTake i)
        { s with
          jobs
          started := s.started ++ [job]
          mutex := none
          workers := s.workers.set i (.running job) }
  | ends {i job} (result) (h : s.workers[i]? = some (.running job)) :
      Effect s (.jobEnds i result)
        { s with
          finished := s.finished ++ [(job, result)]
          workers := s.workers.set i .locking }
  | wakes {i} (h : s.workers[i]? = some .waiting) :
      Effect s (.wake i) { s with workers := s.workers.set i .locking }
  | destroys (h : s.destructor = .alive) : Effect s .destroy { s with destructor := .locking }
  | locksDestructor (h : s.destructor = .locking) (hfree : s.mutex = none) :
      Effect s .destructorLock { s with mutex := some .destructor, destructor := .holding }
  | stops (h : s.destructor = .holding) :
      Effect s .setStop { s with stop := true, mutex := none, destructor := .notifying }
  | notifiesAll (h : s.destructor = .notifying) :
      Effect s .notifyAll { s with workers := s.workers.map notified, destructor := .joining }
  | joins (h : s.destructor = .joining) (hall : ∀ w ∈ s.workers, w = .exited) :
      Effect s .join { s with destructor := .done }

/-- **What an event does**, whatever the state. -/
theorem effect_step (s : ThreadPool) (e : PoolEvent) : Effect s e (s.step e) := by
  cases e with
  | submit => exact .calls
  | submitLock call =>
      rw [step]
      split_ifs with h
      · exact .locksSubmit h.1 h.2
      · exact .idle
  | submitTest call =>
      rw [step]
      split_ifs with h hstop
      · exact .refuses h hstop
      · exact .admits h (by simpa using hstop)
      · exact .idle
  | submitPush call =>
      rw [step]
      split_ifs with h
      · exact .pushes h
      · exact .idle
  | notifyOne call i =>
      rw [step]
      split_ifs with h hworker hnone
      · exact .notifies h hworker
      · exact .idle
      · exact .notifiesNone h hnone
      · exact .idle
  | workerLock i =>
      rw [step]
      split_ifs with h
      · exact .locks h.1 h.2
      · exact .idle
  | workerTest i =>
      rw [step]
      split_ifs with h hpred
      · exact .passes h hpred
      · rw [not_or] at hpred
        exact .waits h (by simpa using hpred.1) (by simpa using hpred.2)
      · exact .idle
  | workerTake i =>
      rw [step]
      split_ifs with h hexit
      · exact .exits h hexit.1 hexit.2
      · split
        · rename_i hjobs
          exact .underflows h (by simpa [hjobs] using hexit) hjobs
        · rename_i job jobs hjobs
          exact .starts h hjobs
      · exact .idle
  | jobEnds i result =>
      rw [step]
      split
      · rename_i job h
        exact .ends result h
      · exact .idle
  | wake i =>
      rw [step]
      split_ifs with h
      · exact .wakes h
      · exact .idle
  | destroy =>
      rw [step]
      split_ifs with h
      · exact .destroys h
      · exact .idle
  | destructorLock =>
      rw [step]
      split_ifs with h
      · exact .locksDestructor h.1 h.2
      · exact .idle
  | setStop =>
      rw [step]
      split_ifs with h
      · exact .stops h
      · exact .idle
  | notifyAll =>
      rw [step]
      split_ifs with h
      · exact .notifiesAll h
      · exact .idle
  | join =>
      rw [step]
      split_ifs with h
      · exact .joins h.1 h.2
      · exact .idle

/-! ## Mutual exclusion -/

/-- The worker is between the lock of its turn and the end of it. -/
def workerHolds : WorkerPhase → Bool
  | .testing | .through => true
  | _ => false

def submitHolds : SubmitPhase → Bool
  | .testing | .pushing => true
  | _ => false

/-- The thread is where it holds the mutex. -/
def Holds (s : ThreadPool) : PoolThread → Prop
  | .worker i => ∃ w, s.workers[i]? = some w ∧ workerHolds w = true
  | .submit call => ∃ p, s.submits[call]? = some p ∧ submitHolds p = true
  | .destructor => s.destructor = .holding

lemma holds_worker_iff {s : ThreadPool} {i : Nat} {w : WorkerPhase} (h : s.workers[i]? = some w) :
    s.Holds (.worker i) ↔ workerHolds w = true := by
  simp [Holds, h]

lemma holds_submit_iff {s : ThreadPool} {call : Nat} {p : SubmitPhase}
    (h : s.submits[call]? = some p) : s.Holds (.submit call) ↔ submitHolds p = true := by
  simp [Holds, h]

lemma holds_of_setWorker {s s' : ThreadPool} {i : Nat} {w w' : WorkerPhase}
    (h : s.workers[i]? = some w) (hworkers : s'.workers = s.workers.set i w')
    (hsubmits : s'.submits = s.submits) (hdestructor : s'.destructor = s.destructor)
    (t : PoolThread) :
    s'.Holds t ↔ if t = .worker i then workerHolds w' = true else s.Holds t := by
  cases t with
  | worker j =>
      simp only [Holds, hworkers, getElem?_set_of_some h, PoolThread.worker.injEq]
      split_ifs <;> simp
  | submit call => simp [Holds, hsubmits]
  | destructor => simp [Holds, hdestructor]

lemma holds_of_setSubmit {s s' : ThreadPool} {call : Nat} {p p' : SubmitPhase}
    (h : s.submits[call]? = some p) (hsubmits : s'.submits = s.submits.set call p')
    (hworkers : s'.workers = s.workers) (hdestructor : s'.destructor = s.destructor)
    (t : PoolThread) :
    s'.Holds t ↔ if t = .submit call then submitHolds p' = true else s.Holds t := by
  cases t with
  | worker i => simp [Holds, hworkers]
  | submit call' =>
      simp only [Holds, hsubmits, getElem?_set_of_some h, PoolThread.submit.injEq]
      split_ifs <;> simp
  | destructor => simp [Holds, hdestructor]

lemma holds_of_setDestructor {s s' : ThreadPool} (hworkers : s'.workers = s.workers)
    (hsubmits : s'.submits = s.submits) (t : PoolThread) :
    s'.Holds t ↔ if t = .destructor then s'.destructor = .holding else s.Holds t := by
  cases t with
  | worker i => simp [Holds, hworkers]
  | submit call => simp [Holds, hsubmits]
  | destructor => simp [Holds]

/-- Whoever is not on its way to the mutex after `notify_all` is where it was, and does not wait. -/
lemma getElem?_of_notified {workers : List WorkerPhase} {i : Nat} {w : WorkerPhase}
    (h : (workers.map notified)[i]? = some w) (hw : w ≠ .locking) :
    workers[i]? = some w ∧ w ≠ .waiting := by
  rw [List.getElem?_map, Option.map_eq_some_iff] at h
  obtain ⟨w', hget, rfl⟩ := h
  cases w' with
  | waiting => exact absurd rfl hw
  | _ => exact ⟨hget, by simp [notified]⟩

lemma workerHolds_notified (w : WorkerPhase) : workerHolds (notified w) = workerHolds w := by
  cases w <;> rfl

/-- **How the mutex changes hands.** -/
inductive Passes (s s' : ThreadPool) : Prop
  | same (hmutex : s'.mutex = s.mutex) (hholds : ∀ t, s'.Holds t ↔ s.Holds t)
  | acquires (t : PoolThread) (hfree : s.mutex = none) (hmutex : s'.mutex = some t)
      (hholds : ∀ t', s'.Holds t' ↔ t' = t ∨ s.Holds t')
  | releases (t : PoolThread) (hheld : s.Holds t) (hmutex : s'.mutex = none)
      (hholds : ∀ t', s'.Holds t' ↔ t' ≠ t ∧ s.Holds t')

lemma Passes.of_same {s s' : ThreadPool} {t : PoolThread} {c : Prop} (hmutex : s'.mutex = s.mutex)
    (hholds : ∀ t', s'.Holds t' ↔ if t' = t then c else s.Holds t') (hc : c ↔ s.Holds t) :
    Passes s s' := by
  refine .same hmutex fun t' => ?_
  rw [hholds]
  split_ifs with ht
  · rw [ht, hc]
  · rfl

lemma Passes.of_acquires {s s' : ThreadPool} {t : PoolThread} {c : Prop} (hfree : s.mutex = none)
    (hmutex : s'.mutex = some t) (hholds : ∀ t', s'.Holds t' ↔ if t' = t then c else s.Holds t')
    (hc : c) : Passes s s' := by
  refine .acquires t hfree hmutex fun t' => ?_
  rw [hholds]
  split_ifs with ht <;> simp [ht, hc]

lemma Passes.of_releases {s s' : ThreadPool} {t : PoolThread} {c : Prop} (hheld : s.Holds t)
    (hmutex : s'.mutex = none) (hholds : ∀ t', s'.Holds t' ↔ if t' = t then c else s.Holds t')
    (hc : ¬ c) : Passes s s' := by
  refine .releases t hheld hmutex fun t' => ?_
  rw [hholds]
  split_ifs with ht <;> simp [ht, hc]

lemma passes_step (s : ThreadPool) (e : PoolEvent) : Passes s (s.step e) := by
  have heffect := effect_step s e
  generalize s.step e = s' at heffect ⊢
  cases heffect with
  | idle | underflows h hstop hjobs => exact .same rfl fun _ => Iff.rfl
  | calls =>
      refine .same rfl fun t => ?_
      cases t with
      | worker i => rfl
      | destructor => rfl
      | submit call => exact exists_getElem?_concat rfl s.submits call
  | locksSubmit h hfree =>
      exact .of_acquires hfree rfl (holds_of_setSubmit h rfl rfl rfl) rfl
  | refuses h hstop | pushes h =>
      exact .of_releases ((holds_submit_iff h).mpr rfl) rfl (holds_of_setSubmit h rfl rfl rfl)
        (by simp [submitHolds])
  | admits h hstop =>
      exact .of_same rfl (holds_of_setSubmit h rfl rfl rfl) (holds_submit_iff h).symm
  | notifiesNone h hnone =>
      exact .of_same rfl (holds_of_setSubmit h rfl rfl rfl) (holds_submit_iff h).symm
  | @notifies call i h hworker =>
      -- the phases of two threads change, and neither had the mutex
      refine .same rfl fun t => ?_
      let woken : ThreadPool := { s with workers := s.workers.set i .locking }
      have hwoken : woken.Holds t ↔
          if t = .worker i then workerHolds .locking = true else s.Holds t := by
        refine holds_of_setWorker hworker ?_ ?_ ?_ t <;> rfl
      have hboth : ThreadPool.Holds { woken with submits := s.submits.set call .returned } t ↔
          if t = .submit call then submitHolds .returned = true else woken.Holds t := by
        have hcall : woken.submits[call]? = some .notifying := h
        refine holds_of_setSubmit hcall ?_ ?_ ?_ t <;> rfl
      rw [hboth, hwoken]
      split_ifs with hs hw
      · rw [hs, holds_submit_iff h]
        rfl
      · rw [hw, holds_worker_iff hworker]
        rfl
      · rfl
  | locks h hfree =>
      exact .of_acquires hfree rfl (holds_of_setWorker h rfl rfl rfl) rfl
  | passes h hpred =>
      exact .of_same rfl (holds_of_setWorker h rfl rfl rfl) (holds_worker_iff h).symm
  | waits h hstop hjobs | exits h hstop hjobs | starts h hjobs =>
      exact .of_releases ((holds_worker_iff h).mpr rfl) rfl (holds_of_setWorker h rfl rfl rfl)
        (by simp [workerHolds])
  | ends result h =>
      exact .of_same rfl (holds_of_setWorker h rfl rfl rfl) (holds_worker_iff h).symm
  | wakes h =>
      exact .of_same rfl (holds_of_setWorker h rfl rfl rfl) (holds_worker_iff h).symm
  | destroys h | joins h hall =>
      exact .of_same rfl (holds_of_setDestructor rfl rfl) (by simp [Holds, h])
  | locksDestructor h hfree => exact .of_acquires hfree rfl (holds_of_setDestructor rfl rfl) rfl
  | stops h =>
      exact .of_releases (t := .destructor) h rfl (holds_of_setDestructor rfl rfl) (by simp)
  | notifiesAll h =>
      refine .same rfl fun t => ?_
      cases t with
      | worker i =>
          simp only [Holds, List.getElem?_map, Option.map_eq_some_iff]
          constructor
          · rintro ⟨_, ⟨w, hget, rfl⟩, hholds⟩
            exact ⟨w, hget, by rwa [workerHolds_notified] at hholds⟩
          · rintro ⟨w, hget, hholds⟩
            exact ⟨notified w, ⟨w, hget, rfl⟩, by rwa [workerHolds_notified]⟩
      | submit call => rfl
      | destructor => simp [Holds, h]

/-- **The thread that the mutex says holds it, and nobody else.** -/
def Exclusive (s : ThreadPool) : Prop := ∀ t, s.Holds t ↔ s.mutex = some t

lemma Exclusive.eq {s : ThreadPool} (h : s.Exclusive) {t t' : PoolThread} (ht : s.Holds t)
    (ht' : s.Holds t') : t = t' :=
  Option.some.inj (((h t).mp ht).symm.trans ((h t').mp ht'))

theorem exclusive_step {s : ThreadPool} (h : s.Exclusive) (e : PoolEvent) :
    (s.step e).Exclusive := by
  intro t
  cases passes_step s e with
  | same hmutex hholds => rw [hholds, hmutex, h t]
  | acquires t' hfree hmutex hholds =>
      rw [hholds, hmutex, h t, hfree]
      simp [eq_comm]
  | releases t' hheld hmutex hholds =>
      rw [hholds, hmutex]
      simp only [reduceCtorEq, iff_false, not_and]
      exact fun hne hother => hne (h.eq hother hheld)

/-! ## What the phases tell -/

/-- What holds of a thread because of where it is. -/
structure Placed (s : ThreadPool) : Prop where
  through : ∀ {i : Nat}, s.workers[i]? = some .through → s.stop = true ∨ s.jobs ≠ []
  pushing : ∀ {call : Nat}, s.submits[call]? = some .pushing → s.stop = false
  exited : ∀ {i : Nat}, s.workers[i]? = some .exited → s.stop = true ∧ s.jobs = []
  stopped : s.stop = true ↔
    s.destructor = .notifying ∨ s.destructor = .joining ∨ s.destructor = .done
  waiting : ∀ {i : Nat}, s.workers[i]? = some .waiting →
    s.destructor ≠ .joining ∧ s.destructor ≠ .done
  done : s.destructor = .done → ∀ w ∈ s.workers, w = .exited
  underflow : s.underflow = false

/-- A worker that has passed the test finds what it has seen: only the one with the mutex takes. -/
lemma through_step {s : ThreadPool} (hlock : s.Exclusive) (h : s.Placed) (e : PoolEvent) {i : Nat}
    (hthrough : (s.step e).workers[i]? = some .through) :
    (s.step e).stop = true ∨ (s.step e).jobs ≠ [] := by
  have heffect := effect_step s e
  generalize s.step e = s' at heffect hthrough ⊢
  cases heffect with
  | pushes hcall => exact Or.inr (by simp)
  | stops hdestructor => exact Or.inl rfl
  | passes hworker hpred =>
      exact hpred
  | @starts j job jobs hworker hjobs =>
      obtain ⟨hij, hthrough⟩ := getElem?_of_set hworker (by simp) hthrough
      have hother : PoolThread.worker i = .worker j :=
        hlock.eq ((holds_worker_iff hthrough).mpr rfl) ((holds_worker_iff hworker).mpr rfl)
      exact absurd (PoolThread.worker.inj hother) hij
  | notifies hcall hworker | locks hworker hfree | waits hworker hstop hjobs
  | exits hworker hstop hjobs | ends result hworker | wakes hworker =>
      exact h.through (getElem?_of_set hworker (by simp) hthrough).2
  | notifiesAll hdestructor =>
      exact h.through (getElem?_of_notified hthrough (by simp)).1
  | _ => exact h.through hthrough

/-- A call that has found the pool running pushes to a running pool. -/
lemma pushing_step {s : ThreadPool} (hlock : s.Exclusive) (h : s.Placed) (e : PoolEvent)
    {call : Nat} (hpushing : (s.step e).submits[call]? = some .pushing) :
    (s.step e).stop = false := by
  have heffect := effect_step s e
  generalize s.step e = s' at heffect hpushing ⊢
  cases heffect with
  | calls =>
      rw [List.getElem?_append] at hpushing
      split_ifs at hpushing
      · exact h.pushing hpushing
      · simp [List.getElem?_singleton] at hpushing
  | admits hcall hstop => exact hstop
  | locksSubmit hcall hfree | refuses hcall hstop | pushes hcall | notifies hcall hworker
  | notifiesNone hcall hnone =>
      exact h.pushing (getElem?_of_set hcall (by simp) hpushing).2
  | stops hdestructor =>
      have hother : PoolThread.submit call = .destructor :=
        hlock.eq ((holds_submit_iff hpushing).mpr rfl) hdestructor
      cases hother
  | _ => exact h.pushing hpushing

/-- A worker that has left found nothing, and nothing came after it. -/
lemma exited_step {s : ThreadPool} (h : s.Placed) (e : PoolEvent) {i : Nat}
    (hexited : (s.step e).workers[i]? = some .exited) :
    (s.step e).stop = true ∧ (s.step e).jobs = [] := by
  have heffect := effect_step s e
  generalize s.step e = s' at heffect hexited ⊢
  cases heffect with
  | pushes hcall =>
      have hstop := (h.exited hexited).1
      rw [h.pushing hcall] at hstop
      cases hstop
  | exits hworker hstop hjobs => exact ⟨hstop, hjobs⟩
  | stops hdestructor => exact ⟨rfl, (h.exited hexited).2⟩
  | starts hworker hjobs =>
      have hempty := (h.exited (getElem?_of_set hworker (by simp) hexited).2).2
      rw [hjobs] at hempty
      cases hempty
  | notifies hcall hworker | locks hworker hfree | passes hworker hpred
  | waits hworker hstop hjobs | ends result hworker | wakes hworker =>
      exact h.exited (getElem?_of_set hworker (by simp) hexited).2
  | notifiesAll hdestructor =>
      exact h.exited (getElem?_of_notified hexited (by simp)).1
  | _ => exact h.exited hexited

lemma stopped_step {s : ThreadPool} (h : s.Placed) (e : PoolEvent) :
    (s.step e).stop = true ↔ (s.step e).destructor = .notifying ∨
      (s.step e).destructor = .joining ∨ (s.step e).destructor = .done := by
  have hstopped := h.stopped
  have heffect := effect_step s e
  generalize s.step e = s' at heffect ⊢
  cases heffect with
  | stops hdestructor => simp
  | destroys hdestructor | locksDestructor hdestructor hfree | notifiesAll hdestructor
  | joins hdestructor hall =>
      rw [hdestructor] at hstopped
      simpa using hstopped
  | _ => exact hstopped

/-- Nobody waits any more after `notify_all`. -/
lemma waiting_step {s : ThreadPool} (h : s.Placed) (e : PoolEvent) {i : Nat}
    (hwaiting : (s.step e).workers[i]? = some .waiting) :
    (s.step e).destructor ≠ .joining ∧ (s.step e).destructor ≠ .done := by
  have heffect := effect_step s e
  generalize s.step e = s' at heffect hwaiting ⊢
  cases heffect with
  | waits hworker hstop hjobs =>
      have hstopped := h.stopped
      simp only [hstop, Bool.false_eq_true, false_iff, not_or] at hstopped
      exact hstopped.2
  | notifies hcall hworker | locks hworker hfree | passes hworker hpred
  | exits hworker hstop hjobs | starts hworker hjobs | ends result hworker | wakes hworker =>
      exact h.waiting (getElem?_of_set hworker (by simp) hwaiting).2
  | notifiesAll hdestructor =>
      exact absurd rfl (getElem?_of_notified hwaiting (by simp)).2
  | destroys hdestructor | locksDestructor hdestructor hfree | stops hdestructor => simp
  | joins hdestructor hall =>
      have hexited := hall _ (List.mem_of_getElem? hwaiting)
      cases hexited
  | _ => exact h.waiting hwaiting

lemma done_step {s : ThreadPool} (h : s.Placed) (e : PoolEvent)
    (hdone : (s.step e).destructor = .done) : ∀ w ∈ (s.step e).workers, w = .exited := by
  have heffect := effect_step s e
  generalize s.step e = s' at heffect hdone ⊢
  -- no worker takes a step after it has left
  have hnone : ∀ {i : Nat} {w : WorkerPhase}, s.destructor = .done → s.workers[i]? = some w →
      w = .exited := fun hdone hget => h.done hdone _ (List.mem_of_getElem? hget)
  cases heffect with
  | notifies hcall hworker | locks hworker hfree | passes hworker hpred
  | waits hworker hstop hjobs | exits hworker hstop hjobs | starts hworker hjobs
  | ends result hworker | wakes hworker => cases hnone hdone hworker
  | joins hdestructor hall => exact hall
  | destroys hdestructor | locksDestructor hdestructor hfree | stops hdestructor
  | notifiesAll hdestructor => cases hdone
  | _ => exact h.done hdone

/-- **The front is never taken from an empty queue.** -/
lemma underflow_step {s : ThreadPool} (h : s.Placed) (e : PoolEvent) :
    (s.step e).underflow = false := by
  have heffect := effect_step s e
  generalize s.step e = s' at heffect ⊢
  cases heffect with
  | underflows hworker hstop hjobs =>
      rcases h.through hworker with hpred | hpred
      · rw [hstop] at hpred
        cases hpred
      · exact absurd hjobs hpred
  | _ => exact h.underflow

lemma placed_step {s : ThreadPool} (hlock : s.Exclusive) (h : s.Placed) (e : PoolEvent) :
    (s.step e).Placed where
  through := through_step hlock h e
  pushing := pushing_step hlock h e
  exited := exited_step h e
  stopped := stopped_step h e
  waiting := waiting_step h e
  done := done_step h e
  underflow := underflow_step h e

/-! ## Jobs -/

/-- The phases of a call whose job was accepted. -/
def submitAccepted : SubmitPhase → Bool
  | .notifying | .returned => true
  | _ => false

/-- The job that a worker runs. -/
def runningJob : WorkerPhase → Option Nat
  | .running job => some job
  | _ => none

/-- The jobs that are being run. -/
def running (s : ThreadPool) : List Nat := s.workers.filterMap runningJob

/-- **Where the jobs are.** -/
structure Accounted (s : ThreadPool) : Prop where
  accepted : ∀ call, call ∈ s.accepted ↔
    ∃ p, s.submits[call]? = some p ∧ submitAccepted p = true
  nodup : s.accepted.Nodup
  order : s.accepted = s.started ++ s.jobs
  executed : s.started.Perm (s.finished.map (·.1) ++ s.running)

/-- A step of a call, as long as its job is not accepted by it. -/
lemma accepted_of_setSubmit {s : ThreadPool} (h : s.Accounted) {call : Nat} {p p' : SubmitPhase}
    (hcall : s.submits[call]? = some p) (hsame : submitAccepted p' = submitAccepted p)
    (call' : Nat) : call' ∈ s.accepted ↔
      ∃ q, (s.submits.set call p')[call']? = some q ∧ submitAccepted q = true := by
  rw [h.accepted, getElem?_set_of_some hcall]
  split_ifs with heq
  · simp [heq, hcall, hsame]
  · rfl

lemma accepted_step {s : ThreadPool} (h : s.Accounted) (e : PoolEvent) (call : Nat) :
    call ∈ (s.step e).accepted ↔
      ∃ p, (s.step e).submits[call]? = some p ∧ submitAccepted p = true := by
  have heffect := effect_step s e
  generalize s.step e = s' at heffect ⊢
  cases heffect with
  | calls =>
      rw [h.accepted]
      exact (exists_getElem?_concat rfl s.submits call).symm
  | pushes hcall =>
      rw [List.mem_append, List.mem_singleton, h.accepted, getElem?_set_of_some hcall]
      split_ifs with heq
      · simp [heq, submitAccepted]
      · simp [heq]
  | locksSubmit hcall hfree | refuses hcall hstop | admits hcall hstop | notifies hcall hworker
  | notifiesNone hcall hnone =>
      refine accepted_of_setSubmit h hcall ?_ call
      rfl
  | _ => exact h.accepted call

lemma nodup_step {s : ThreadPool} (h : s.Accounted) (e : PoolEvent) :
    (s.step e).accepted.Nodup := by
  have heffect := effect_step s e
  generalize s.step e = s' at heffect ⊢
  cases heffect with
  | @pushes call hcall =>
      have hnew : call ∉ s.accepted := by simp [h.accepted, hcall, submitAccepted]
      exact List.nodup_append.mpr ⟨h.nodup, List.nodup_singleton call, by
        rintro job hjob _ hmem rfl
        rw [List.mem_singleton.mp hmem] at hjob
        exact hnew hjob⟩
  | _ => exact h.nodup

/-- **Jobs are started in the order in which they were accepted**: the queue is what is left of
them. -/
lemma order_step {s : ThreadPool} (h : s.Accounted) (e : PoolEvent) :
    (s.step e).accepted = (s.step e).started ++ (s.step e).jobs := by
  have horder := h.order
  have heffect := effect_step s e
  generalize s.step e = s' at heffect ⊢
  cases heffect with
  | pushes hcall => rw [horder, List.append_assoc]
  | starts hworker hjobs =>
      rw [horder, hjobs]
      simp
  | _ => exact horder

lemma running_of_setWorker {s : ThreadPool} {i : Nat} {w w' : WorkerPhase}
    (hworker : s.workers[i]? = some w) (hold : runningJob w = none) (hnew : runningJob w' = none) :
    s.running.Perm ((s.workers.set i w').filterMap runningJob) := by
  have hperm := perm_filterMap_set runningJob hworker w'
  rw [hold, hnew] at hperm
  exact hperm.symm

/-- **What was started is finished, or is being run by one worker.** -/
lemma executed_step {s : ThreadPool} (h : s.Accounted) (e : PoolEvent) :
    (s.step e).started.Perm ((s.step e).finished.map (·.1) ++ (s.step e).running) := by
  have hexecuted := h.executed
  have heffect := effect_step s e
  generalize s.step e = s' at heffect ⊢
  cases heffect with
  | @starts i job jobs hworker hjobs =>
      have hperm : (s.workers.set i (.running job)).filterMap runningJob |>.Perm
          (job :: s.running) := perm_filterMap_set runningJob hworker (.running job)
      calc s.started ++ [job]
        _ |>.Perm (job :: s.started) := List.perm_append_singleton job s.started
        _ |>.Perm (job :: (s.finished.map (·.1) ++ s.running)) := hexecuted.cons job
        _ |>.Perm (s.finished.map (·.1) ++ job :: s.running) := List.perm_middle.symm
        _ |>.Perm _ := hperm.symm.append_left _
  | @ends i job result hworker =>
      have hperm : (job :: (s.workers.set i .locking).filterMap runningJob).Perm s.running :=
        perm_filterMap_set runningJob hworker .locking
      have hmap : (s.finished ++ [(job, result)]).map (·.1) = s.finished.map (·.1) ++ [job] := by
        simp
      refine hexecuted.trans ?_
      rw [hmap, List.append_assoc]
      exact hperm.symm.append_left _
  | notifies hcall hworker | locks hworker hfree | passes hworker hpred
  | waits hworker hstop hjobs | exits hworker hstop hjobs | wakes hworker =>
      exact hexecuted.trans ((running_of_setWorker hworker rfl rfl).append_left _)
  | notifiesAll hdestructor =>
      have hsame : (s.workers.map notified).filterMap runningJob = s.running := by
        rw [List.filterMap_map, running]
        congr 1
        funext w
        cases w <;> rfl
      exact hexecuted.trans (.of_eq (congrArg (s.finished.map (·.1) ++ ·) hsame.symm))
  | _ => exact hexecuted

lemma accounted_step {s : ThreadPool} (h : s.Accounted) (e : PoolEvent) :
    (s.step e).Accounted where
  accepted := accepted_step h e
  nodup := nodup_step h e
  order := order_step h e
  executed := executed_step h e

/-! ## Wake-ups -/

/-- The worker will come to the mutex by itself. -/
def awake : WorkerPhase → Bool
  | .waiting | .exited => false
  | _ => true

/-- **No wake-up is lost**: somebody will see the jobs. -/
def Attended (s : ThreadPool) : Prop :=
  s.jobs ≠ [] → (∃ w ∈ s.workers, awake w = true) ∨ .notifying ∈ s.submits

lemma awake_of_set {s : ThreadPool} {i : Nat} {w w' : WorkerPhase} (h : s.workers[i]? = some w)
    (hw : awake w' = true) : ∃ x ∈ s.workers.set i w', awake x = true :=
  ⟨w', mem_set_of_some h w', hw⟩

lemma attended_step {s : ThreadPool} (hplaced : s.Placed) (hworkers : s.workers ≠ [])
    (h : s.Attended) (e : PoolEvent) : (s.step e).Attended := by
  have heffect := effect_step s e
  generalize s.step e = s' at heffect ⊢
  intro hjobs
  cases heffect with
  | calls => exact (h hjobs).imp_right fun hmem => List.mem_append_left _ hmem
  | locksSubmit hcall hfree | refuses hcall hstop | admits hcall hstop =>
      exact (h hjobs).imp_right fun hmem => mem_set_of_ne hcall hmem (by simp) _
  | pushes hcall => exact Or.inr (mem_set_of_some hcall _)
  | notifies hcall hworker => exact Or.inl (awake_of_set hworker rfl)
  | notifiesNone hcall hnone =>
      -- there is a worker; it does not wait, and it has not left, since there are jobs
      obtain ⟨w, hw⟩ := List.exists_mem_of_ne_nil _ hworkers
      refine Or.inl ⟨w, hw, ?_⟩
      obtain ⟨i, hi⟩ := List.mem_iff_getElem?.mp hw
      cases w with
      | waiting => exact absurd hw hnone
      | exited => exact absurd (hplaced.exited hi).2 hjobs
      | _ => rfl
  | locks hworker hfree | passes hworker hpred | starts hworker hjobs' | ends result hworker
  | wakes hworker => exact Or.inl (awake_of_set hworker rfl)
  | waits hworker hstop hnil | exits hworker hstop hnil => exact absurd hnil hjobs
  | notifiesAll hdestructor =>
      refine (h hjobs).imp_left ?_
      rintro ⟨w, hw, hawake⟩
      refine ⟨notified w, List.mem_map_of_mem hw, ?_⟩
      cases w <;> first | rfl | exact hawake
  | _ => exact h hjobs

/-! ## Runs -/

/-- What holds in every state of a run. -/
structure Sound (s : ThreadPool) : Prop where
  exclusive : s.Exclusive
  placed : s.Placed
  accounted : s.Accounted
  attended : s.Attended
  workers : s.workers ≠ []

lemma workers_step {s : ThreadPool} (h : s.workers ≠ []) (e : PoolEvent) :
    (s.step e).workers ≠ [] := by
  have heffect := effect_step s e
  generalize s.step e = s' at heffect ⊢
  cases heffect <;> simpa using h

lemma locking_of_start {n i : Nat} {w : WorkerPhase} (h : (start n).workers[i]? = some w) :
    w = .locking :=
  List.eq_of_mem_replicate (List.mem_of_getElem? h)

theorem sound_start {n : Nat} (hn : 1 ≤ n) : (start n).Sound where
  exclusive := by
    intro t
    refine iff_of_false ?_ (by simp [start])
    cases t with
    | worker i =>
        rintro ⟨w, hget, hholds⟩
        rw [locking_of_start hget] at hholds
        cases hholds
    | submit call => simp [Holds, start]
    | destructor => simp [Holds, start]
  placed := by
    refine ⟨fun hget => ?_, by simp [start], fun hget => ?_, by simp [start], by simp [start],
      by simp [start], rfl⟩
    · cases locking_of_start hget
    · cases locking_of_start hget
  accounted :=
    { accepted := by simp [start]
      nodup := List.nodup_nil
      order := rfl
      executed := by simp [start, running, runningJob] }
  attended := fun hjobs => absurd rfl hjobs
  workers := by
    simp only [start, ne_eq, List.replicate_eq_nil_iff]
    omega

theorem sound_step {s : ThreadPool} (h : s.Sound) (e : PoolEvent) : (s.step e).Sound where
  exclusive := exclusive_step h.exclusive e
  placed := placed_step h.exclusive h.placed e
  accounted := accounted_step h.accounted e
  attended := attended_step h.placed h.workers h.attended e
  workers := workers_step h.workers e

end ThreadPool

end FileGrid
