import FileGrid.Core.Map

/-!
# The waiters of the reactor

A coroutine that waits for a descriptor is entered by `add_waiter`, under the descriptor and the
direction it waits for, and the loop of `Reactor::run` takes it out with `take_waiters` when epoll
reports an event.  What is waited for is kept four times: in the two lists of the descriptor, in the
cached mask, and in the interest set of the kernel.

**The four agree.**  `Sound` says that the mask of an entry is what its lists make of it and never
zero, and that the kernel has the entries with their masks.  It is what decides between
`EPOLL_CTL_ADD` and `EPOLL_CTL_MOD`, so as long as it holds the kernel refuses neither: the two
fail on a descriptor that is there, or is not, and `epollAdd` and `epollMod` do so here.  Other
failures of `epoll_ctl` are not modelled.

**Nobody is lost.**  What was added for a descriptor and a direction is, in that order, what the
calls of `take_waiters` that cover the direction have returned, and then what is stored.

**`reactor_bookkeeping`** has both for every sequence of calls.  The edges of `add_waiter` are those
of the three awaiters, `EPOLLIN` or `EPOLLOUT`; those of `take_waiters` are arbitrary.
-/

namespace FileGrid

/-- `EPOLLIN`. -/
def epollIn : UInt32 := 1

/-- `EPOLLOUT`. -/
def epollOut : UInt32 := 4

/-- `Reactor::Waiters`, with handles of any type. -/
structure Waiters (H : Type) where
  rd : List H := []
  wr : List H := []
  mask : UInt32 := 0
  isTimer : Bool := false

/-- `Reactor`: the entries, and the interest set of its epoll instance. -/
structure Reactor (H : Type) where
  fds : Map Int (Waiters H) := ∅
  kernel : Map Int UInt32 := ∅

/-- `EPOLL_CTL_ADD`; `none` is `EEXIST`. -/
def epollAdd (kernel : Map Int UInt32) (fd : Int) (events : UInt32) : Option (Map Int UInt32) :=
  if kernel[fd]?.isSome then none else some (kernel.insert fd events)

/-- `EPOLL_CTL_MOD`; `none` is `ENOENT`. -/
def epollMod (kernel : Map Int UInt32) (fd : Int) (events : UInt32) : Option (Map Int UInt32) :=
  if kernel[fd]?.isSome then some (kernel.insert fd events) else none

namespace Reactor

variable {H : Type}

/-- `ctl_add_or_mod`; `none` is the exception. -/
def ctlAddOrMod (r : Reactor H) (fd : Int) (newmask : UInt32) : Option (Reactor H) :=
  let w := (r.fds[fd]?).getD {}
  (if w.mask = 0 then epollAdd r.kernel fd newmask else epollMod r.kernel fd newmask).map
    fun kernel => { fds := r.fds.insert fd { w with mask := newmask }, kernel }

/-- `add_waiter`; `none` is the exception. -/
def addWaiter (r : Reactor H) (fd : Int) (edge : UInt32) (h : H) (isTimer : Bool) :
    Option (Reactor H) :=
  let w := (r.fds[fd]?).getD {}
  let w := { w with isTimer := w.isTimer || isTimer }
  let w := if edge &&& epollIn ≠ 0 then { w with rd := w.rd ++ [h] } else w
  let w := if edge &&& epollOut ≠ 0 then { w with wr := w.wr ++ [h] } else w
  ctlAddOrMod { r with fds := r.fds.insert fd w } fd (w.mask ||| edge)

/-- What the lists of an entry make of its mask. -/
def interest (w : Waiters H) : UInt32 :=
  (if w.rd ≠ [] then epollIn else 0) ||| (if w.wr ≠ [] then epollOut else 0)

/-- `take_waiters`: the handles, and the reactor afterwards; `none` is the exception. -/
def takeWaiters (r : Reactor H) (fd : Int) (edge : UInt32) : Option (List H × Reactor H) :=
  match r.fds[fd]? with
  | none => some ([], r)
  | some w =>
      let out := (if edge &&& epollIn ≠ 0 then w.rd else []) ++
        (if edge &&& epollOut ≠ 0 then w.wr else [])
      let w := if edge &&& epollIn ≠ 0 then { w with rd := [] } else w
      let w := if edge &&& epollOut ≠ 0 then { w with wr := [] } else w
      let newmask := interest w
      if newmask ≠ w.mask then
        if newmask = 0 then
          -- the result of `EPOLL_CTL_DEL` is not looked at
          some (out, { fds := r.fds.erase fd, kernel := r.kernel.erase fd })
        else (ctlAddOrMod { r with fds := r.fds.insert fd w } fd newmask).map (out, ·)
      else some (out, { r with fds := r.fds.insert fd w })

/-! ## Calls -/

/-- What a coroutine waits for. -/
inductive Direction
  | readable
  | writable
deriving DecidableEq

/-- The edge that the awaiter passes. -/
def Direction.edge : Direction → UInt32
  | .readable => epollIn
  | .writable => epollOut

/-- The edge covers the direction. -/
def Covers (edge : UInt32) (d : Direction) : Prop := edge &&& d.edge ≠ 0

instance (edge : UInt32) (d : Direction) : Decidable (Covers edge d) :=
  inferInstanceAs (Decidable (_ ≠ _))

/-- The calls of the awaiters and of the loop of `run`. -/
inductive Call (H : Type)
  | add (fd : Int) (d : Direction) (h : H) (isTimer : Bool)
  | take (fd : Int) (edge : UInt32)

/-- What a call returns, and the reactor afterwards. -/
def step (r : Reactor H) : Call H → Option (List H × Reactor H)
  | .add fd d h isTimer => (r.addWaiter fd d.edge h isTimer).map ([], ·)
  | .take fd edge => r.takeWaiters fd edge

/-- The reactor after a sequence of calls, if none of them throws. -/
def runCalls (r : Reactor H) : List (Call H) → Option (Reactor H)
  | [] => some r
  | call :: calls => (r.step call).bind fun result => result.2.runCalls calls

/-- The handles of an entry that wait for the direction. -/
def list (w : Waiters H) : Direction → List H
  | .readable => w.rd
  | .writable => w.wr

/-- The entry of a descriptor, as `fds_[fd]` has it. -/
def entry (r : Reactor H) (fd : Int) : Waiters H := (r.fds[fd]?).getD {}

/-- The handles that wait on the descriptor in the direction. -/
def waiting (r : Reactor H) (fd : Int) (d : Direction) : List H := list (r.entry fd) d

/-- What a call adds for the descriptor and the direction. -/
def Call.adds (fd : Int) (d : Direction) : Call H → List H
  | .add fd' d' h _ => if fd' = fd ∧ d' = d then [h] else []
  | .take _ _ => []

/-- What a call takes out for them. -/
def takes (r : Reactor H) (fd : Int) (d : Direction) : Call H → List H
  | .add _ _ _ _ => []
  | .take fd' edge => if fd' = fd ∧ Covers edge d then r.waiting fd d else []

/-- All that was taken out for a descriptor and a direction, in order. -/
def takenBy (r : Reactor H) (fd : Int) (d : Direction) : List (Call H) → List H
  | [] => []
  | call :: calls =>
      r.takes fd d call ++ ((r.step call).map fun result => result.2.takenBy fd d calls).getD []

/-! ## The four copies -/

/-- **The copies agree.** -/
structure Sound (r : Reactor H) : Prop where
  mask : ∀ {fd : Int} {w : Waiters H}, r.fds[fd]? = some w → w.mask = interest w
  nonzero : ∀ {fd : Int} {w : Waiters H}, r.fds[fd]? = some w → w.mask ≠ 0
  kernel : ∀ fd : Int, r.kernel[fd]? = (r.fds[fd]?).map (·.mask)

lemma sound_empty : ({} : Reactor H).Sound where
  mask := by simp
  nonzero := by simp
  kernel := by simp

/-- The lists are empty exactly if the mask is zero. -/
lemma interest_eq_zero_iff {w : Waiters H} : interest w = 0 ↔ w.rd = [] ∧ w.wr = [] := by
  rw [interest]
  by_cases hrd : w.rd = [] <;> by_cases hwr : w.wr = [] <;>
    simp [hrd, hwr, epollIn, epollOut]

/-- An entry is entered or replaced with the mask that its lists make. -/
lemma Sound.insert {r : Reactor H} (h : r.Sound) (fd : Int) {w : Waiters H}
    (hmask : w.mask = interest w) (hne : w.mask ≠ 0) :
    Sound { fds := r.fds.insert fd w, kernel := r.kernel.insert fd w.mask } where
  mask := by
    intro fd' w' hget
    rw [Map.get_insert] at hget
    split_ifs at hget
    · cases hget
      exact hmask
    · exact h.mask hget
  nonzero := by
    intro fd' w' hget
    rw [Map.get_insert] at hget
    split_ifs at hget
    · cases hget
      exact hne
    · exact h.nonzero hget
  kernel := by
    intro fd'
    rw [Map.get_insert, Map.get_insert]
    split_ifs
    · rfl
    · exact h.kernel fd'

lemma Sound.erase {r : Reactor H} (h : r.Sound) (fd : Int) :
    Sound { fds := r.fds.erase fd, kernel := r.kernel.erase fd } where
  mask := by
    intro fd' w' hget
    rw [Map.get_erase] at hget
    split_ifs at hget
    exact h.mask hget
  nonzero := by
    intro fd' w' hget
    rw [Map.get_erase] at hget
    split_ifs at hget
    exact h.nonzero hget
  kernel := by
    intro fd'
    rw [Map.get_erase, Map.get_erase]
    split_ifs
    · rfl
    · exact h.kernel fd'

/-- **The kernel refuses nothing**: a descriptor is added if it is new and modified if it is not. -/
lemma ctlAddOrMod_eq {r : Reactor H} (h : r.Sound) (fd : Int) {w : Waiters H}
    (hmask : w.mask = ((r.fds[fd]?).map (·.mask)).getD 0) (newmask : UInt32) :
    ctlAddOrMod { r with fds := r.fds.insert fd w } fd newmask =
      some { fds := r.fds.insert fd { w with mask := newmask }
             kernel := r.kernel.insert fd newmask } := by
  have hkernel := h.kernel fd
  rw [ctlAddOrMod]
  simp only [Map.get_insert, if_true, Option.getD_some, Map.insert_insert]
  cases hget : r.fds[fd]? with
  | none =>
      have hzero : w.mask = 0 := by simpa [hget] using hmask
      have hnew : r.kernel[fd]? = none := by simpa [hget] using hkernel
      rw [if_pos hzero, epollAdd, hnew]
      rfl
  | some old =>
      have hold : w.mask = old.mask := by simpa [hget] using hmask
      have hthere : r.kernel[fd]? = some old.mask := by simpa [hget] using hkernel
      rw [if_neg (hold ▸ h.nonzero hget), epollMod, hthere]
      rfl

/-! ## What a call does -/

/-- The entry with one more handle. -/
def pushed (w : Waiters H) (h : H) (isTimer : Bool) : Direction → Waiters H
  | .readable => { w with rd := w.rd ++ [h], isTimer := w.isTimer || isTimer }
  | .writable => { w with wr := w.wr ++ [h], isTimer := w.isTimer || isTimer }

lemma mask_entry {r : Reactor H} (h : r.Sound) (fd : Int) :
    (r.entry fd).mask = interest (r.entry fd) := by
  rw [entry]
  cases hget : r.fds[fd]? with
  | none => simp [interest]
  | some w => exact h.mask hget

/-- One more waiter in a direction: its bit is set, the other is as before. -/
lemma interest_pushed (w : Waiters H) (h : H) (isTimer : Bool) (d : Direction) :
    interest (pushed w h isTimer d) = interest w ||| d.edge := by
  cases d <;> by_cases hrd : w.rd = [] <;> by_cases hwr : w.wr = [] <;>
    simp [interest, pushed, Direction.edge, hrd, hwr, epollIn, epollOut] <;> decide

lemma interest_pushed_ne_zero (w : Waiters H) (h : H) (isTimer : Bool) (d : Direction) :
    interest (pushed w h isTimer d) ≠ 0 := by
  rw [Ne, interest_eq_zero_iff]
  cases d <;> simp [pushed]

/-- **`add_waiter`** enters the handle, with the mask of the lists in both places. -/
lemma addWaiter_eq {r : Reactor H} (hr : r.Sound) (fd : Int) (d : Direction) (h : H)
    (isTimer : Bool) :
    let w := pushed (r.entry fd) h isTimer d
    r.addWaiter fd d.edge h isTimer =
      some { fds := r.fds.insert fd { w with mask := interest w }
             kernel := r.kernel.insert fd (interest w) } := by
  intro w
  have hmask : w.mask = ((r.fds[fd]?).map (·.mask)).getD 0 := by
    have hsame : w.mask = (r.entry fd).mask := by cases d <;> rfl
    rw [hsame, entry]
    cases r.fds[fd]? <;> rfl
  have hwant : w.mask ||| d.edge = interest w := by
    have hsame : w.mask = (r.entry fd).mask := by cases d <;> rfl
    rw [hsame, mask_entry hr, interest_pushed]
  rw [← hwant, ← ctlAddOrMod_eq hr fd hmask]
  cases d <;> rfl

/-- The entry without the handles that the edge covers. -/
def cleared (w : Waiters H) (edge : UInt32) : Waiters H :=
  { w with
    rd := if edge &&& epollIn ≠ 0 then [] else w.rd
    wr := if edge &&& epollOut ≠ 0 then [] else w.wr }

/-- What the edge covers of an entry. -/
def covered (w : Waiters H) (edge : UInt32) : List H :=
  (if edge &&& epollIn ≠ 0 then w.rd else []) ++ (if edge &&& epollOut ≠ 0 then w.wr else [])

lemma cleared_eq (w : Waiters H) (edge : UInt32) :
    (let w := if edge &&& epollIn ≠ 0 then { w with rd := [] } else w
     if edge &&& epollOut ≠ 0 then { w with wr := [] } else w) = cleared w edge := by
  dsimp only [cleared]
  split_ifs <;> rfl

/-- `take_waiters`, with its two updates of the entry as one. -/
lemma takeWaiters_eq (r : Reactor H) (fd : Int) (edge : UInt32) :
    r.takeWaiters fd edge = match r.fds[fd]? with
      | none => some ([], r)
      | some w =>
          if interest (cleared w edge) ≠ (cleared w edge).mask then
            if interest (cleared w edge) = 0 then
              some (covered w edge, { fds := r.fds.erase fd, kernel := r.kernel.erase fd })
            else
              (ctlAddOrMod { r with fds := r.fds.insert fd (cleared w edge) } fd
                (interest (cleared w edge))).map (covered w edge, ·)
          else some (covered w edge, { r with fds := r.fds.insert fd (cleared w edge) }) := by
  rw [takeWaiters]
  cases r.fds[fd]? with
  | none => rfl
  | some w =>
      dsimp only
      rw [← cleared_eq]
      rfl

/-- **Everything `take_waiters` can do**: find no entry, leave an entry with other waiters, or
remove it with its last one. -/
inductive Takes (r : Reactor H) (fd : Int) (edge : UInt32) : List H × Reactor H → Prop
  | nothing (hget : r.fds[fd]? = none) : Takes r fd edge ([], r)
  | others {w : Waiters H} (hget : r.fds[fd]? = some w) (hne : interest (cleared w edge) ≠ 0) :
      Takes r fd edge (covered w edge,
        { fds := r.fds.insert fd { cleared w edge with mask := interest (cleared w edge) }
          kernel := r.kernel.insert fd (interest (cleared w edge)) })
  | last {w : Waiters H} (hget : r.fds[fd]? = some w) (hnil : interest (cleared w edge) = 0) :
      Takes r fd edge (covered w edge, { fds := r.fds.erase fd, kernel := r.kernel.erase fd })

lemma takeWaiters_cases {r : Reactor H} (h : r.Sound) (fd : Int) (edge : UInt32) :
    ∃ result, r.takeWaiters fd edge = some result ∧ Takes r fd edge result := by
  rw [takeWaiters_eq]
  cases hget : r.fds[fd]? with
  | none => exact ⟨_, rfl, .nothing hget⟩
  | some w =>
      have hmask : (cleared w edge).mask = ((r.fds[fd]?).map (·.mask)).getD 0 := by
        rw [hget]
        rfl
      have hold : (cleared w edge).mask = w.mask := rfl
      dsimp only
      rw [hold]
      by_cases hsame : interest (cleared w edge) = w.mask
      · -- the mask is not written, and neither is the kernel: both have it already
        have hne : interest (cleared w edge) ≠ 0 := hsame ▸ h.nonzero hget
        have hentry : { cleared w edge with mask := interest (cleared w edge) } =
            cleared w edge := by rw [hsame]; rfl
        have hkernel : r.kernel.insert fd (interest (cleared w edge)) = r.kernel := by
          refine Std.ExtTreeMap.ext_getElem? fun fd' => ?_
          rw [Map.get_insert]
          split_ifs with hfd
          · rw [hfd, h.kernel, hget, hsame]
            rfl
          · rfl
        refine ⟨_, if_neg (not_not.mpr hsame), ?_⟩
        have htakes := Takes.others hget hne
        rwa [hentry, hkernel] at htakes
      · rw [if_pos hsame]
        by_cases hnil : interest (cleared w edge) = 0
        · exact ⟨_, if_pos hnil, .last hget hnil⟩
        · refine ⟨_, ?_, .others hget hnil⟩
          rw [if_neg hnil, ctlAddOrMod_eq h fd hmask]
          rfl

/-! ## Nobody is lost -/

lemma waiting_insert (r : Reactor H) (kernel : Map Int UInt32) (fd : Int) (w : Waiters H)
    (fd' : Int) (d : Direction) :
    waiting { fds := r.fds.insert fd w, kernel } fd' d =
      if fd' = fd then list w d else r.waiting fd' d := by
  rw [waiting, entry, Map.get_insert]
  split_ifs <;> rfl

lemma waiting_erase (r : Reactor H) (kernel : Map Int UInt32) (fd fd' : Int) (d : Direction) :
    waiting { fds := r.fds.erase fd, kernel } fd' d =
      if fd' = fd then [] else r.waiting fd' d := by
  rw [waiting, entry, Map.get_erase]
  split_ifs
  · cases d <;> rfl
  · rfl

lemma waiting_of_some {r : Reactor H} {fd : Int} {w : Waiters H} (h : r.fds[fd]? = some w)
    (d : Direction) : r.waiting fd d = list w d := by
  rw [waiting, entry, h, Option.getD_some]

lemma waiting_of_none {r : Reactor H} {fd : Int} (h : r.fds[fd]? = none) (d : Direction) :
    r.waiting fd d = [] := by
  rw [waiting, entry, h, Option.getD_none]
  cases d <;> rfl

lemma list_pushed (w : Waiters H) (h : H) (isTimer : Bool) (d d' : Direction) :
    list (pushed w h isTimer d) d' = list w d' ++ if d = d' then [h] else [] := by
  cases d <;> cases d' <;> simp [list, pushed]

lemma list_cleared (w : Waiters H) (edge : UInt32) (d : Direction) :
    list (cleared w edge) d = if Covers edge d then [] else list w d := by
  cases d <;> rfl

/-- **A wait is added at the end, or taken out by a call that covers it**, and stays otherwise. -/
def Accounts (r : Reactor H) (call : Call H) (r' : Reactor H) : Prop :=
  ∀ fd d, r.waiting fd d ++ call.adds fd d = r.takes fd d call ++ r'.waiting fd d

lemma accounts_addWaiter (r : Reactor H) (kernel : Map Int UInt32) (fd : Int) (d : Direction)
    (h : H) (isTimer : Bool) :
    let w := pushed (r.entry fd) h isTimer d
    r.Accounts (.add fd d h isTimer)
      { fds := r.fds.insert fd { w with mask := interest w }, kernel } := by
  intro w fd' d'
  have hlist : list { w with mask := interest w } d' = list w d' := by cases d' <;> rfl
  rw [waiting_insert, hlist, takes, Call.adds, List.nil_append]
  by_cases hfd : fd' = fd
  · rw [if_pos hfd, hfd, list_pushed, Reactor.waiting]
    simp
  · rw [if_neg hfd, if_neg (fun hsame => hfd hsame.1.symm), List.append_nil]

lemma Takes.accounts {r r' : Reactor H} {fd : Int} {edge : UInt32} {out : List H}
    (h : Takes r fd edge (out, r')) : r.Accounts (.take fd edge) r' := by
  intro fd' d
  rw [Call.adds, List.append_nil, takes]
  -- another descriptor is not touched, and neither is a direction that is not covered
  by_cases hfd : fd = fd'
  · subst hfd
    simp only [true_and]
    cases h with
    | nothing hget => simp [waiting_of_none hget]
    | @others w hget hne =>
        have hlist : list { cleared w edge with mask := interest (cleared w edge) } d =
            list (cleared w edge) d := by cases d <;> rfl
        rw [waiting_insert, if_pos rfl, hlist, list_cleared, waiting_of_some hget]
        split_ifs <;> simp
    | @last w hget hnil =>
        have hempty : list (cleared w edge) d = [] := by
          obtain ⟨hrd, hwr⟩ := interest_eq_zero_iff.mp hnil
          cases d
          · exact hrd
          · exact hwr
        rw [waiting_erase, if_pos rfl, List.append_nil, waiting_of_some hget]
        rw [list_cleared] at hempty
        split_ifs at hempty ⊢ with hcovers
        · rfl
        · exact hempty
  · rw [if_neg (fun hsame => hfd hsame.1), List.nil_append]
    cases h with
    | nothing hget => rfl
    | others hget hne => rw [waiting_insert, if_neg (Ne.symm hfd)]
    | last hget hnil => rw [waiting_erase, if_neg (Ne.symm hfd)]

lemma Takes.sound {r r' : Reactor H} {fd : Int} {edge : UInt32} {out : List H} (hr : r.Sound)
    (h : Takes r fd edge (out, r')) : r'.Sound := by
  cases h with
  | nothing hget => exact hr
  | @others w hget hne =>
      exact hr.insert (w := { cleared w edge with mask := interest (cleared w edge) }) fd rfl hne
  | last hget hnil => exact hr.erase fd

/-- What `take_waiters` returns is what waits in the directions of the edge. -/
lemma Takes.out {r r' : Reactor H} {fd : Int} {edge : UInt32} {out : List H}
    (h : Takes r fd edge (out, r')) :
    out = (if Covers edge .readable then r.waiting fd .readable else []) ++
      (if Covers edge .writable then r.waiting fd .writable else []) := by
  cases h with
  | nothing hget => simp [waiting_of_none hget]
  | others hget hne | last hget hnil =>
      rw [waiting_of_some hget, waiting_of_some hget]
      rfl

/-- **A call does not throw, and keeps the copies in agreement and the accounts.** -/
theorem step_sound {r : Reactor H} (hr : r.Sound) (call : Call H) :
    ∃ out r', r.step call = some (out, r') ∧ r'.Sound ∧ r.Accounts call r' := by
  cases call with
  | add fd d h isTimer =>
      refine ⟨[], _, congrArg (Option.map ([], ·)) (addWaiter_eq hr fd d h isTimer), ?_,
        accounts_addWaiter r _ fd d h isTimer⟩
      exact hr.insert (w := { pushed (r.entry fd) h isTimer d with mask := interest _ }) fd rfl
        (interest_pushed_ne_zero _ _ _ _)
  | take fd edge =>
      obtain ⟨result, hresult, htakes⟩ := takeWaiters_cases hr fd edge
      exact ⟨result.1, result.2, hresult, htakes.sound hr, htakes.accounts⟩

/-- The same for a sequence of calls. -/
theorem runCalls_sound {r : Reactor H} (hr : r.Sound) (calls : List (Call H)) :
    ∃ r', r.runCalls calls = some r' ∧ r'.Sound ∧ ∀ fd d,
      r.waiting fd d ++ calls.flatMap (Call.adds fd d) =
        r.takenBy fd d calls ++ r'.waiting fd d := by
  induction calls generalizing r with
  | nil => exact ⟨r, rfl, hr, fun fd d => by simp [takenBy]⟩
  | cons call calls ih =>
      obtain ⟨out, r₁, hstep, hr₁, haccounts⟩ := step_sound hr call
      obtain ⟨r', hrun, hr', hrest⟩ := ih hr₁
      refine ⟨r', ?_, hr', fun fd d => ?_⟩
      · rw [runCalls, hstep, Option.bind_some]
        exact hrun
      · rw [List.flatMap_cons, ← List.append_assoc, haccounts fd d, List.append_assoc,
          hrest fd d, takenBy, hstep, Option.map_some, Option.getD_some, List.append_assoc]

/-- **The bookkeeping of the reactor**, after any sequence of calls.

* No call throws because of what the kernel has.
* The mask of an entry is not zero, and is `EPOLLIN` if there are read waiters together with
  `EPOLLOUT` if there are write waiters.
* The interest set of the kernel is the entries with their masks.
* What was added for a descriptor and a direction is what the calls of `take_waiters` that cover it
  have taken out and then what waits, in this order: each handle is in one place of the two lists.
* The next `take_waiters` returns what waits in the directions of its edge, and nothing of it waits
  any more. -/
theorem reactor_bookkeeping (calls : List (Call H)) :
    ∃ r : Reactor H, runCalls {} calls = some r ∧
      (∀ (fd : Int) (w : Waiters H), r.fds[fd]? = some w → w.mask ≠ 0 ∧ w.mask =
        (if w.rd ≠ [] then epollIn else 0) ||| (if w.wr ≠ [] then epollOut else 0)) ∧
      (∀ fd : Int, r.kernel[fd]? = (r.fds[fd]?).map (·.mask)) ∧
      (∀ fd d, calls.flatMap (Call.adds fd d) = takenBy {} fd d calls ++ r.waiting fd d) ∧
      ∀ fd edge, ∃ r', r.takeWaiters fd edge =
          some ((if Covers edge .readable then r.waiting fd .readable else []) ++
            (if Covers edge .writable then r.waiting fd .writable else []), r') ∧
        ∀ d, Covers edge d → r'.waiting fd d = [] := by
  obtain ⟨r, hrun, hr, haccounts⟩ := runCalls_sound sound_empty calls
  refine ⟨r, hrun, fun fd w hget => ⟨hr.nonzero hget, hr.mask hget⟩, hr.kernel, ?_, ?_⟩
  · intro fd d
    have hnone : ({} : Reactor H).waiting fd d = [] := waiting_of_none (by simp) d
    rw [← haccounts fd d, hnone, List.nil_append]
  · intro fd edge
    obtain ⟨⟨out, r'⟩, hresult, htakes⟩ := takeWaiters_cases hr fd edge
    refine ⟨r', by rw [hresult, ← htakes.out], fun d hcovers => ?_⟩
    have htaken := htakes.accounts fd d
    rw [Call.adds, takes, List.append_nil, if_pos ⟨rfl, hcovers⟩] at htaken
    exact List.append_right_eq_self.mp htaken.symm

/-! ## Events -/

/-- `EPOLLERR | EPOLLHUP | EPOLLRDHUP`. -/
def epollGone : UInt32 := 8 ||| 16 ||| 8192

/-- The edges that the loop of `run` passes for an event. -/
def eventEdges (flags : UInt32) : List UInt32 :=
  if flags &&& epollGone ≠ 0 then [epollIn ||| epollOut]
  else (if flags &&& epollIn ≠ 0 then [epollIn] else []) ++
    (if flags &&& epollOut ≠ 0 then [epollOut] else [])

end Reactor

end FileGrid
