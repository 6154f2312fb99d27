import FileGrid.Common.HealthEvents
import FileGrid.Failover.Concurrent

/-!
# What starts a failover

`run_head_server` gives the monitor a callback that starts a detached thread for
`on_server_unhealthy_callback`; the thread first passes the recovery guard, then asks for the vote,
then re-replicates.  The monitor and the guard share no state: the flag `is_healthy` is cleared when
the callback is called, and nothing that becomes of the thread sets it again.

`triggerStep` puts the two machines side by side.  A failover that ends without purging the server
(`EndsUnpurged`) releases the guard and leaves the flag cleared, and a server whose flag is cleared
is not given up again.  So the next stale check does not retry: **`failed_failover_retried_iff`**
says that it does only for a server that has meanwhile been deregistered and registered anew, when
its stale checks since then reach the threshold; `failed_failover_not_retried` is a run in which it
is lost.
-/

namespace FileGrid

/-- The monitor, the threads that its callback has started and that are not at the guard yet, and
the failovers. -/
structure TriggerSystem where
  monitor : HealthMonitor
  started : List Bytes
  failovers : FailoverSystem

inductive TriggerEvent where
  /-- a call on the monitor -/
  | monitor (ev : MonitorEvent)
  /-- a thread that the callback has started reaches the guard -/
  | enter (deadServer : Bytes)
  /-- the vote did not confirm the death, and the thread ends -/
  | rejected (deadServer : Bytes)
  /-- one step of a thread -/
  | advance (deadServer : Bytes) (registry : ServerRegistry) (copied : Option Bytes)

/-- The address the thread of an unhealthy callback works on. -/
def HealthCallback.deadServer : HealthCallback → Option Bytes
  | .unhealthy _ health => some health.ip
  | .recovered _ _ => none

/-- One event of the system. -/
def triggerStep (s : TriggerSystem) : TriggerEvent → TriggerSystem
  | .monitor ev =>
      let (calls, monitor) := monitorStep s.monitor ev
      { s with monitor, started := s.started ++ calls.filterMap HealthCallback.deadServer }
  | .enter dead =>
      if dead ∈ s.started then
        { s with started := s.started.erase dead
                 failovers := failoverStep s.failovers (.unhealthy dead) }
      else s
  | .rejected dead => { s with failovers := failoverStep s.failovers (.rejected dead) }
  | .advance dead registry copied =>
      { s with failovers := failoverStep s.failovers (.advance dead ⟨registry, s.monitor, copied⟩) }

/-- The head has just started, over the metadata it found. -/
def triggerStart (timeout maxMissed : Int) (store : MetadataMap) : TriggerSystem :=
  ⟨newMonitor timeout maxMissed, [], ⟨store, ∅⟩⟩

def triggerRun (timeout maxMissed : Int) (store : MetadataMap) (evs : List TriggerEvent) :
    TriggerSystem :=
  evs.foldl triggerStep (triggerStart timeout maxMissed store)

/-- The calls on the monitor among the events. -/
def monitorCalls (evs : List TriggerEvent) : List MonitorEvent :=
  evs.filterMap fun
    | .monitor ev => some ev
    | _ => none

lemma mem_monitorCalls {evs : List TriggerEvent} {ev : MonitorEvent} :
    ev ∈ monitorCalls evs ↔ .monitor ev ∈ evs := by
  simp only [monitorCalls, List.mem_filterMap]
  constructor
  · rintro ⟨e, he, hev⟩
    cases e with
    | monitor ev' =>
        cases hev
        exact he
    | enter dead => cases hev
    | rejected dead => cases hev
    | advance dead registry copied => cases hev
  · intro he
    exact ⟨.monitor ev, he, rfl⟩

/-- **Nothing but the calls on it changes the monitor.** -/
theorem triggerRun_monitor (timeout maxMissed : Int) (store : MetadataMap)
    (evs : List TriggerEvent) :
    (triggerRun timeout maxMissed store evs).monitor =
      monitorRun (newMonitor timeout maxMissed) (monitorCalls evs) := by
  induction evs using List.reverseRecOn with
  | nil => rfl
  | append_singleton evs ev ih =>
      rw [triggerRun, List.foldl_append, List.foldl_cons, List.foldl_nil, ← triggerRun]
      cases ev with
      | monitor ev =>
          rw [monitorCalls, List.filterMap_append, ← monitorCalls, monitorRun_append, ← ih]
          rfl
      | enter dead =>
          simp only [triggerStep, monitorCalls, List.filterMap_append] at ih ⊢
          split_ifs <;> simpa using ih
      | rejected dead => simpa [triggerStep, monitorCalls] using ih
      | advance dead registry copied => simpa [triggerStep, monitorCalls] using ih

/-! ## A failover that fails -/

/-- The callback's thread for `dead` ends here without having purged it: the vote is rejected, or
there is no healthy server to copy to. -/
def EndsUnpurged (s : TriggerSystem) (dead : Bytes) : TriggerEvent → Prop
  | .monitor _ => False
  | .enter _ => False
  | .rejected d => d = dead ∧ s.failovers.threads[dead]? = some .start
  | .advance d registry _ => d = dead ∧ healthyServers registry s.monitor dead = [] ∧
      ∃ files, s.failovers.threads[dead]? = some (.listed files)

/-- A server is given up at `fire`, its heartbeats have stopped, the thread of the callback ends
without purging it, and `retry` is a later check that finds the server still stale, with the
recovery guard released. -/
structure FailedFailover (timeout maxMissed : Int) (store : MetadataMap) (id : Int)
    (health : ServerHealth) (pre : List TriggerEvent) (fire : MonitorEvent)
    (mid : List TriggerEvent) (retry : MonitorEvent) : Prop where
  clock : ∀ ev, .monitor ev ∈ pre ++ .monitor fire :: mid → 0 < ev.now
  fires : .unhealthy id health ∈
    (monitorStep (triggerRun timeout maxMissed store pre).monitor fire).1
  stopped : ∀ ev, .monitor ev ∈ mid → ¬ev.IsHeartbeat id
  ended : ∃ a e b, mid = a ++ e :: b ∧
    EndsUnpurged (triggerRun timeout maxMissed store (pre ++ .monitor fire :: a)) health.ip e
  released : (triggerRun timeout maxMissed store
    (pre ++ .monitor fire :: mid)).failovers.threads[health.ip]? = none
  check : retry.call = .check
  stale : ∃ r, (triggerRun timeout maxMissed store
      (pre ++ .monitor fire :: mid)).monitor.servers[id]? = some r ∧
    timeout < elapsedSeconds retry.now r.lastHeartbeat

/-- **A failed failover is retried only for a server that was registered anew.**  The later check
calls the callback again exactly if the server has been deregistered in between, and this check is
the one at which its stale checks since its new registration reach the threshold. -/
theorem failed_failover_retried_iff {timeout maxMissed : Int} {store : MetadataMap} {id : Int}
    {health : ServerHealth} {pre mid : List TriggerEvent} {fire retry : MonitorEvent}
    (h : FailedFailover timeout maxMissed store id health pre fire mid retry) :
    FiresUnhealthy (triggerRun timeout maxMissed store (pre ++ .monitor fire :: mid)).monitor
        retry id ↔
      (∃ ev, .monitor ev ∈ mid ∧ ev.IsDeregistration id) ∧
      ∃ w, watch timeout id (monitorCalls (pre ++ .monitor fire :: mid)) = some w ∧
        ((w.staleChecks + 1 : Nat) : Int) = max 1 maxMissed := by
  have hfires := h.fires
  obtain ⟨r, hr, hlate⟩ := h.stale
  have hline : InLine timeout maxMissed
      (triggerRun timeout maxMissed store (pre ++ .monitor fire :: mid)).monitor
      (monitorCalls (pre ++ .monitor fire :: mid)) := by
    rw [triggerRun_monitor]
    exact inLine_monitorRun fun ev hev => h.clock ev (mem_monitorCalls.mp hev)
  constructor
  · intro hretry
    obtain ⟨_, w, hw, _, hcount⟩ := (firesUnhealthy_iff hline).mp hretry
    refine ⟨?_, w, hw, hcount⟩
    -- without a deregistration the server is still unhealthy from the first firing
    by_contra hnone
    refine not_firesUnhealthy_of_unhealthy ?_ hretry
    rw [triggerRun_monitor] at hfires ⊢
    refine unhealthy_run_iff.mpr
      ⟨monitorCalls pre, fire, monitorCalls mid, ?_, ⟨health, hfires⟩, ?_⟩
    · simp [monitorCalls]
    · intro ev hev
      rw [mem_monitorCalls] at hev
      exact ⟨h.stopped ev hev, fun hdereg => hnone ⟨ev, hev, hdereg⟩⟩
  · rintro ⟨-, w, hw, hcount⟩
    refine (firesUnhealthy_iff hline).mpr ⟨h.check, w, hw, ?_, hcount⟩
    have hrecord := hline.records id
    rw [hr, hw] at hrecord
    cases hrecord with
    | present since epoch missed healthy =>
        rw [since] at hlate
        exact hlate

/-! ## Runs -/

/-- Server 1 registers at second 1. -/
def registeredAt (address : Bytes) : List TriggerEvent :=
  [.monitor ⟨10 ^ 9, .register 1 address⟩]

def checkAt (second : Int) : MonitorEvent := ⟨second * 10 ^ 9, .check⟩

/-- What the callback is given for server 1 at the first stale check. -/
def givenUpRecord (address : Bytes) : ServerHealth :=
  { serverId := 1, ip := address, isHealthy := false, lastHeartbeat := 10 ^ 9
    missedHeartbeats := 1 }

/-- The vote on the first failover is rejected. -/
def rejectedVote (address : Bytes) : List TriggerEvent := [.enter address, .rejected address]

lemma failedFailover_rejectedVote :
    FailedFailover 60 1 ∅ 1 (givenUpRecord serverOne) (registeredAt serverOne) (checkAt 100)
      (rejectedVote serverOne) (checkAt 200) where
  clock := by simp [registeredAt, rejectedVote, checkAt]
  fires := by decide +kernel
  stopped := by simp [rejectedVote]
  ended := ⟨[.enter serverOne], .rejected serverOne, [], rfl, rfl, by decide +kernel⟩
  released := by decide +kernel
  check := rfl
  stale := ⟨givenUpRecord serverOne, by decide +kernel, by decide⟩

/-- **A rejected vote suppresses the failover for ever.**  With a timeout of a minute and one missed
heartbeat allowed, server 1 is given up at second 100, the vote is rejected and the guard released;
the check at second 200 finds the server stale and calls nobody. -/
theorem failed_failover_not_retried :
    FailedFailover 60 1 ∅ 1 (givenUpRecord serverOne) (registeredAt serverOne) (checkAt 100)
        (rejectedVote serverOne) (checkAt 200) ∧
      ¬FiresUnhealthy (triggerRun 60 1 ∅
        (registeredAt serverOne ++ .monitor (checkAt 100) :: rejectedVote serverOne)).monitor
        (checkAt 200) 1 := by
  refine ⟨failedFailover_rejectedVote, ?_⟩
  have hnone : (monitorStep (triggerRun 60 1 ∅
      (registeredAt serverOne ++ .monitor (checkAt 100) :: rejectedVote serverOne)).monitor
      (checkAt 200)).1 = [] := by
    decide +kernel
  simp [FiresUnhealthy, hnone]

/-- Between the two checks the server is removed and added again. -/
def removedAndAdded (address : Bytes) : List TriggerEvent :=
  [.monitor ⟨110 * 10 ^ 9, .deregister 1⟩, .monitor ⟨120 * 10 ^ 9, .register 1 address⟩]

/-- A server that is removed and added again is given up again. -/
theorem failed_failover_retried_when_added_again :
    FiresUnhealthy (triggerRun 60 1 ∅ (registeredAt serverOne ++ .monitor (checkAt 100) ::
      (rejectedVote serverOne ++ removedAndAdded serverOne))).monitor (checkAt 200) 1 := by
  have hfailed : FailedFailover 60 1 ∅ 1 (givenUpRecord serverOne) (registeredAt serverOne)
      (checkAt 100) (rejectedVote serverOne ++ removedAndAdded serverOne) (checkAt 200) :=
    { clock := by simp [registeredAt, rejectedVote, removedAndAdded, checkAt]
      fires := by decide +kernel
      stopped := by simp [rejectedVote, removedAndAdded, MonitorEvent.IsHeartbeat]
      ended := ⟨[.enter serverOne], .rejected serverOne, removedAndAdded serverOne, rfl, rfl,
        by decide +kernel⟩
      released := by decide +kernel
      check := rfl
      stale := ⟨{ serverId := 1, ip := serverOne, lastHeartbeat := 120 * 10 ^ 9 },
        by decide +kernel, by decide⟩ }
  refine (failed_failover_retried_iff hfailed).mpr ⟨⟨⟨110 * 10 ^ 9, .deregister 1⟩, ?_, rfl⟩,
    ⟨120 * 10 ^ 9, 0⟩, by decide +kernel, rfl⟩
  simp [removedAndAdded]

end FileGrid
