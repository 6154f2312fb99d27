import FileGrid.Common.HealthMonitor
import FileGrid.Core.Runs

/-!
# When the health monitor calls back

The monitor keeps one record per server, with a flag and a counter; its callers only see the two
callbacks.  This file says when they fire in terms of the calls alone.

**The history.**  `watch` reads off a history of calls what it says of one server: whether it is
registered, the clock at its last heartbeat or registration, and how many checks since then found it
stale.  It knows nothing of the flag.

**The invariant.**  `Matches`: the record of a server holds the clock and the number of its watch,
and it is healthy exactly while that number is below the threshold.  Every call keeps it
(`matches_step`).  The threshold is `max_missed_heartbeats`, or 1 if that is less: no server is
given up before a check finds it stale.

**The callbacks.**  `firesUnhealthy_iff` and `firesRecovered_iff` are one call each;
**`health_events_exact`** puts them together over whole histories: the events of one server are
exact, and they alternate.
-/

namespace FileGrid

/-! ## Calls and callbacks -/

inductive MonitorCall
  | register (serverId : Int) (ip : Bytes)
  | heartbeat (serverId : Int) (health : ServerHealth)
  | check
  | deregister (serverId : Int)

/-- A call, and the clock it reads. -/
structure MonitorEvent where
  now : Int
  call : MonitorCall

/-- The call of a callback. -/
inductive HealthCallback
  | unhealthy (serverId : Int) (health : ServerHealth)
  | recovered (serverId : Int) (health : ServerHealth)
deriving DecidableEq

def HealthCallback.serverId : HealthCallback → Int
  | .unhealthy serverId _ => serverId
  | .recovered serverId _ => serverId

/-- One call on a monitor with both callbacks set: what it calls back, and the monitor after it. -/
def monitorStep (m : HealthMonitor) (ev : MonitorEvent) : List HealthCallback × HealthMonitor :=
  match ev.call with
  | .register serverId ip => ([], m.registerServer ev.now serverId ip)
  | .heartbeat serverId health =>
      let (due, m) := m.recordHeartbeat ev.now serverId health
      (due.toList.map fun p => .recovered p.1 p.2, m)
  | .check =>
      let (calls, m) := m.checkHealth ev.now
      (calls.map fun p => .unhealthy p.1 p.2, m)
  | .deregister serverId => ([], m.deregisterServer serverId)

def monitorRun (m : HealthMonitor) (evs : List MonitorEvent) : HealthMonitor :=
  evs.foldl (fun m ev => (monitorStep m ev).2) m

/-- The event calls the unhealthy callback for this server. -/
def FiresUnhealthy (m : HealthMonitor) (ev : MonitorEvent) (id : Int) : Prop :=
  ∃ health, .unhealthy id health ∈ (monitorStep m ev).1

/-- The event calls the recovered callback for this server. -/
def FiresRecovered (m : HealthMonitor) (ev : MonitorEvent) (id : Int) : Prop :=
  ∃ health, .recovered id health ∈ (monitorStep m ev).1

/-- The record of this server has `is_healthy` false. -/
def Unhealthy (m : HealthMonitor) (id : Int) : Prop :=
  ∃ health, m.servers[id]? = some health ∧ health.isHealthy = false

namespace MonitorEvent

def IsHeartbeat (ev : MonitorEvent) (id : Int) : Prop := ∃ health, ev.call = .heartbeat id health

def IsDeregistration (ev : MonitorEvent) (id : Int) : Prop := ev.call = .deregister id

end MonitorEvent

/-! ## What a history says -/

/-- The clock at the last heartbeat or registration of a server, and the number of stale checks
since. -/
structure Watch where
  since : Int
  staleChecks : Nat
deriving DecidableEq

/-- One more event.  A server that is registered is not registered again. -/
def watchStep (timeout id : Int) (w : Option Watch) (ev : MonitorEvent) : Option Watch :=
  match ev.call with
  | .register serverId _ => if serverId = id then some (w.getD ⟨ev.now, 0⟩) else w
  | .heartbeat serverId _ => if serverId = id then some ⟨ev.now, 0⟩ else w
  | .check => w.map fun w =>
      if timeout < elapsedSeconds ev.now w.since then ⟨w.since, w.staleChecks + 1⟩ else w
  | .deregister serverId => if serverId = id then none else w

/-- What the history says of a server; `none` if it is not registered. -/
def watch (timeout id : Int) (evs : List MonitorEvent) : Option Watch :=
  evs.foldl (watchStep timeout id) none

lemma watch_append_singleton (timeout id : Int) (evs : List MonitorEvent) (ev : MonitorEvent) :
    watch timeout id (evs ++ [ev]) = watchStep timeout id (watch timeout id evs) ev := by
  simp [watch]

/-! ## The invariant -/

/-- The record of a server says what the history says. -/
inductive Matches (threshold : Int) : Option ServerHealth → Option Watch → Prop
  | absent : Matches threshold none none
  | present {h : ServerHealth} {w : Watch} (since : h.lastHeartbeat = w.since)
      (epoch : w.since ≠ 0) (missed : h.missedHeartbeats = w.staleChecks)
      (healthy : h.isHealthy = decide (w.staleChecks < threshold)) :
      Matches threshold (some h) (some w)

/-- The number of stale checks at which a server is given up. -/
def HealthMonitor.threshold (m : HealthMonitor) : Int := max 1 m.maxMissedHeartbeats

lemma monitorStep_settings (m : HealthMonitor) (ev : MonitorEvent) :
    (monitorStep m ev).2.heartbeatTimeout = m.heartbeatTimeout ∧
      (monitorStep m ev).2.maxMissedHeartbeats = m.maxMissedHeartbeats := by
  obtain ⟨now, call⟩ := ev
  cases call with
  | register serverId ip =>
      simp only [monitorStep, HealthMonitor.registerServer]
      split <;> exact ⟨rfl, rfl⟩
  | heartbeat serverId health => exact ⟨rfl, rfl⟩
  | check => exact ⟨rfl, rfl⟩
  | deregister serverId => exact ⟨rfl, rfl⟩

lemma Matches.check {m : HealthMonitor} {now : Int} {h : ServerHealth} {w : Watch}
    (since : h.lastHeartbeat = w.since) (epoch : w.since ≠ 0)
    (missed : h.missedHeartbeats = w.staleChecks)
    (healthy : h.isHealthy = decide (w.staleChecks < m.threshold)) :
    Matches m.threshold (some (m.checkRecord now h))
      (some (if m.heartbeatTimeout < elapsedSeconds now w.since then
        ⟨w.since, w.staleChecks + 1⟩ else w)) := by
  have hstale : m.stale now h = decide (m.heartbeatTimeout < elapsedSeconds now w.since) := by
    simp [HealthMonitor.stale, since, epoch]
  unfold HealthMonitor.checkRecord
  by_cases hlate : m.heartbeatTimeout < elapsedSeconds now w.since
  · rw [if_pos (by rw [hstale]; exact decide_eq_true hlate), if_pos hlate]
    refine .present since epoch ?_ ?_
    · simp only [missed]
      push_cast
      rfl
    · -- it stays healthy if the count is below the threshold after this check
      have hthreshold : m.threshold = max 1 m.maxMissedHeartbeats := rfl
      simp only [HealthMonitor.givenUp, hstale, hlate, healthy, missed, decide_true, true_and]
      rw [Bool.eq_iff_iff]
      simp only [Bool.and_eq_true, Bool.not_eq_true', decide_eq_true_eq, decide_eq_false_iff_not]
      push_cast
      omega
  · rw [if_neg (by rw [hstale, decide_eq_true_eq]; exact hlate), if_neg hlate]
    exact .present since epoch missed healthy

/-- **Every call keeps the records in line with the history.** -/
theorem matches_step {m : HealthMonitor} {id : Int} {w : Option Watch} {ev : MonitorEvent}
    (hnow : 0 < ev.now) (h : Matches m.threshold m.servers[id]? w) :
    Matches m.threshold (monitorStep m ev).2.servers[id]?
      (watchStep m.heartbeatTimeout id w ev) := by
  obtain ⟨now, call⟩ := ev
  have hepoch : now ≠ 0 := ne_of_gt hnow
  have hfresh : (true : Bool) = decide (((0 : Nat) : Int) < m.threshold) := by
    have hpos : ((0 : Nat) : Int) < m.threshold := by simp [HealthMonitor.threshold]
    exact (decide_eq_true hpos).symm
  cases call with
  | register serverId ip =>
      simp only [monitorStep, watchStep, HealthMonitor.registerServer_get]
      by_cases hid : serverId = id
      · subst hid
        simp only [true_and, if_true]
        generalize m.servers[serverId]? = r at h ⊢
        cases h with
        | absent => exact .present rfl hepoch rfl hfresh
        | present since epoch missed healthy => exact .present since epoch missed healthy
      · simp only [hid, Ne.symm hid, false_and, if_false]
        exact h
  | heartbeat serverId health =>
      simp only [monitorStep, watchStep, HealthMonitor.recordHeartbeat_get]
      by_cases hid : serverId = id
      · subst hid
        simp only [if_true]
        exact .present rfl hepoch rfl hfresh
      · simp only [hid, Ne.symm hid, if_false]
        exact h
  | check =>
      simp only [monitorStep, watchStep, HealthMonitor.checkHealth_get]
      generalize m.servers[id]? = r at h ⊢
      cases h with
      | absent => exact .absent
      | present since epoch missed healthy => exact Matches.check since epoch missed healthy
  | deregister serverId =>
      simp only [monitorStep, watchStep, HealthMonitor.deregisterServer, Map.get_erase]
      by_cases hid : serverId = id
      · subst hid
        simp only [if_true]
        exact .absent
      · simp only [hid, Ne.symm hid, if_false]
        exact h

/-- A monitor with these two settings, no server registered yet. -/
def newMonitor (timeout maxMissed : Int) : HealthMonitor :=
  { heartbeatTimeout := timeout, maxMissedHeartbeats := maxMissed }

lemma monitorRun_append (m : HealthMonitor) (evs evs' : List MonitorEvent) :
    monitorRun m (evs ++ evs') = monitorRun (monitorRun m evs) evs' :=
  List.foldl_append

/-- A run keeps the settings and, for every server, the record in line with the history. -/
structure InLine (timeout maxMissed : Int) (m : HealthMonitor) (evs : List MonitorEvent) :
    Prop where
  timeout_eq : m.heartbeatTimeout = timeout
  maxMissed_eq : m.maxMissedHeartbeats = maxMissed
  records : ∀ id, Matches (max 1 maxMissed) m.servers[id]? (watch timeout id evs)

/-- **The records say what the history says, after every history.** -/
theorem inLine_monitorRun {timeout maxMissed : Int} {evs : List MonitorEvent}
    (hclock : ∀ ev ∈ evs, 0 < ev.now) :
    InLine timeout maxMissed (monitorRun (newMonitor timeout maxMissed) evs) evs := by
  -- from the right, as a run is extended
  induction evs using List.reverseRecOn with
  | nil =>
      refine ⟨rfl, rfl, fun id => ?_⟩
      simp only [monitorRun, newMonitor, watch, List.foldl_nil, Std.ExtTreeMap.getElem?_empty]
      exact .absent
  | append_singleton evs ev ih =>
      obtain ⟨htimeout, hmissed, hrecords⟩ := ih fun e he => hclock e (by simp [he])
      obtain ⟨htimeout', hmissed'⟩ :=
        monitorStep_settings (monitorRun (newMonitor timeout maxMissed) evs) ev
      rw [monitorRun_append]
      refine ⟨htimeout'.trans htimeout, hmissed'.trans hmissed, fun id => ?_⟩
      rw [watch_append_singleton]
      have hthreshold : (monitorRun (newMonitor timeout maxMissed) evs).threshold =
          max 1 maxMissed := by
        rw [HealthMonitor.threshold, hmissed]
      have hid := hrecords id
      rw [← hthreshold] at hid ⊢
      have hstep := matches_step (hclock ev (by simp)) hid
      rw [htimeout] at hstep
      exact hstep

/-! ## The callbacks of one call -/

lemma firesUnhealthy_get {m : HealthMonitor} {ev : MonitorEvent} {id : Int} :
    FiresUnhealthy m ev id ↔
      ev.call = .check ∧ ∃ h, m.servers[id]? = some h ∧ m.givenUp ev.now h = true := by
  obtain ⟨now, call⟩ := ev
  cases call with
  | register serverId ip => simp [FiresUnhealthy, monitorStep]
  | heartbeat serverId health => simp [FiresUnhealthy, monitorStep]
  | deregister serverId => simp [FiresUnhealthy, monitorStep]
  | check =>
      simp only [FiresUnhealthy, monitorStep, HealthMonitor.checkHealth,
        HealthMonitor.newlyUnhealthy, List.map_map, List.mem_map, List.mem_filter,
        Function.comp_apply, HealthCallback.unhealthy.injEq, Prod.exists, true_and]
      constructor
      · rintro ⟨_, _, h, ⟨hmem, hgiven⟩, rfl, _⟩
        exact ⟨h, Map.mem_toList.mp hmem, hgiven⟩
      · rintro ⟨h, hget, hgiven⟩
        exact ⟨_, id, h, ⟨Map.mem_toList.mpr hget, hgiven⟩, rfl, rfl⟩

lemma firesRecovered_get {m : HealthMonitor} {ev : MonitorEvent} {id : Int} :
    FiresRecovered m ev id ↔
      ev.IsHeartbeat id ∧ ∃ h, m.servers[id]? = some h ∧ h.isHealthy = false ∧
        h.lastHeartbeat ≠ 0 := by
  obtain ⟨now, call⟩ := ev
  cases call with
  | register serverId ip => simp [FiresRecovered, monitorStep, MonitorEvent.IsHeartbeat]
  | check => simp [FiresRecovered, monitorStep, MonitorEvent.IsHeartbeat]
  | deregister serverId => simp [FiresRecovered, monitorStep, MonitorEvent.IsHeartbeat]
  | heartbeat serverId health =>
      simp only [FiresRecovered, monitorStep, HealthMonitor.recordHeartbeat,
        MonitorEvent.IsHeartbeat, MonitorCall.heartbeat.injEq]
      cases hget : m.servers[serverId]? with
      | none =>
          -- the record made on the way is healthy
          constructor
          · rintro ⟨h, hmem⟩
            simp at hmem
          · rintro ⟨⟨_, rfl, _⟩, h, hh, _⟩
            rw [hget] at hh
            cases hh
      | some r =>
          simp only [Option.getD_some]
          by_cases hdue : (!r.isHealthy && r.lastHeartbeat != 0) = true
          · rw [if_pos hdue]
            simp only [Bool.and_eq_true, Bool.not_eq_true', bne_iff_ne] at hdue
            constructor
            · rintro ⟨h, hmem⟩
              simp only [Option.toList_some, List.map_cons, List.map_nil, List.mem_singleton,
                HealthCallback.recovered.injEq] at hmem
              obtain ⟨rfl, _⟩ := hmem
              exact ⟨⟨health, rfl, rfl⟩, r, hget, hdue⟩
            · rintro ⟨⟨_, rfl, _⟩, _⟩
              exact ⟨_, by simp only [Option.toList_some, List.map_cons, List.mem_singleton,
                List.map_nil]; rfl⟩
          · rw [if_neg hdue]
            constructor
            · rintro ⟨h, hmem⟩
              simp at hmem
            · rintro ⟨⟨_, rfl, _⟩, h, hh, hflag, hbeat⟩
              rw [hget] at hh
              cases hh
              simp [hflag, hbeat] at hdue

section

variable {timeout maxMissed : Int} {m : HealthMonitor} {evs : List MonitorEvent}

/-- **The unhealthy callback fires at the check that brings the stale checks to the threshold.** -/
theorem firesUnhealthy_iff (h : InLine timeout maxMissed m evs) {ev : MonitorEvent} {id : Int} :
    FiresUnhealthy m ev id ↔ ev.call = .check ∧ ∃ w, watch timeout id evs = some w ∧
      timeout < elapsedSeconds ev.now w.since ∧
      ((w.staleChecks + 1 : Nat) : Int) = max 1 maxMissed := by
  obtain ⟨htimeout, hmissed, hrecords⟩ := h
  rw [firesUnhealthy_get]
  refine and_congr_right fun _ => ?_
  have hid := hrecords id
  generalize m.servers[id]? = r at hid ⊢
  generalize watch timeout id evs = w at hid ⊢
  cases hid with
  | absent => simp
  | @present r w since epoch missed healthy =>
      simp only [Option.some.injEq, exists_eq_left', HealthMonitor.givenUp, HealthMonitor.stale,
        since, epoch, missed, healthy, htimeout, hmissed, decide_eq_true_eq, ne_eq,
        not_false_eq_true, true_and]
      push_cast
      omega

/-- **The recovered callback fires at the heartbeats of a server that is unhealthy.** -/
theorem firesRecovered_iff (h : InLine timeout maxMissed m evs) {ev : MonitorEvent} {id : Int} :
    FiresRecovered m ev id ↔ ev.IsHeartbeat id ∧ Unhealthy m id := by
  rw [firesRecovered_get]
  refine and_congr_right fun _ => exists_congr fun r => and_congr_right fun hget => ?_
  have hid := h.records id
  rw [hget] at hid
  generalize watch timeout id evs = w at hid
  cases hid with
  | present since epoch missed healthy => simp [since, epoch]

end

/-! ## From one event to the next -/

/-- **A server is unhealthy after a call if the call gave it up, or if it was before and the call
is not its heartbeat or deregistration.** -/
theorem unhealthy_step {m : HealthMonitor} {ev : MonitorEvent} {id : Int} :
    Unhealthy (monitorStep m ev).2 id ↔ FiresUnhealthy m ev id ∨
      Unhealthy m id ∧ ¬ev.IsHeartbeat id ∧ ¬ev.IsDeregistration id := by
  rw [firesUnhealthy_get]
  obtain ⟨now, call⟩ := ev
  cases call with
  | register serverId ip =>
      simp only [Unhealthy, monitorStep, HealthMonitor.registerServer_get,
        MonitorEvent.IsHeartbeat, MonitorEvent.IsDeregistration]
      by_cases hid : id = serverId
      · subst hid
        cases m.servers[id]? <;> simp
      · simp [hid]
  | heartbeat serverId health =>
      simp only [Unhealthy, monitorStep, HealthMonitor.recordHeartbeat_get,
        MonitorEvent.IsHeartbeat, MonitorEvent.IsDeregistration]
      by_cases hid : id = serverId
      · simp [hid]
      · simp [hid, Ne.symm hid]
  | check =>
      simp only [Unhealthy, monitorStep, HealthMonitor.checkHealth_get,
        MonitorEvent.IsHeartbeat, MonitorEvent.IsDeregistration]
      cases m.servers[id]? with
      | none => simp
      | some r => simp [HealthMonitor.checkRecord_isHealthy, or_comm]
  | deregister serverId =>
      simp only [Unhealthy, monitorStep, HealthMonitor.deregisterServer, Map.get_erase,
        MonitorEvent.IsHeartbeat, MonitorEvent.IsDeregistration]
      by_cases hid : id = serverId
      · simp [hid]
      · simp [hid, Ne.symm hid]

/-- A server that is unhealthy is not given up again. -/
lemma not_firesUnhealthy_of_unhealthy {m : HealthMonitor} {ev : MonitorEvent} {id : Int}
    (h : Unhealthy m id) : ¬FiresUnhealthy m ev id := by
  rw [firesUnhealthy_get]
  rintro ⟨_, r, hr, hgiven⟩
  obtain ⟨r', hr', hflag⟩ := h
  rw [hr] at hr'
  cases hr'
  simp [HealthMonitor.givenUp, hflag] at hgiven

/-- A server stays unhealthy until its next heartbeat or deregistration. -/
lemma unhealthy_until {m : HealthMonitor} {id : Int} (h : Unhealthy m id)
    (evs : List MonitorEvent) :
    Unhealthy (monitorRun m evs) id ∨ ∃ pre ev post, evs = pre ++ ev :: post ∧
      Unhealthy (monitorRun m pre) id ∧ (ev.IsHeartbeat id ∨ ev.IsDeregistration id) := by
  induction evs generalizing m with
  | nil => exact .inl h
  | cons ev evs ih =>
      by_cases hquiet : ev.IsHeartbeat id ∨ ev.IsDeregistration id
      · exact .inr ⟨[], ev, evs, rfl, h, hquiet⟩
      · rcases ih (unhealthy_step.mpr (.inr ⟨h, not_or.mp hquiet⟩)) with
          hrun | ⟨pre, e, post, hevs, hrun, he⟩
        · exact .inl hrun
        · exact .inr ⟨ev :: pre, e, post, by rw [hevs]; rfl, hrun, he⟩

/-- **A server is unhealthy after a history exactly if it was given up in it, and neither sent a
heartbeat nor was deregistered since.** -/
theorem unhealthy_run_iff {timeout maxMissed : Int} {id : Int} {evs : List MonitorEvent} :
    Unhealthy (monitorRun (newMonitor timeout maxMissed) evs) id ↔
      ∃ pre ev post, evs = pre ++ ev :: post ∧
        FiresUnhealthy (monitorRun (newMonitor timeout maxMissed) pre) ev id ∧
        ∀ e ∈ post, ¬e.IsHeartbeat id ∧ ¬e.IsDeregistration id := by
  induction evs using List.reverseRecOn with
  | nil => simp [monitorRun, newMonitor, Unhealthy]
  | append_singleton evs last ih =>
      rw [monitorRun_append]
      refine unhealthy_step.trans ?_
      rw [ih]
      constructor
      · rintro (hfires | ⟨⟨pre, ev, post, rfl, hfires, hpost⟩, hlast⟩)
        · exact ⟨evs, last, [], rfl, hfires, by simp⟩
        · refine ⟨pre, ev, post ++ [last], by simp, hfires, fun e he => ?_⟩
          rcases List.mem_append.mp he with he | he
          · exact hpost e he
          · rw [List.mem_singleton.mp he]
            exact hlast
      · rintro ⟨pre, ev, post, hevs, hfires, hpost⟩
        rcases List.eq_nil_or_concat' post with rfl | ⟨post, last', rfl⟩
        · -- the firing is the last event
          obtain ⟨rfl, hlast⟩ := List.append_inj' hevs rfl
          cases hlast
          exact .inl hfires
        · rw [← List.cons_append, ← List.append_assoc] at hevs
          obtain ⟨rfl, hlast⟩ := List.append_inj' hevs rfl
          cases hlast
          exact .inr ⟨⟨pre, ev, post, rfl, hfires, fun e he => hpost e (by simp [he])⟩,
            hpost last (by simp)⟩

/-- No call calls back twice for one server. -/
lemma nodup_callbacks (m : HealthMonitor) (ev : MonitorEvent) :
    ((monitorStep m ev).1.map HealthCallback.serverId).Nodup := by
  obtain ⟨now, call⟩ := ev
  cases call with
  | register serverId ip => exact List.nodup_nil
  | deregister serverId => exact List.nodup_nil
  | heartbeat serverId health =>
      simp only [monitorStep, HealthMonitor.recordHeartbeat]
      split <;> simp
  | check =>
      have hkeys : ((monitorStep m ⟨now, .check⟩).1.map HealthCallback.serverId) =
          (m.servers.toList.filter fun p => m.givenUp now p.2).map (·.1) := by
        simp [monitorStep, HealthMonitor.checkHealth, HealthMonitor.newlyUnhealthy,
          HealthCallback.serverId]
      rw [hkeys]
      exact (Map.nodup_keys_toList m.servers).sublist (List.filter_sublist.map _)

/-- **Health events are exact and alternate.**  In every history of calls on a monitor with both
callbacks set, for every server: no call calls back twice; the unhealthy callback fires at the
checks at which the stale checks since the last heartbeat or registration reach the threshold, the
recovered one at the heartbeats that find the server unhealthy; between two firings of the first
the second fires or the server is deregistered; and the server is unhealthy from a firing to its
next heartbeat or deregistration. -/
theorem health_events_exact {timeout maxMissed : Int} (hmax : 1 ≤ maxMissed)
    {evs : List MonitorEvent} (hclock : ∀ ev ∈ evs, 0 < ev.now) (id : Int) :
    let run := monitorRun (newMonitor timeout maxMissed)
    (∀ pre ev post, evs = pre ++ ev :: post →
      ((monitorStep (run pre) ev).1.map HealthCallback.serverId).Nodup ∧
      (FiresUnhealthy (run pre) ev id ↔ ev.call = .check ∧ ∃ w, watch timeout id pre = some w ∧
        timeout < elapsedSeconds ev.now w.since ∧
        ((w.staleChecks + 1 : Nat) : Int) = maxMissed) ∧
      (FiresRecovered (run pre) ev id ↔ ev.IsHeartbeat id ∧ Unhealthy (run pre) id)) ∧
    (∀ pre ev mid ev' post, evs = pre ++ ev :: mid ++ ev' :: post →
      FiresUnhealthy (run pre) ev id → FiresUnhealthy (run (pre ++ ev :: mid)) ev' id →
      ∃ a e b, mid = a ++ e :: b ∧
        (FiresRecovered (run (pre ++ ev :: a)) e id ∨ e.IsDeregistration id)) ∧
    (∀ pre post, evs = pre ++ post → (Unhealthy (run pre) id ↔
      ∃ a ev b, pre = a ++ ev :: b ∧ FiresUnhealthy (run a) ev id ∧
        ∀ e ∈ b, ¬e.IsHeartbeat id ∧ ¬e.IsDeregistration id)) := by
  intro run
  have hline : ∀ {pre post}, evs = pre ++ post → InLine timeout maxMissed (run pre) pre := by
    rintro pre post rfl
    exact inLine_monitorRun fun ev hev => hclock ev (List.mem_append_left _ hev)
  have hfires : ∀ {pre ev post}, evs = pre ++ ev :: post →
      (FiresUnhealthy (run pre) ev id ↔ ev.call = .check ∧ ∃ w, watch timeout id pre = some w ∧
        timeout < elapsedSeconds ev.now w.since ∧
        ((w.staleChecks + 1 : Nat) : Int) = maxMissed) := by
    intro pre ev post hevs
    rw [firesUnhealthy_iff (hline hevs), max_eq_right hmax]
  refine ⟨fun pre ev post hevs => ⟨nodup_callbacks _ _, hfires hevs,
    firesRecovered_iff (hline hevs)⟩, ?_, fun pre post _ => unhealthy_run_iff⟩
  intro pre ev mid ev' post hevs hfirst hsecond
  have hrun : ∀ a, run (pre ++ ev :: a) = monitorRun (monitorStep (run pre) ev).2 a := by
    intro a
    exact monitorRun_append _ _ _
  -- between the two the server stays unhealthy up to a heartbeat or a deregistration, and it must
  -- not be unhealthy at the second
  have hun : Unhealthy (monitorStep (run pre) ev).2 id := unhealthy_step.mpr (.inl hfirst)
  rcases unhealthy_until hun mid with hstill | ⟨a, e, b, rfl, hstill, he⟩
  · rw [← hrun] at hstill
    exact absurd hsecond (not_firesUnhealthy_of_unhealthy hstill)
  · rw [← hrun] at hstill
    refine ⟨a, e, b, rfl, he.imp_left fun hbeat => ?_⟩
    have hpre : evs = (pre ++ ev :: a) ++ (e :: b ++ ev' :: post) := by
      rw [hevs]
      simp
    exact (firesRecovered_iff (hline hpre)).mpr ⟨hbeat, hstill⟩

/-- A server that registers at second 1 is given up at second 100, with a timeout of a minute and
one missed heartbeat allowed; its heartbeat at second 101 is a recovery. -/
theorem health_events_exact_registered :
    let register : MonitorEvent := ⟨10 ^ 9, .register 7 []⟩
    let check : MonitorEvent := ⟨100 * 10 ^ 9, .check⟩
    let beat : MonitorEvent := ⟨101 * 10 ^ 9, .heartbeat 7 {}⟩
    FiresUnhealthy (monitorRun (newMonitor 60 1) [register]) check 7 ∧
      FiresRecovered (monitorRun (newMonitor 60 1) [register, check]) beat 7 := by
  intro register check beat
  have hexact := @health_events_exact 60 1 (by decide) [register, check, beat] (by decide) 7
  have hfires : FiresUnhealthy (monitorRun (newMonitor 60 1) [register]) check 7 :=
    (hexact.1 [register] check [beat] rfl).2.1.mpr ⟨rfl, ⟨10 ^ 9, 0⟩, rfl, by decide, rfl⟩
  refine ⟨hfires, (hexact.1 [register, check] beat [] rfl).2.2.mpr ⟨⟨{}, rfl⟩, ?_⟩⟩
  exact (hexact.2.2 [register, check] [beat] rfl).mpr ⟨[register], check, [], rfl, hfires, by simp⟩

end FileGrid
