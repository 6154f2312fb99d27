import FileGrid.Monitor.Discovery

/-!
# Debouncing

`check_head_server_health` calls a server unhealthy only after three failures in a row.  Others
write the status as well: discovery, which takes it from the text of the server; the loop of
`monitor_loop`, after every check; and the election, when it demotes a leader.

**The writes of a run.**  `runWrites` lists these writes: the server before and after, and what the
probe came to if the server was probed, and not only looked up.  `failedLast` counts the failed
probes among them since the last one that succeeded.

**What comes of a failure.**  A server that was healthy and fails a probe is unhealthy at once,
whatever the counter says, because the loop of `monitor_loop` says so; no leader is ever demoted,
because no server is marked when the election looks for the leader (`regular_runWrites`).

**`unhealthy_after_three_iff`**: in a run every server that was healthy is given up only after three
failures exactly if no such server fails a probe before two others of it have failed, or calls
itself unhealthy before three have.
-/

namespace FileGrid

namespace Monitor

/-! ## The writes of a run -/

/-- A write of the status of a server. -/
structure StatusWrite where
  /-- The server as the round before left it, until the checks of the round are done. -/
  earlier : Option HeadServerInfo
  server : HeadServerInfo
  /-- Whether the server accepted a connection, if it was probed. -/
  probe : Option Bool
  after : HeadServerInfo

/-- Discovery: every server has the status of its text. -/
def discoveryWrites (old found : Monitor) : List StatusWrite :=
  found.headServers.toList.map fun p => ⟨old.headServers[p.1]?, p.2, none, p.2⟩

/-- The check of a server of the map; the second state is the one that the caller leaves. -/
def checkWrites (earlier : Option HeadServerInfo) (m m' : Monitor) (id : Bytes) (probe : Probe) :
    List StatusWrite :=
  match m.headServers[id]? with
  | none => []
  | some info =>
      [{ earlier
         server := info
         probe :=
          if info.RecentlyHealthy (m.probing.clock + probe.delay) then none
          else some (checkHeadServerHealth m.probing info probe).healthy
         after := m'.headServers[id]?.getD info }]

/-- The loop of `monitor_loop`. -/
def healthWrites (old : Monitor) (r : Round) : List Bytes → Monitor → List StatusWrite
  | [], _ => []
  | id :: ids, m =>
      checkWrites old.headServers[id]? m (m.healthCheck r id) id (r.healthProbe id) ++
        healthWrites old r ids (m.healthCheck r id)

/-- The check of the current leader. -/
def leaderWrites (r : Round) : List Bytes → Monitor → List StatusWrite
  | [], _ => []
  | id :: ids, m =>
      if m.headServers[id]?.any (·.isLeader) then
        checkWrites none m (findCurrentLeader r (id :: ids) m).2 id (r.leaderProbe id)
      else leaderWrites r ids m

/-- The checks of the candidates; a healthy one is not checked. -/
def candidateWrites (r : Round) : List Bytes → Option Bytes × Monitor → List StatusWrite
  | [], _ => []
  | id :: ids, state =>
      (if state.2.headServers[id]?.any (·.status = ascii "healthy") then []
        else checkWrites none state.2 (considerCandidate r state id).2 id (r.candidateProbe id)) ++
      candidateWrites r ids (considerCandidate r state id)

/-- `perform_leader_election`, up to the election itself. -/
def electionWrites (r : Round) (m : Monitor) : List StatusWrite :=
  let m := { m with probing.clock := m.probing.clock + r.electionDelay }
  leaderWrites r m.serverIds m ++
    match findCurrentLeader r m.serverIds m with
    | (some (_, true), _) => []
    | (_, m) => candidateWrites r m.serverIds (none, m)

def roundWrites (stod : Bytes → Option Double) (m : Monitor) (r : Round) : List StatusWrite :=
  let found := discoverHeadServers stod m r
  discoveryWrites m found.2 ++
    if found.1 then
      healthWrites m r found.2.serverIds found.2 ++ electionWrites r (found.2.healthChecks r)
    else []

def runWrites (stod : Bytes → Option Double) : Monitor → List Round → List StatusWrite
  | _, [] => []
  | m, r :: rounds => roundWrites stod m r ++ runWrites stod (round stod m r) rounds

/-! ### Without a marked leader -/

lemma leaderWrites_of_unmarked (r : Round) (ids : List Bytes) {m : Monitor} (h : m.Unmarked) :
    leaderWrites r ids m = [] := by
  induction ids with
  | nil => rfl
  | cons id ids ih =>
      rw [leaderWrites, if_neg, ih]
      cases hinfo : m.headServers[id]? with
      | none => simp
      | some info => simp [(h id info hinfo).2]

lemma electionWrites_of_unmarked (r : Round) {m : Monitor} (h : m.Unmarked) :
    electionWrites r m =
      let m := { m with probing.clock := m.probing.clock + r.electionDelay }
      candidateWrites r m.serverIds (none, m) := by
  have hwait : Unmarked { m with probing.clock := m.probing.clock + r.electionDelay } := h
  rw [electionWrites]
  dsimp only
  rw [leaderWrites_of_unmarked r _ hwait, findCurrentLeader_of_unmarked r _ hwait]
  rfl

/-! ## The counter -/

/-- The failed probes since the last one that succeeded, among the writes that are meant. -/
def failedLast (meant : StatusWrite → Bool) (writes : List StatusWrite) : Nat :=
  (((writes.filter meant).filterMap (·.probe)).reverse.takeWhile (!·)).length

lemma failedLast_concat (meant : StatusWrite → Bool) (writes : List StatusWrite) {w : StatusWrite}
    (h : meant w = true) :
    failedLast meant (writes ++ [w]) =
      match w.probe with
      | none => failedLast meant writes
      | some true => 0
      | some false => failedLast meant writes + 1 := by
  rw [failedLast, failedLast, List.filter_append, List.filter_cons, if_pos h, List.filter_nil,
    List.filterMap_append, List.filterMap_cons]
  rcases w.probe with - | - | -
  · simp
  · simp
  · simp

/-! ## What comes of a failure -/

/-- The server was healthy before: when the round before ended, or by its text. -/
def StatusWrite.WasHealthy (w : StatusWrite) : Prop :=
  w.server.status = ascii "healthy" ∨ w.earlier.any (·.status = ascii "healthy") = true

/-- A server that was healthy is given up, or a leader is demoted. -/
def StatusWrite.GivesUp (w : StatusWrite) : Prop :=
  (w.WasHealthy ∧ w.after.status = ascii "unhealthy") ∨
    (w.server.isLeader = true ∧ w.after.isLeader = false)

instance (w : StatusWrite) : Decidable w.WasHealthy := inferInstanceAs (Decidable (_ ∨ _))

instance (w : StatusWrite) : Decidable w.GivesUp := inferInstanceAs (Decidable (_ ∨ _))

/-- The server calls itself unhealthy. -/
def StatusWrite.Announced (w : StatusWrite) : Prop :=
  w.probe = none ∧ w.server.status = ascii "unhealthy"

/-- What holds for every write of a run. -/
structure StatusWrite.Regular (w : StatusWrite) : Prop where
  /-- One failure is enough. -/
  unhealthy_iff : w.WasHealthy →
    (w.after.status = ascii "unhealthy" ↔ w.probe = some false ∨ w.Announced)
  leader_kept : w.after.isLeader = w.server.isLeader

lemma regular_discoveryWrites (old found : Monitor) :
    ∀ w ∈ discoveryWrites old found, w.Regular := by
  intro w hw
  obtain ⟨p, -, rfl⟩ := List.mem_map.mp hw
  exact ⟨fun _ => by simp [StatusWrite.Announced], rfl⟩

/-- The loop of `monitor_loop`: a server is unhealthy exactly if it fails its probe. -/
lemma regular_healthWrites (old : Monitor) (r : Round) (ids : List Bytes) (m : Monitor) :
    ∀ w ∈ healthWrites old r ids m, w.Regular := by
  induction ids generalizing m with
  | nil => simp [healthWrites]
  | cons id ids ih =>
      intro w hw
      rcases List.mem_append.mp hw with hw | hw
      · rw [checkWrites, healthCheck] at hw
        cases hinfo : m.headServers[id]? with
        | none => simp [hinfo] at hw
        | some info =>
            rw [hinfo] at hw
            have hcheck := checked_checkHeadServerHealth m.probing info (r.healthProbe id)
            dsimp only at hw
            generalize checkHeadServerHealth m.probing info (r.healthProbe id) = result
              at hcheck hw
            rw [List.mem_singleton.mp hw]
            refine ⟨fun _ => ?_, ?_⟩
            · simp only [StatusWrite.Announced, Map.get_insert, if_true, Option.getD_some]
              cases hcheck with
              | recent hrecent => simp [hrecent, hrecent.2, unhealthy_ne_healthy.symm]
              | connected clock counts hrecent hconnects hclock =>
                  simp [hrecent, unhealthy_ne_healthy.symm]
              | failed clock counts status hrecent hconnects hclock hkept => simp [hrecent]
            · simp only [Map.get_insert, if_true, Option.getD_some]
              exact hcheck.isLeader_eq
      · exact ih _ w hw

/-- The search for the best candidate checks nobody who was healthy. -/
lemma regular_candidateWrites (r : Round) (ids : List Bytes) (state : Option Bytes × Monitor) :
    ∀ w ∈ candidateWrites r ids state, w.Regular := by
  induction ids generalizing state with
  | nil => simp [candidateWrites]
  | cons id ids ih =>
      intro w hw
      rcases List.mem_append.mp hw with hw | hw
      · cases hinfo : state.2.headServers[id]? with
        | none => simp [checkWrites, hinfo] at hw
        | some info =>
            split_ifs at hw with hstatus
            · exact absurd hw List.not_mem_nil
            · rw [checkWrites, hinfo] at hw
              rw [List.mem_singleton.mp hw]
              rw [hinfo, Option.any_some, decide_eq_true_eq] at hstatus
              refine ⟨fun hwas => ?_, ?_⟩
              · exact absurd hwas (by simp [StatusWrite.WasHealthy, hstatus])
              · obtain ⟨t, status, heq⟩ := server_eq_checkCandidate r state.2 id info
                simp [considerCandidate_snd r hinfo, heq]
      · exact ih _ w hw

lemma regular_roundWrites (stod : Bytes → Option Double) (m : Monitor) (r : Round) :
    ∀ w ∈ roundWrites stod m r, w.Regular := by
  intro w hw
  rcases List.mem_append.mp hw with hw | hw
  · exact regular_discoveryWrites m _ w hw
  split_ifs at hw
  · rcases List.mem_append.mp hw with hw | hw
    · exact regular_healthWrites m r _ _ w hw
    · have hunmarked : ((discoverHeadServers stod m r).2.healthChecks r).Unmarked :=
        unmarked_beforeElection stod m r
      rw [electionWrites_of_unmarked r hunmarked] at hw
      exact regular_candidateWrites r _ _ w hw
  · exact absurd hw List.not_mem_nil

lemma regular_runWrites (stod : Bytes → Option Double) (m : Monitor) (rounds : List Round) :
    ∀ w ∈ runWrites stod m rounds, w.Regular := by
  induction rounds generalizing m with
  | nil => simp [runWrites]
  | cons r rounds ih =>
      intro w hw
      rcases List.mem_append.mp hw with hw | hw
      · exact regular_roundWrites stod m r w hw
      · exact ih _ w hw

/-! ## Three failures -/

/-- The probes of one server that failed since the last one that succeeded. -/
def failedLastOf (id : Bytes) (writes : List StatusWrite) : Nat :=
  failedLast (·.server.serverId = id) writes

/-- **A write, after others: the server is given up only if its last three probes failed.** -/
def Debounced (writes : List StatusWrite) (w : StatusWrite) : Prop :=
  w.GivesUp → 3 ≤ failedLastOf w.server.serverId (writes ++ [w])

instance (writes : List StatusWrite) (w : StatusWrite) : Decidable (Debounced writes w) :=
  inferInstanceAs (Decidable (_ → _))

/-- A server that was healthy fails a probe only if its last two probes failed, and calls itself
unhealthy only if its last three did. -/
def FailsLate (writes : List StatusWrite) (w : StatusWrite) : Prop :=
  w.WasHealthy →
    (w.probe = some false → 2 ≤ failedLastOf w.server.serverId writes) ∧
      (w.Announced → 3 ≤ failedLastOf w.server.serverId writes)

lemma debounced_iff {w : StatusWrite} (h : w.Regular) (writes : List StatusWrite) :
    Debounced writes w ↔ FailsLate writes w := by
  have hgives : w.GivesUp ↔ w.WasHealthy ∧ (w.probe = some false ∨ w.Announced) := by
    rw [StatusWrite.GivesUp, h.leader_kept, and_congr_right h.unhealthy_iff]
    simp
  rw [Debounced, FailsLate, hgives, and_imp, or_imp, failedLastOf, failedLastOf,
    failedLast_concat _ _ (by simp)]
  refine imp_congr_right fun _ => and_congr ?_ ?_
  · refine imp_congr_right fun hfailed => ?_
    rw [hfailed]
    dsimp only
    omega
  · refine imp_congr_right fun hannounced => ?_
    rw [hannounced.1]

/-- **When failures are debounced.**  In a run every server that was healthy is given up, and every
leader demoted, only after three failed probes exactly if no server that was healthy fails a probe
before two others of it have failed, or calls itself unhealthy before three have. -/
theorem unhealthy_after_three_iff (stod : Bytes → Option Double) (clock : Nat)
    (rounds : List Round) :
    let writes := runWrites stod { probing := { clock } } rounds
    AlongRun (fun writes w => writes ++ [w]) Debounced [] writes ↔
      AlongRun (fun writes w => writes ++ [w]) FailsLate [] writes := by
  intro writes
  refine alongRun_congr_of_mem (fun w hw earlier => ?_) []
  exact debounced_iff (regular_runWrites stod _ rounds w hw) earlier

/-- The server is healthy in the first round, fails one check in the second, and is unhealthy. -/
theorem healthy_given_up_at_once :
    let children := [childOf "a" "ip=10.0.0.1,port=9669"]
    let rounds := [roundOf children fun _ => true, roundOf children fun _ => false]
    let writes := runWrites stodWhole {} rounds
    (writes.take 4).map (fun w => (w.probe, w.after.status)) =
        [(none, ascii "unknown"), (some true, ascii "healthy"), (none, ascii "unknown"),
          (some false, ascii "unhealthy")] ∧
      failedLastOf (ascii "a") (writes.take 4) = 1 ∧
      ¬AlongRun (fun writes w => writes ++ [w]) Debounced [] writes := by
  intro children rounds writes
  exact ⟨by decide +kernel, by decide +kernel, by decide +kernel⟩

end Monitor

end FileGrid
