import FileGrid.Monitor.HealthChecker

/-!
# Who is given up by the health checker

The health checker has an entry per server and forgets everything else; what is in the entry is a
history in short.

**The history of a silence.**  `sinceHeartbeat` is the time of the last heartbeat of a server and
the calls after it.  `Silent` says what the entry keeps of them: how many checks the server has
missed, and whether one of them gave it up (`GivenUp`), because by then enough were missed and
ZooKeeper had no node for it.  `silent_step` is the step of a call, and needs a clock that does not
go back: a check at which the heartbeat is recent then finds that none was missed
(`Silent.restores`).

**`unhealthy_iff_givenUp`**: after any run of heartbeats and checks, a server is unhealthy exactly
if it was heard of and was given up since its last heartbeat.

**The check comes too late.**  An entry is marked because its last heartbeat is old.  It gets a
recent one only from `process_heartbeat`, which restores it on the spot and leaves nothing to the
check; so as long as the clock does not go back, `servers_recovered_` stays at zero
(`serversRecovered_eq_zero`).
-/

namespace FileGrid

namespace HealthChecker

/-! ## Histories -/

/-- The call is a heartbeat of the server. -/
def Call.isHeartbeatOf (serverId : Int) : Call → Bool
  | .heartbeat _ hb => hb.serverId = serverId
  | .check _ _ => false

/-- The time of the last heartbeat and the calls after it, one call later. -/
def hear (serverId : Int) (since : Option (Int × List Call)) (call : Call) :
    Option (Int × List Call) :=
  if call.isHeartbeatOf serverId then some (call.now, [])
  else since.map fun s => (s.1, s.2 ++ [call])

/-- **The time of the last heartbeat of a server, and the calls after it.** -/
def sinceHeartbeat (serverId : Int) (calls : List Call) : Option (Int × List Call) :=
  calls.foldl (hear serverId) none

/-- The call is a check that finds a heartbeat of time `t` too old. -/
def Call.misses (timeout t : Int) : Call → Bool
  | .heartbeat _ _ => false
  | .check now _ => timeout * 10 ^ 9 < now - t

/-- How many checks a server has missed since its heartbeat at `t`. -/
def missedChecks (timeout t : Int) (calls : List Call) : Nat := calls.countP (·.misses timeout t)

/-- The call is a check that gives the server up: it is missed, with it enough are, and ZooKeeper
has no node for the server. -/
def Call.givesUp (maxMissed timeout t serverId : Int) (missed : Nat) : Call → Bool
  | .heartbeat _ _ => false
  | .check now nodeExists => Call.misses timeout t (.check now nodeExists) &&
      (maxMissed ≤ (missed : Int) + 1) && !nodeExists (znode serverId)

/-- **The server was given up** by one of the calls since its heartbeat at `t`. -/
def GivenUp (maxMissed timeout t serverId : Int) (calls : List Call) : Prop :=
  ∃ mid call rest, calls = mid ++ call :: rest ∧
    call.givesUp maxMissed timeout t serverId (missedChecks timeout t mid) = true

/-- The entry of a server that has sent its last heartbeat at `t`, `calls` ago. -/
structure Silent (maxMissed timeout serverId t : Int) (calls : List Call)
    (health : ServerHealth) : Prop where
  lastHeartbeat : health.lastHeartbeat = t
  missed : health.missedHeartbeats = missedChecks timeout t calls
  unhealthy : health.isHealthy = false ↔ GivenUp maxMissed timeout t serverId calls

/-- There is an entry exactly if there was a heartbeat, and it is that of the silence since then. -/
def Keeps (c : HealthChecker) (serverId : Int) (since : Option (Int × List Call)) : Prop :=
  Option.Rel (fun s => Silent c.maxMissedHeartbeats c.heartbeatTimeout serverId s.1 s.2) since
    c.servers[serverId]?

lemma sinceHeartbeat_concat (serverId : Int) (calls : List Call) (call : Call) :
    sinceHeartbeat serverId (calls ++ [call]) =
      hear serverId (sinceHeartbeat serverId calls) call :=
  List.foldl_append

lemma mem_of_sinceHeartbeat {serverId : Int} {calls : List Call} {since : Int × List Call}
    (h : sinceHeartbeat serverId calls = some since) : ∀ call ∈ since.2, call ∈ calls := by
  induction calls using List.reverseRecOn generalizing since with
  | nil => cases h
  | append_singleton calls last ih =>
      rw [sinceHeartbeat_concat, hear] at h
      split_ifs at h
      · cases h
        simp
      · obtain ⟨before, hbefore, rfl⟩ := Option.map_eq_some_iff.mp h
        refine List.forall_mem_append.mpr ⟨fun call hcall => ?_, by simp⟩
        exact List.mem_append_left _ (ih hbefore call hcall)

/-! ## One call -/

section

variable {maxMissed timeout t serverId : Int} {calls : List Call} {health : ServerHealth}

lemma missedChecks_concat (call : Call) : missedChecks timeout t (calls ++ [call]) =
    missedChecks timeout t calls + if call.misses timeout t then 1 else 0 := by
  rw [missedChecks, List.countP_append, List.countP_singleton]
  rfl

/-- A server is given up at the last call, or was before. -/
lemma givenUp_concat {call : Call} : GivenUp maxMissed timeout t serverId (calls ++ [call]) ↔
    GivenUp maxMissed timeout t serverId calls ∨
      call.givesUp maxMissed timeout t serverId (missedChecks timeout t calls) = true := by
  constructor
  · rintro ⟨mid, last, rest, hcalls, hlast⟩
    rcases List.eq_nil_or_concat rest with rfl | ⟨rest, last', rfl⟩
    · obtain ⟨rfl, hcall⟩ := List.append_inj' hcalls rfl
      cases hcall
      exact Or.inr hlast
    · rw [List.concat_eq_append, ← List.cons_append, ← List.append_assoc] at hcalls
      obtain ⟨rfl, -⟩ := List.append_inj' hcalls rfl
      exact Or.inl ⟨mid, last, rest, rfl, hlast⟩
  · rintro (⟨mid, last, rest, rfl, hlast⟩ | hlast)
    · exact ⟨mid, last, rest ++ [call], by simp, hlast⟩
    · exact ⟨calls, call, [], rfl, hlast⟩

/-- A check that is not missed comes before all that are. -/
lemma missedChecks_eq_zero {now : Int} (hclock : ∀ call ∈ calls, call.now ≤ now)
    (h : now - t ≤ timeout * 10 ^ 9) : missedChecks timeout t calls = 0 := by
  refine List.countP_eq_zero.mpr fun call hcall hmisses => ?_
  have hle := hclock call hcall
  cases call with
  | heartbeat now' hb => cases hmisses
  | check now' nodeExists =>
      have hlate := of_decide_eq_true hmisses
      rw [Call.now] at hle
      omega

/-- **Nothing is left for a check to restore.** -/
lemma Silent.restores {c : HealthChecker}
    (h : Silent c.maxMissedHeartbeats c.heartbeatTimeout serverId t calls health) {now : Int}
    (hclock : ∀ call ∈ calls, call.now ≤ now) : c.restores now health = false := by
  cases hoverdue : c.overdue now health with
  | true =>
      rw [HealthChecker.restores, hoverdue]
      rfl
  | false =>
      rw [overdue, h.lastHeartbeat] at hoverdue
      have hzero := missedChecks_eq_zero hclock (not_lt.mp (of_decide_eq_false hoverdue))
      rw [HealthChecker.restores, h.missed, hzero]
      exact Bool.and_false _

/-- A call that is not a missed check changes nothing. -/
lemma Silent.concat (h : Silent maxMissed timeout serverId t calls health) {call : Call}
    (hmisses : call.misses timeout t = false) :
    Silent maxMissed timeout serverId t (calls ++ [call]) health := by
  refine ⟨h.lastHeartbeat, ?_, ?_⟩
  · rw [missedChecks_concat, hmisses]
    exact h.missed
  · rw [h.unhealthy, givenUp_concat]
    refine (or_iff_left ?_).symm
    cases call with
    | heartbeat now hb => exact Bool.false_ne_true
    | check now nodeExists => simp [Call.givesUp, hmisses]

/-- **A check ages the entry.** -/
lemma Silent.check {c : HealthChecker}
    (h : Silent c.maxMissedHeartbeats c.heartbeatTimeout serverId t calls health) {now : Int}
    (nodeExists : Bytes → Bool) (hclock : ∀ call ∈ calls, call.now ≤ now) :
    Silent c.maxMissedHeartbeats c.heartbeatTimeout serverId t (calls ++ [.check now nodeExists])
      (c.checkServer now nodeExists serverId health) := by
  have hoverdue : c.overdue now health =
      (Call.check now nodeExists).misses c.heartbeatTimeout t := by
    rw [overdue, h.lastHeartbeat]
    rfl
  rw [checkServer, hoverdue, h.restores hclock]
  cases hmisses : (Call.check now nodeExists).misses c.heartbeatTimeout t with
  | true =>
      refine ⟨h.lastHeartbeat, ?_, ?_⟩
      · rw [missedChecks_concat, hmisses]
        push_cast
        rw [← h.missed]
        rfl
      · rw [givenUp_concat, ← h.unhealthy, if_pos rfl, Call.givesUp, marks, hoverdue, hmisses,
          h.missed]
        cases health.isHealthy <;> simp
  | false => exact h.concat hmisses

end

/-- A heartbeat begins a silence. -/
lemma silent_heartbeat (c : HealthChecker) (now : Int) (hb : HeartBeat) :
    (c.processHeartbeat now hb).Keeps hb.serverId (some (now, [])) := by
  have hhealthy : ∀ healthy : Bool, (if !healthy then true else healthy) = true := by decide
  rw [Keeps, processHeartbeat, Map.get_insert, if_pos rfl]
  refine .some ⟨rfl, rfl, iff_of_false ?_ ?_⟩
  · dsimp only
    rw [hhealthy]
    decide
  · rintro ⟨mid, call, rest, hcalls, -⟩
    simp at hcalls

/-- **A call goes on with the silence of every server, or ends it.** -/
lemma silent_step {c : HealthChecker} {serverId : Int} {since : Option (Int × List Call)}
    (h : c.Keeps serverId since) {call : Call}
    (hclock : ∀ s ∈ since, ∀ earlier ∈ s.2, earlier.now ≤ call.now) :
    (c.step call).Keeps serverId (hear serverId since call) := by
  cases call with
  | heartbeat now hb =>
      by_cases hid : hb.serverId = serverId
      · subst hid
        rw [hear, if_pos (by simp [Call.isHeartbeatOf])]
        exact silent_heartbeat c now hb
      · rw [hear, if_neg (by simpa [Call.isHeartbeatOf] using hid), Keeps, step, processHeartbeat,
          Map.get_insert, if_neg (Ne.symm hid)]
        rw [Keeps] at h
        generalize c.servers[serverId]? = entry at h
        cases h with
        | none => exact .none
        | some hsilent => exact .some (hsilent.concat rfl)
  | check now nodeExists =>
      rw [hear, if_neg (by simp [Call.isHeartbeatOf]), Keeps, step, servers_checkServerHealth]
      rw [Keeps] at h
      generalize c.servers[serverId]? = entry at h
      cases h with
      | none => exact .none
      | some hsilent => exact .some (hsilent.check nodeExists (hclock _ rfl))

/-! ## Whole runs -/

/-- **The entries are the silences of a run**, as long as the clock does not go back. -/
lemma silent_run {c : HealthChecker} (hstart : c.servers = ∅) {calls : List Call}
    (hclock : calls.Pairwise fun call later => call.now ≤ later.now) (serverId : Int) :
    (calls.foldl step c).Keeps serverId (sinceHeartbeat serverId calls) := by
  induction calls using List.reverseRecOn with
  | nil =>
      rw [Keeps, List.foldl_nil, hstart]
      exact .none
  | append_singleton calls call ih =>
      obtain ⟨hbefore, -, hlast⟩ := List.pairwise_append.mp hclock
      rw [List.foldl_append, List.foldl_cons, List.foldl_nil, sinceHeartbeat_concat]
      refine silent_step (ih hbefore) fun s hs earlier hearlier => ?_
      exact hlast earlier (mem_of_sinceHeartbeat hs earlier hearlier) call List.mem_cons_self

lemma settings_run (c : HealthChecker) (calls : List Call) :
    (calls.foldl step c).maxMissedHeartbeats = c.maxMissedHeartbeats ∧
      (calls.foldl step c).heartbeatTimeout = c.heartbeatTimeout := by
  induction calls generalizing c with
  | nil => exact ⟨rfl, rfl⟩
  | cons call calls ih =>
      rw [List.foldl_cons, (ih _).1, (ih _).2]
      cases call with
      | heartbeat now hb => exact ⟨rfl, rfl⟩
      | check now nodeExists => exact ⟨rfl, rfl⟩

/-- **Who is given up**: after any run, a server is unhealthy exactly if it was given up since its
last heartbeat.  The clock does not go back; the answers of ZooKeeper and the two limits are
arbitrary. -/
theorem unhealthy_iff_givenUp (maxMissedHeartbeats heartbeatTimeout : Int) (calls : List Call)
    (hclock : calls.Pairwise fun call later => call.now ≤ later.now) (serverId : Int) :
    (calls.foldl step { maxMissedHeartbeats, heartbeatTimeout }).Unhealthy serverId ↔
      ∃ t after, sinceHeartbeat serverId calls = some (t, after) ∧
        GivenUp maxMissedHeartbeats heartbeatTimeout t serverId after := by
  have hkeeps := silent_run (c := { maxMissedHeartbeats, heartbeatTimeout }) rfl hclock serverId
  obtain ⟨hmax, htimeout⟩ :=
    settings_run { maxMissedHeartbeats, heartbeatTimeout } calls
  rw [Keeps, hmax, htimeout] at hkeeps
  rw [Unhealthy]
  generalize sinceHeartbeat serverId calls = since at hkeeps ⊢
  generalize (calls.foldl step _).servers[serverId]? = entry at hkeeps ⊢
  cases hkeeps with
  | none => simp
  | @some since health hsilent =>
      obtain ⟨t, after⟩ := since
      simp [hsilent.unhealthy]

/-- The silent server is given up at the third check. -/
theorem unhealthy_iff_givenUp_silent :
    ((silentServer.take 4).foldl step {}).Unhealthy 1 ∧
      ¬ ((silentServer.take 3).foldl step {}).Unhealthy 1 := by
  constructor
  · refine (unhealthy_iff_givenUp 3 60 (silentServer.take 4) (by decide +kernel) 1).mpr
      ⟨0, _, rfl, [_, _], _, [], rfl, ?_⟩
    decide +kernel
  · intro hunhealthy
    obtain ⟨t, after, hsince, mid, call, rest, hcalls, hgives⟩ :=
      (unhealthy_iff_givenUp 3 60 (silentServer.take 3) (by decide +kernel) 1).mp hunhealthy
    -- there were two checks, and it takes three
    have hlength : (sinceHeartbeat 1 (silentServer.take 3)).map (·.2.length) = some 2 := by
      decide +kernel
    rw [hsince, hcalls] at hlength
    have hle : missedChecks 60 t mid ≤ mid.length := List.countP_le_length
    cases call with
    | heartbeat now hb => cases hgives
    | check now nodeExists =>
        simp [Call.givesUp] at hlength hgives
        omega

/-- **A recovery is never counted** as long as the clock does not go back. -/
theorem serversRecovered_eq_zero (maxMissedHeartbeats heartbeatTimeout : Int)
    {calls : List Call} (hclock : calls.Pairwise fun call later => call.now ≤ later.now) :
    (calls.foldl step { maxMissedHeartbeats, heartbeatTimeout }).serversRecovered = 0 := by
  induction calls using List.reverseRecOn with
  | nil => rfl
  | append_singleton calls call ih =>
      obtain ⟨hbefore, -, hlast⟩ := List.pairwise_append.mp hclock
      have hkeeps := silent_run (c := { maxMissedHeartbeats, heartbeatTimeout }) rfl hbefore
      have hzero := ih hbefore
      rw [List.foldl_append, List.foldl_cons, List.foldl_nil]
      generalize calls.foldl step _ = c at hkeeps hzero ⊢
      cases call with
      | heartbeat now hb => exact hzero
      | check now nodeExists =>
          have hnone : c.servers.toList.countP (fun p => c.restores now p.2) = 0 := by
            refine List.countP_eq_zero.mpr fun p hp => ?_
            have hentry := hkeeps p.1
            rw [Keeps, Map.mem_toList.mp hp] at hentry
            generalize hsince : sinceHeartbeat p.1 calls = since at hentry
            cases hentry with
            | some hsilent =>
                have hkept : c.restores now p.2 = false :=
                  hsilent.restores fun earlier hearlier => hlast earlier
                    (mem_of_sinceHeartbeat hsince earlier hearlier) _ List.mem_cons_self
                exact ne_true_of_eq_false hkept
          rw [step, checkServerHealth, hnone]
          exact hzero

theorem serversRecovered_eq_zero_silent : (silentServer.foldl step {}).serversRecovered = 0 :=
  serversRecovered_eq_zero 3 60 (by decide +kernel)

end HealthChecker

end FileGrid
