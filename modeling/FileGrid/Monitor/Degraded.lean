import FileGrid.Monitor.Discovery

/-!
# The degraded election

If nobody is accepted as healthy, `perform_leader_election` elects the server with the smallest
`consecutive_failures`.  Nothing writes that field: `check_head_server_health` counts in a static
map, under a key made of the id, the address and the port, and every round builds the servers anew
(`Rebuilt`).  So all servers compare equal, and the first one in the order of the ids is elected
(`electLeastUnhealthy_of_rebuilt`).

**`degraded_elects_least_iff`**: along a run every degraded election elects a server with the fewest
failed checks exactly if, whenever there is one, the server with the smallest id has the fewest.
-/

namespace FileGrid

namespace Monitor

/-- How many checks of the server have failed since the last one that succeeded, by the count that
`check_head_server_health` keeps. -/
def failures (m : Monitor) (server : HeadServerInfo) : Nat :=
  m.probing.failureCounts[server.serverKey]?.getD 0

/-! ## The state of a degraded election -/

/-- The state in which `perform_leader_election` looks for the least unhealthy server, if nobody is
accepted as healthy. -/
def degradedState (r : Round) (m : Monitor) : Option Monitor :=
  let m := { m with probing.clock := m.probing.clock + r.electionDelay }
  match findCurrentLeader r m.serverIds m with
  | (some (_, true), _) => none
  | (_, m) =>
      match findBestCandidate r m with
      | (some _, _) => none
      | (none, m) => some m

/-- The end of the election if no candidate is found. -/
lemma elected_of_noCandidate (found : Option Bytes × Monitor) (m : Monitor)
    (leader : Option Bytes) :
    (match found with
      | (some _, _) => none
      | (none, m) => some m) = some m →
    (match found with
      | (some best, m) => m.promote leader best
      | (none, m) => m.electLeastUnhealthy) = m.electLeastUnhealthy := by
  intro h
  obtain ⟨best, m'⟩ := found
  cases best with
  | none => rw [Option.some.inj h]
  | some best => simp at h

lemma performLeaderElection_of_degradedState {r : Round} {m m' : Monitor}
    (h : degradedState r m = some m') : m.performLeaderElection r = m'.electLeastUnhealthy := by
  rw [degradedState] at h
  rw [performLeaderElection]
  dsimp only at h ⊢
  generalize findCurrentLeader r _ _ = leader at h ⊢
  rcases leader with ⟨- | ⟨id, passes⟩, m₁⟩
  · exact elected_of_noCandidate (findBestCandidate r m₁) m' none h
  · -- a leader that passes its check ends the election
    cases passes with
    | true => simp at h
    | false => exact elected_of_noCandidate (findBestCandidate r m₁) m' (some id) h

lemma AllServers.degradedState {r : Round} {m m' : Monitor} (h : m.AllServers Rebuilt)
    (hstate : degradedState r m = some m') : m'.AllServers Rebuilt := by
  have hwait : AllServers { m with probing.clock := m.probing.clock + r.electionDelay } Rebuilt := h
  rw [Monitor.degradedState] at hstate
  dsimp only at hstate
  rw [findCurrentLeader_of_unmarked r _ hwait.unmarked] at hstate
  have hfound := hwait.findBestCandidate keptByChecks_rebuilt r
  dsimp only at hstate
  generalize Monitor.findBestCandidate r _ = found at hstate hfound
  obtain ⟨best, m₂⟩ := found
  cases best with
  | none => rwa [← Option.some.inj hstate]
  | some best => simp at hstate

/-! ## Who is elected -/

/-- Among servers that have the same count the search keeps the first. -/
lemma foldl_lessUnhealthy_of_uncounted {first : Bytes × HeadServerInfo}
    {rest : List (Bytes × HeadServerInfo)} (hfirst : first.2.consecutiveFailures = 0)
    (hrest : ∀ entry ∈ rest, entry.2.consecutiveFailures = 0) :
    rest.foldl lessUnhealthy (some first) = some first := by
  induction rest with
  | nil => rfl
  | cons entry rest ih =>
      obtain ⟨hentry, hrest⟩ := List.forall_mem_cons.mp hrest
      rw [List.foldl_cons, lessUnhealthy, if_neg (by rw [hentry, hfirst]; exact lt_irrefl 0)]
      exact ih hrest

/-- **Of servers that were built anew the first one is elected.** -/
lemma electLeastUnhealthy_of_rebuilt {m : Monitor} (h : m.AllServers Rebuilt)
    {first : Bytes × HeadServerInfo} {rest : List (Bytes × HeadServerInfo)}
    (hlist : m.headServers.toList = first :: rest) :
    m.electLeastUnhealthy =
      { m with
        headServers := m.headServers.insert first.1
          { first.2 with isLeader := true, status := ascii "degraded" }
        leaderServerId := first.1 } := by
  have hrebuilt : ∀ entry ∈ first :: rest, Rebuilt entry.1 entry.2 := by
    intro entry hentry
    rw [← hlist] at hentry
    exact h entry.1 entry.2 (Map.mem_toList.mp hentry)
  obtain ⟨hfirst, hrest⟩ := List.forall_mem_cons.mp hrebuilt
  rw [electLeastUnhealthy, hlist, List.foldl_cons, lessUnhealthy,
    foldl_lessUnhealthy_of_uncounted hfirst.2.2 fun entry hentry => (hrest entry hentry).2.2]
  dsimp only
  rw [hfirst.1]

/-- The elected server of a state is one with the fewest failed checks. -/
def LeaderFailedLeast (m : Monitor) : Prop :=
  ∀ elected, m.headServers[m.leaderServerId]? = some elected →
    ∀ (id : Bytes) (info : HeadServerInfo), m.headServers[id]? = some info →
      m.failures elected ≤ m.failures info

/-- The server with the smallest id is one with the fewest failed checks. -/
def FirstFailedLeast (m : Monitor) : Prop :=
  ∀ first ∈ m.headServers.toList.head?, ∀ (id : Bytes) (info : HeadServerInfo),
    m.headServers[id]? = some info → m.failures first.2 ≤ m.failures info

lemma leaderFailedLeast_electLeastUnhealthy_iff {m : Monitor} (h : m.AllServers Rebuilt) :
    m.electLeastUnhealthy.LeaderFailedLeast ↔ m.FirstFailedLeast := by
  cases hlist : m.headServers.toList with
  | nil =>
      have hnone : ∀ id : Bytes, m.headServers[id]? = none := by
        intro id
        by_contra hsome
        obtain ⟨info, hinfo⟩ := Option.ne_none_iff_exists'.mp hsome
        have hmem := Map.mem_toList.mpr hinfo
        rw [hlist] at hmem
        exact absurd hmem List.not_mem_nil
      simp [electLeastUnhealthy, LeaderFailedLeast, FirstFailedLeast, hlist, hnone]
  | cons first rest =>
      have hfirst : m.headServers[first.1]? = some first.2 :=
        Map.mem_toList.mp (hlist ▸ List.mem_cons_self)
      rw [electLeastUnhealthy_of_rebuilt h hlist, LeaderFailedLeast, FirstFailedLeast, hlist]
      simp only [Map.get_insert, if_true, Option.some.injEq, forall_eq', List.head?_cons,
        Option.mem_some_iff]
      refine forall_congr' fun id => forall_congr' fun info => ?_
      by_cases heq : id = first.1
      · -- the count of the elected server itself
        rw [heq, hfirst]
        simp only [if_true, Option.some.injEq]
        refine ⟨fun _ hinfo => hinfo ▸ le_rfl, fun _ hinfo => hinfo ▸ le_rfl⟩
      · rw [if_neg heq]
        rfl

/-! ## Rounds -/

/-- The state in which the degraded election of the round begins, if there is one. -/
def degradedElection (stod : Bytes → Option Double) (m : Monitor) (r : Round) : Option Monitor :=
  (electionState stod m r).bind (degradedState r)

/-- **A degraded election elects the least unhealthy server.** -/
def ElectsLeastUnhealthy (stod : Bytes → Option Double) (m : Monitor) (r : Round) : Prop :=
  (degradedElection stod m r).isSome → (round stod m r).LeaderFailedLeast

/-- In a degraded election of the round, the server with the smallest id has the fewest failures. -/
def SmallestFailedLeast (stod : Bytes → Option Double) (m : Monitor) (r : Round) : Prop :=
  ∀ m' ∈ degradedElection stod m r, m'.FirstFailedLeast

lemma electsLeastUnhealthy_iff (stod : Bytes → Option Double) (m : Monitor) (r : Round) :
    ElectsLeastUnhealthy stod m r ↔ SmallestFailedLeast stod m r := by
  rw [ElectsLeastUnhealthy, SmallestFailedLeast]
  cases hdegraded : degradedElection stod m r with
  | none => simp
  | some m₂ =>
      obtain ⟨m₁, hstate, hdegraded⟩ := Option.bind_eq_some_iff.mp hdegraded
      have hrebuilt : m₁.AllServers Rebuilt := by
        rw [electionState] at hstate
        split_ifs at hstate
        rw [← Option.some.inj hstate]
        exact rebuilt_beforeElection stod m r
      have hround : round stod m r = m₂.electLeastUnhealthy.sleep r := by
        rw [round_eq, hstate]
        dsimp only
        rw [performLeaderElection_of_degradedState hdegraded]
      have helected := leaderFailedLeast_electLeastUnhealthy_iff (hrebuilt.degradedState hdegraded)
      simp only [Option.isSome_some, forall_const, Option.mem_some_iff, forall_eq', hround]
      exact helected

/-- **Whom degraded elections elect.**  Along a run every degraded election elects a server with the
fewest failed checks exactly if in each of them the smallest id is that of such a server. -/
theorem degraded_elects_least_iff (stod : Bytes → Option Double) (clock : Nat)
    (rounds : List Round) :
    AlongRun (round stod) (ElectsLeastUnhealthy stod) { probing := { clock } } rounds ↔
      AlongRun (round stod) (SmallestFailedLeast stod) { probing := { clock } } rounds :=
  alongRun_congr (electsLeastUnhealthy_iff stod) _ rounds

/-- The server `a` fails in two rounds and `b` only in the second, in which `a` is elected. -/
theorem degraded_elects_more_failures :
    let children := [childOf "a" "ip=10.0.0.1,port=9669", childOf "b" "ip=10.0.0.2,port=9669"]
    let rounds := [roundOf children (· = ascii "b"), roundOf children fun _ => false]
    let m := rounds.foldl (round stodWhole) {}
    m.leaderServerId = ascii "a" ∧ m.headServers[ascii "a"]?.map m.failures = some 4 ∧
      m.headServers[ascii "b"]?.map m.failures = some 2 ∧
      ¬AlongRun (round stodWhole) (ElectsLeastUnhealthy stodWhole) {} rounds := by
  intro children rounds m
  have hleader : m.leaderServerId = ascii "a" := by decide +kernel
  have ha : m.headServers[ascii "a"]?.map m.failures = some 4 := by decide +kernel
  have hb : m.headServers[ascii "b"]?.map m.failures = some 2 := by decide +kernel
  refine ⟨hleader, ha, hb, ?_⟩
  rintro ⟨-, hleast, -⟩
  obtain ⟨elected, helected, hfour⟩ := Option.map_eq_some_iff.mp ha
  obtain ⟨other, hother, htwo⟩ := Option.map_eq_some_iff.mp hb
  have hle : m.failures elected ≤ m.failures other :=
    hleast (by decide +kernel) elected (hleader ▸ helected) (ascii "b") other hother
  rw [hfour, htwo] at hle
  exact absurd hle (by decide)

end Monitor

end FileGrid
