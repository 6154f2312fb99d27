import FileGrid.Monitor.HeadServers
import FileGrid.Core.Runs

/-!
# Stability of the leader

A leader that is still discovered and still healthy should stay the leader.  The election has an
early return for it, which looks for the server that is marked as the leader; but the mark does not
survive the discovery, which builds all servers anew from their texts.  So every round holds a full
election.

**The election as a scan.**  The search for the best candidate goes over the servers in the order of
their ids and keeps one of them.  A server is a candidate if it is healthy or passes a second check
(`Candidate`), and replaces the kept one if it reports both less CPU and less memory (`undercuts`) —
the comparison of ids for equal reports never applies, because the ids come in increasing order.
`findBestCandidate_eq` brings the search down to `bestOf`.

**`leader_stable_iff`**: a healthy leader is re-elected exactly if it undercuts the candidate that
is kept when the scan comes to it, if there is one, and is not undercut by any after it.
-/

namespace FileGrid

namespace Monitor

/-! ## Reports -/

/-- What the search compares, and what a check leaves alone. -/
structure Report where
  serverId : Bytes
  cpuUsage : Double
  memoryUsage : Double

def reportOf (info : HeadServerInfo) : Report := ⟨info.serverId, info.cpuUsage, info.memoryUsage⟩

/-- The two states have the same servers with the same reports. -/
def SameReports (m m' : Monitor) : Prop :=
  ∀ id : Bytes, m.headServers[id]?.map reportOf = m'.headServers[id]?.map reportOf

lemma preferred_congr {id : Bytes} {a a' b b' : HeadServerInfo} (ha : reportOf a = reportOf a')
    (hb : reportOf b = reportOf b') : preferred id a b = preferred id a' b' := by
  simp only [reportOf, Report.mk.injEq] at ha hb
  simp only [preferred, ha, hb]

lemma reportOf_checked {p : Probing} {server : HeadServerInfo} {probe : Probe}
    {result : CheckResult} (h : Checked p server probe result) :
    reportOf result.server = reportOf server := by
  obtain ⟨t, status, heq⟩ := h.server_eq
  rw [heq]
  rfl

/-! ## The search as a scan -/

/-- The server takes part in the election. -/
def Candidate (m : Monitor) (r : Round) (id : Bytes) : Bool :=
  m.headServers[id]?.any fun info =>
    info.status = ascii "healthy" ∨ (r.candidateProbe id).Connects

/-- The first server is taken in the place of the second. -/
def prefers (m : Monitor) (id best : Bytes) : Bool :=
  match m.headServers[id]?, m.headServers[best]? with
  | some info, some info' => preferred id info info'
  | _, _ => false

/-- The check of a candidate: its verdict, and what it leaves alone. -/
lemma checkCandidate_spec (r : Round) (m : Monitor) (id : Bytes) (info : HeadServerInfo) :
    ((checkCandidate r m id info).healthy = true ↔
        info.status = ascii "healthy" ∨ (r.candidateProbe id).Connects) ∧
      reportOf (checkCandidate r m id info).server = reportOf info := by
  rw [checkCandidate]
  split_ifs with hstatus
  · simp [hstatus]
  · have hcheck := checked_checkHeadServerHealth m.probing info (r.candidateProbe id)
    refine ⟨?_, reportOf_checked hcheck⟩
    generalize checkHeadServerHealth m.probing info (r.candidateProbe id) = result at hcheck ⊢
    cases hcheck with
    | recent hrecent => exact absurd hrecent.2 hstatus
    | connected clock counts hrecent hconnects hclock => simp [hconnects]
    | failed clock counts status hrecent hconnects hclock hkept => simp [hstatus, hconnects]

lemma SameReports.insert {m m' : Monitor} (h : m'.SameReports m) {id : Bytes}
    {info server : HeadServerInfo} (hinfo : m'.headServers[id]? = some info)
    (hreport : reportOf server = reportOf info) (p : Probing) :
    SameReports { m' with probing := p, headServers := m'.headServers.insert id server } m := by
  intro id'
  dsimp only
  rw [Map.get_insert]
  split_ifs with heq
  · rw [heq, ← h id, hinfo, Option.map_some, Option.map_some, hreport]
  · exact h id'

lemma SameReports.exists_stored {m m' : Monitor} (h : m'.SameReports m) {id : Bytes}
    {info : HeadServerInfo} (hinfo : m'.headServers[id]? = some info) :
    ∃ server, m.headServers[id]? = some server ∧ reportOf server = reportOf info := by
  have hid := h id
  rwa [hinfo, Option.map_some, eq_comm, Option.map_eq_some_iff] at hid

/-- The comparison of the search, between states with the same reports. -/
lemma SameReports.prefers_eq {m m' : Monitor} (h : m'.SameReports m) {id best : Bytes}
    {info info' : HeadServerInfo} (hinfo : m'.headServers[id]? = some info)
    (hinfo' : m'.headServers[best]? = some info') :
    m.prefers id best = preferred id info info' := by
  obtain ⟨server, hserver, hreport⟩ := h.exists_stored hinfo
  obtain ⟨server', hserver', hreport'⟩ := h.exists_stored hinfo'
  rw [prefers, hserver, hserver']
  exact preferred_congr hreport hreport'

/-- One iteration of the search, from a state that differs from the first only in what the search
does not compare. -/
lemma considerCandidate_eq {r : Round} {m m' : Monitor} {best : Option Bytes} {id : Bytes}
    (hreports : m'.SameReports m) (hsame : m'.headServers[id]? = m.headServers[id]?)
    (hbest : ∀ b, best = some b → ∃ info, m.headServers[b]? = some info) :
    (considerCandidate r (best, m') id).1 =
        (if m.Candidate r id then keepBetter m.prefers best id else best) ∧
      (considerCandidate r (best, m') id).2.SameReports m ∧
      (∀ id', id' ≠ id → (considerCandidate r (best, m') id).2.headServers[id']? =
        m'.headServers[id']?) ∧
      (considerCandidate r (best, m') id).2.leaderServerId = m'.leaderServerId := by
  rw [considerCandidate, Candidate, ← hsame]
  dsimp only
  cases hinfo : m'.headServers[id]? with
  | none => exact ⟨by simp, hreports, fun id' _ => rfl, rfl⟩
  | some info =>
      dsimp only
      obtain ⟨hhealthy, hreport⟩ := checkCandidate_spec r m' id info
      generalize checkCandidate r m' id info = result at hhealthy hreport ⊢
      have hreports' := hreports.insert hinfo hreport result.probing
      have hothers : ∀ id', id' ≠ id →
          (m'.headServers.insert id result.server)[id']? = m'.headServers[id']? := by
        intro id' hne
        rw [Map.get_insert, if_neg hne]
      have hself : (m'.headServers.insert id result.server)[id]? = some result.server := by
        rw [Map.get_insert, if_pos rfl]
      rw [Option.any_some]
      by_cases hpass : result.healthy = true
      · rw [if_pos hpass, if_pos (by simpa using hhealthy.mp hpass)]
        cases best with
        | none => exact ⟨rfl, hreports', hothers, rfl⟩
        | some b =>
            obtain ⟨server, hserver⟩ := hbest b rfl
            obtain ⟨server', hserver', -⟩ :=
              SameReports.exists_stored (fun id => (hreports' id).symm) hserver
            dsimp only [Option.bind_some]
            rw [hserver']
            refine ⟨?_, hreports', hothers, rfl⟩
            rw [keepBetter, hreports'.prefers_eq hself hserver']
      · have hno : ¬(info.status = ascii "healthy" ∨ (r.candidateProbe id).Connects) :=
          fun h => hpass (hhealthy.mpr h)
        rw [if_neg hpass, if_neg (by simpa using hno)]
        exact ⟨rfl, hreports', hothers, rfl⟩

lemma foldl_considerCandidate_eq {r : Round} {m m' : Monitor} {best : Option Bytes}
    {ids : List Bytes} (hnodup : ids.Nodup) (hreports : m'.SameReports m)
    (hsame : ∀ id ∈ ids, m'.headServers[id]? = m.headServers[id]?)
    (hstored : ∀ id ∈ ids, ∃ info, m.headServers[id]? = some info)
    (hbest : ∀ b, best = some b → ∃ info, m.headServers[b]? = some info) :
    (ids.foldl (considerCandidate r) (best, m')).1 =
        (ids.filter (m.Candidate r)).foldl (keepBetter m.prefers) best ∧
      (ids.foldl (considerCandidate r) (best, m')).2.SameReports m ∧
      (ids.foldl (considerCandidate r) (best, m')).2.leaderServerId = m'.leaderServerId := by
  induction ids generalizing best m' with
  | nil => exact ⟨rfl, hreports, rfl⟩
  | cons id ids ih =>
      obtain ⟨hnew, hnodup⟩ := List.nodup_cons.mp hnodup
      obtain ⟨hfirst, hreports', hothers, hleader⟩ :=
        considerCandidate_eq (r := r) hreports (hsame id List.mem_cons_self) hbest
      rw [List.foldl_cons]
      generalize considerCandidate r (best, m') id = state at hfirst hreports' hothers hleader ⊢
      obtain ⟨best', m''⟩ := state
      have hsame' : ∀ id' ∈ ids, m''.headServers[id']? = m.headServers[id']? := by
        intro id' hid'
        have hne : id' ≠ id := by
          rintro rfl
          exact hnew hid'
        exact (hothers id' hne).trans (hsame id' (List.mem_cons_of_mem id hid'))
      have hbest' : ∀ b, best' = some b → ∃ info, m.headServers[b]? = some info := by
        intro b hb
        dsimp only at hfirst
        rw [hb] at hfirst
        split_ifs at hfirst
        · have hkept : [id].foldl (keepBetter m.prefers) best = some b := hfirst.symm
          rcases mem_of_foldl_keepBetter hkept with hold | hmem
          · exact hbest b hold
          · rw [List.mem_singleton.mp hmem]
            exact hstored id List.mem_cons_self
        · exact hbest b hfirst.symm
      obtain ⟨hrest, hreports'', hleader'⟩ := ih hnodup hreports' hsame'
        (fun id' hid' => hstored id' (List.mem_cons_of_mem id hid')) hbest'
      refine ⟨?_, hreports'', hleader'.trans hleader⟩
      rw [hrest, List.filter_cons]
      dsimp only at hfirst
      rw [hfirst]
      split_ifs
      · rfl
      · rfl

lemma pairwise_serverIds (m : Monitor) : m.serverIds.Pairwise (compare · · = .lt) := by
  rw [serverIds, List.pairwise_map]
  exact Std.ExtTreeMap.ordered_keys_toList

/-- The candidates, in the order of their ids. -/
def candidates (m : Monitor) (r : Round) : List Bytes := m.serverIds.filter (m.Candidate r)

/-- **The search is a scan over the candidates.** -/
theorem findBestCandidate_eq (r : Round) (m : Monitor) :
    (findBestCandidate r m).1 = bestOf m.prefers (m.candidates r) ∧
      (findBestCandidate r m).2.SameReports m ∧
      (findBestCandidate r m).2.leaderServerId = m.leaderServerId := by
  refine foldl_considerCandidate_eq ?_ (fun _ => rfl) (fun _ _ => rfl)
    (fun id hid => mem_serverIds.mp hid) (by simp)
  exact m.pairwise_serverIds.imp fun hlt heq => by simp [heq] at hlt

/-! ## Who is elected -/

/-- The first server reports both less CPU and less memory than the second. -/
def undercuts (m : Monitor) (id best : Bytes) : Bool :=
  match m.headServers[id]?, m.headServers[best]? with
  | some info, some info' =>
      info.cpuUsage.lt info'.cpuUsage && info.memoryUsage.lt info'.memoryUsage
  | _, _ => false

/-- In the order of the ids the comparison of ids never applies. -/
lemma prefers_eq_undercuts {m : Monitor} (h : m.Unmarked) {id best : Bytes}
    (hlt : compare best id = .lt) : m.prefers id best = m.undercuts id best := by
  have hgt : compare id best ≠ .lt := Std.OrientedCmp.not_lt_of_lt hlt
  rw [prefers, undercuts]
  cases m.headServers[id]? with
  | none => rfl
  | some info =>
      cases hbest : m.headServers[best]? with
      | none => rfl
      | some info' =>
          dsimp only
          rw [preferred, (h best info' hbest).1]
          simp [hgt]

/-- The server keeps the lead: it undercuts the candidate that is kept when the scan comes to it, if
there is one, and no candidate after it undercuts it. -/
def KeepsLead (m : Monitor) (r : Round) (leader : Bytes) : Prop :=
  (∀ best, bestOf m.undercuts ((m.candidates r).filter (compare · leader = .lt)) = some best →
      m.undercuts leader best = true) ∧
    ∀ id ∈ m.candidates r, compare leader id = .lt → m.undercuts id leader = false

/-- **Which candidate the scan keeps.** -/
theorem bestOf_candidates_iff {m : Monitor} (h : m.Unmarked) {r : Round} {leader : Bytes}
    (hmem : leader ∈ m.candidates r) :
    bestOf m.prefers (m.candidates r) = some leader ↔ m.KeepsLead r leader := by
  have hsorted : (m.candidates r).Pairwise (compare · · = .lt) := m.pairwise_serverIds.filter _
  have hnodup : (m.candidates r).Nodup := hsorted.imp fun hlt heq => by simp [heq] at hlt
  rw [bestOf_congr (hsorted.imp fun hlt => prefers_eq_undercuts h hlt), KeepsLead]
  obtain ⟨before, after, hsplit⟩ := List.append_of_mem hmem
  rw [hsplit] at hsorted hnodup ⊢
  obtain ⟨-, htail, hcross⟩ := List.pairwise_append.mp hsorted
  have hbefore : ∀ id ∈ before, compare id leader = .lt :=
    fun id hid => hcross id hid leader List.mem_cons_self
  have hafter : ∀ id ∈ after, compare leader id = .lt := (List.pairwise_cons.mp htail).1
  have hgt : ∀ {id}, compare leader id = .lt → compare id leader ≠ .lt :=
    fun hlt => Std.OrientedCmp.not_lt_of_lt hlt
  have hfilter : (before ++ leader :: after).filter (compare · leader = .lt) = before := by
    rw [List.filter_append, List.filter_eq_self.mpr (by simpa using hbefore),
      List.filter_eq_nil_iff.mpr, List.append_nil]
    intro id hid
    rcases List.mem_cons.mp hid with rfl | hid
    · simp
    · simpa using hgt (hafter id hid)
  rw [bestOf_eq_some_iff hnodup, hfilter]
  refine and_congr_right fun _ => ?_
  constructor
  · intro hnone id hid hlt
    rcases List.mem_append.mp hid with hid | hid
    · exact absurd (hbefore id hid) (hgt hlt)
    · rcases List.mem_cons.mp hid with rfl | hid
      · simp at hlt
      · exact hnone id hid
  · intro hnone id hid
    exact hnone id (by simp [hid]) (hafter id hid)

/-- Who is elected when there is a candidate. -/
lemma leaderServerId_performLeaderElection {m : Monitor} (h : m.Unmarked) (r : Round) {best : Bytes}
    (hbest : bestOf m.prefers (m.candidates r) = some best) :
    (m.performLeaderElection r).leaderServerId = best := by
  rw [performLeaderElection_of_unmarked r h]
  obtain ⟨hfound, hreports, -⟩ := findBestCandidate_eq r
    { m with probing.clock := m.probing.clock + r.electionDelay }
  dsimp only
  generalize findBestCandidate r
    { m with probing.clock := m.probing.clock + r.electionDelay } = found at hfound hreports ⊢
  have hkept : found.1 = some best := hfound.trans hbest
  rw [hkept]
  -- the elected server is stored under its id
  obtain ⟨info, hinfo⟩ : ∃ info, m.headServers[best]? = some info :=
    mem_serverIds.mp (List.mem_filter.mp (mem_of_bestOf hbest)).1
  have hreport := hreports best
  dsimp only at hreport
  rw [hinfo, Option.map_some, Option.map_eq_some_iff] at hreport
  obtain ⟨info', hinfo', hsame⟩ := hreport
  have hid : info'.serverId = info.serverId := congrArg Report.serverId hsame
  dsimp only
  rw [promote, hinfo']
  exact hid.trans (h best info hinfo).1

/-! ## Rounds -/

/-- The servers as the election of the round finds them. -/
def beforeElection (stod : Bytes → Option Double) (m : Monitor) (r : Round) : Monitor :=
  (discoverHeadServers stod m r).2.healthChecks r

/-- In the round the leader is discovered, and its health check succeeds. -/
def LeaderHealthy (stod : Bytes → Option Double) (m : Monitor) (r : Round) : Prop :=
  (discoverHeadServers stod m r).1 = true ∧
    (beforeElection stod m r).headServers[m.leaderServerId]?.any
      (·.status = ascii "healthy") = true

instance (stod : Bytes → Option Double) (m : Monitor) (r : Round) :
    Decidable (LeaderHealthy stod m r) :=
  inferInstanceAs (Decidable (_ ∧ _))

/-- **A healthy leader stays the leader** in the round. -/
def LeaderStable (stod : Bytes → Option Double) (m : Monitor) (r : Round) : Prop :=
  LeaderHealthy stod m r → (round stod m r).leaderServerId = m.leaderServerId

lemma rebuilt_beforeElection (stod : Bytes → Option Double) (m : Monitor) (r : Round) :
    (beforeElection stod m r).AllServers Rebuilt :=
  (rebuilt_discoverHeadServers stod m r).healthChecks keptByChecks_rebuilt r

lemma unmarked_beforeElection (stod : Bytes → Option Double) (m : Monitor) (r : Round) :
    (beforeElection stod m r).Unmarked :=
  (rebuilt_beforeElection stod m r).unmarked

/-- One round. -/
theorem leaderStable_iff (stod : Bytes → Option Double) (m : Monitor) (r : Round) :
    LeaderStable stod m r ↔
      (LeaderHealthy stod m r → (beforeElection stod m r).KeepsLead r m.leaderServerId) := by
  refine imp_congr_right ?_
  rintro ⟨hcomplete, hhealthy⟩
  have hunmarked := unmarked_beforeElection stod m r
  have hmem : m.leaderServerId ∈ (beforeElection stod m r).candidates r := by
    obtain ⟨info, hinfo, hstatus⟩ := (Option.any_eq_true _ _).mp hhealthy
    refine List.mem_filter.mpr ⟨mem_serverIds.mpr ⟨info, hinfo⟩, ?_⟩
    rw [Candidate, hinfo, Option.any_some]
    simpa using Or.inl (by simpa using hstatus)
  have hround : (round stod m r).leaderServerId =
      ((beforeElection stod m r).performLeaderElection r).leaderServerId := by
    rw [round, beforeElection]
    generalize discoverHeadServers stod m r = found at hcomplete ⊢
    obtain ⟨complete, m'⟩ := found
    obtain rfl : complete = true := hcomplete
    rfl
  obtain ⟨best, hbest⟩ : ∃ best, bestOf (beforeElection stod m r).prefers
      ((beforeElection stod m r).candidates r) = some best :=
    Option.ne_none_iff_exists'.mp (bestOf_ne_none (List.ne_nil_of_mem hmem))
  rw [hround, leaderServerId_performLeaderElection hunmarked r hbest,
    ← bestOf_candidates_iff hunmarked hmem, hbest, Option.some_inj]

/-- **When leaders are stable.**  In a run every healthy leader stays the leader exactly if in every
round the healthy leader keeps the lead. -/
theorem leader_stable_iff (stod : Bytes → Option Double) (clock : Nat) (rounds : List Round) :
    AlongRun (round stod) (LeaderStable stod) { probing := { clock } } rounds ↔
      AlongRun (round stod) (fun m r => LeaderHealthy stod m r →
        (beforeElection stod m r).KeepsLead r m.leaderServerId) { probing := { clock } } rounds :=
  alongRun_congr (leaderStable_iff stod) _ rounds

/-- The leader `b` is healthy, and loses the lead to `c`, which joins with less of both. -/
theorem healthy_leader_replaced :
    let first := roundOf [childOf "b" "ip=10.0.0.2,port=9669,cpu_usage=10,memory_usage=10"]
      fun _ => true
    let second := roundOf [childOf "b" "ip=10.0.0.2,port=9669,cpu_usage=10,memory_usage=10",
      childOf "c" "ip=10.0.0.3,port=9669,cpu_usage=5,memory_usage=5"] fun _ => true
    let m := round stodWhole {} first
    m.leaderServerId = ascii "b" ∧ LeaderHealthy stodWhole m second ∧
      (round stodWhole m second).leaderServerId = ascii "c" ∧
      ¬AlongRun (round stodWhole) (LeaderStable stodWhole) {} [first, second] := by
  intro first second m
  have hleader : m.leaderServerId = ascii "b" := by decide +kernel
  have hhealthy : LeaderHealthy stodWhole m second := by decide +kernel
  have hreplaced : (round stodWhole m second).leaderServerId = ascii "c" := by decide +kernel
  refine ⟨hleader, hhealthy, hreplaced, ?_⟩
  rintro ⟨-, hstable, -⟩
  have hsame := hstable hhealthy
  rw [hreplaced, hleader] at hsame
  exact absurd hsame (by decide)

end Monitor

end FileGrid
