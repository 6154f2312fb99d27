import FileGrid.Monitor.Stability

/-!
# What an election leaves

`perform_leader_election` on any servers, in any state: it is called with servers that discovery has
just read, but nothing in it depends on that.

**Marks.**  The flag `is_leader` is set in two places and taken away in two.  `SameMarks` says that
the checks leave it alone, `NoMark` is what the search for the current leader leaves behind unless
the call returns, and `OneMark` what the promotion makes of that.

**Domination.**  The search prefers a server with less of both loads, so that what it keeps is not
the least of anything; but `undercuts` is a strict order that the preference respects, and so
nothing that was accepted undercuts what is kept (`bestOf_undominated`).

**`performLeaderElection_elects`** puts the two together: exactly one leader, named by
`leader_server_id` unless the old one passed its check, and undominated among the accepted.
-/

namespace FileGrid

namespace Double

lemma lt_irrefl (a : Double) : a.lt a = false := by
  cases a with
  | none => rfl
  | some a => simp [Double.lt]

lemma lt_trans {a b c : Double} (hab : a.lt b = true) (hbc : b.lt c = true) : a.lt c = true := by
  match a, b, c, hab, hbc with
  | some a, some b, some c, hab, hbc =>
      simp only [Double.lt, decide_eq_true_eq] at hab hbc ⊢
      exact hab.trans hbc

lemma lt_of_lt_of_eq {a b c : Double} (hab : a.lt b = true) (hbc : b.eq c = true) :
    a.lt c = true := by
  match a, b, c, hab, hbc with
  | some a, some b, some c, hab, hbc =>
      simp only [Double.lt, Double.eq, decide_eq_true_eq] at hab hbc ⊢
      exact hbc ▸ hab

end Double

namespace Monitor

/-! ## What is accepted -/

/-- One iteration of the search, with the servers accepted so far. -/
def acceptCandidate (r : Round) (state : List Bytes × Option Bytes × Monitor) (id : Bytes) :
    List Bytes × Option Bytes × Monitor :=
  let passes := state.2.2.headServers[id]?.any fun info =>
    (checkCandidate r state.2.2 id info).healthy
  (if passes then state.1 ++ [id] else state.1, considerCandidate r state.2 id)

/-- The servers that the search for the best candidate accepts as healthy. -/
def acceptedFrom (r : Round) (m : Monitor) : List Bytes :=
  (m.serverIds.foldl (acceptCandidate r) ([], none, m)).1

/-- The servers that an election accepts as healthy: none, if it returns before the search. -/
def accepted (r : Round) (m : Monitor) : List Bytes :=
  let m := { m with probing.clock := m.probing.clock + r.electionDelay }
  match findCurrentLeader r m.serverIds m with
  | (some (_, true), _) => []
  | (_, m) => acceptedFrom r m

lemma considerCandidate_of_ne (r : Round) (state : Option Bytes × Monitor) {id id' : Bytes}
    (h : id' ≠ id) :
    (considerCandidate r state id).2.headServers[id']? = state.2.headServers[id']? := by
  cases hinfo : state.2.headServers[id]? with
  | none => rw [considerCandidate, hinfo]
  | some info =>
      rw [considerCandidate_snd r hinfo]
      exact (Map.get_insert _ _ _ _).trans (if_neg h)

/-- **The accepted servers are the candidates.** -/
lemma acceptedFrom_eq (r : Round) (m : Monitor) : acceptedFrom r m = m.candidates r := by
  -- a server is checked once, as the state before the search has it
  have hloop : ∀ (ids : List Bytes) (state : List Bytes × Option Bytes × Monitor), ids.Nodup →
      (∀ id ∈ ids, state.2.2.headServers[id]? = m.headServers[id]?) →
      (ids.foldl (acceptCandidate r) state).1 = state.1 ++ ids.filter (m.Candidate r) := by
    intro ids
    induction ids with
    | nil => simp
    | cons id ids ih =>
        intro state hnodup hsame
        obtain ⟨hnew, hnodup⟩ := List.nodup_cons.mp hnodup
        have hsame' : ∀ id' ∈ ids,
            (acceptCandidate r state id).2.2.headServers[id']? = m.headServers[id']? := by
          intro id' hid'
          have hne : id' ≠ id := fun heq => hnew (heq ▸ hid')
          exact (considerCandidate_of_ne r state.2 hne).trans
            (hsame id' (List.mem_cons_of_mem id hid'))
        have hpasses : (state.2.2.headServers[id]?.any fun info =>
            (checkCandidate r state.2.2 id info).healthy) = m.Candidate r id := by
          rw [hsame id List.mem_cons_self, Candidate]
          cases m.headServers[id]? with
          | none => rfl
          | some info =>
              rw [Option.any_some, Option.any_some, Bool.eq_iff_iff, decide_eq_true_eq]
              exact (checkCandidate_spec r state.2.2 id info).1
        rw [List.foldl_cons, ih _ hnodup hsame', acceptCandidate, hpasses, List.filter_cons]
        split_ifs
        · simp
        · rfl
  have hnodup : m.serverIds.Nodup := m.pairwise_serverIds.imp fun hlt heq => by simp [heq] at hlt
  rw [acceptedFrom, hloop m.serverIds ([], none, m) hnodup fun _ _ => rfl]
  rfl

/-! ## Marks -/

/-- At most one server is marked as the leader. -/
def AtMostOneMark (m : Monitor) : Prop :=
  ∀ (id id' : Bytes) (info info' : HeadServerInfo), m.headServers[id]? = some info →
    m.headServers[id']? = some info' → info.isLeader = true → info'.isLeader = true → id = id'

/-- No server is. -/
def NoMark (m : Monitor) : Prop :=
  ∀ (id : Bytes) (info : HeadServerInfo), m.headServers[id]? = some info → info.isLeader = false

/-- This server is, and no other. -/
def OneMark (m : Monitor) (leader : Bytes) (info : HeadServerInfo) : Prop :=
  m.headServers[leader]? = some info ∧ info.isLeader = true ∧
    ∀ (id : Bytes) (info' : HeadServerInfo), m.headServers[id]? = some info' →
      info'.isLeader = true → id = leader

/-- The two states have the same servers with the same marks. -/
def SameMarks (m m' : Monitor) : Prop :=
  ∀ id : Bytes, m.headServers[id]?.map HeadServerInfo.isLeader =
    m'.headServers[id]?.map HeadServerInfo.isLeader

lemma SameMarks.trans {m m' m'' : Monitor} (h : m.SameMarks m') (h' : m'.SameMarks m'') :
    m.SameMarks m'' := fun id => (h id).trans (h' id)

lemma SameMarks.noMark {m m' : Monitor} (h : m'.SameMarks m) (hm : m.NoMark) : m'.NoMark := by
  intro id info hinfo
  have hsame := h id
  rw [hinfo, Option.map_some, eq_comm, Option.map_eq_some_iff] at hsame
  obtain ⟨server, hserver, hmark⟩ := hsame
  exact hmark ▸ hm id server hserver

lemma sameMarks_insert {m m' : Monitor} {id : Bytes} {info server : HeadServerInfo}
    (hinfo : m.headServers[id]? = some info) (hmark : server.isLeader = info.isLeader)
    (hservers : m'.headServers = m.headServers.insert id server) : m'.SameMarks m := by
  intro id'
  rw [hservers, Map.get_insert]
  split_ifs with heq
  · rw [heq, hinfo, Option.map_some, Option.map_some, hmark]
  · rfl

lemma isLeader_checkCandidate (r : Round) (m : Monitor) (id : Bytes) (info : HeadServerInfo) :
    (checkCandidate r m id info).server.isLeader = info.isLeader := by
  obtain ⟨t, status, heq⟩ := server_eq_checkCandidate r m id info
  rw [heq]

lemma sameMarks_considerCandidate (r : Round) (state : Option Bytes × Monitor) (id : Bytes) :
    (considerCandidate r state id).2.SameMarks state.2 := by
  cases hinfo : state.2.headServers[id]? with
  | none =>
      rw [considerCandidate, hinfo]
      exact fun _ => rfl
  | some info =>
      rw [considerCandidate_snd r hinfo]
      exact sameMarks_insert hinfo (isLeader_checkCandidate r state.2 id info) rfl

lemma sameMarks_findBestCandidate (r : Round) (m : Monitor) :
    (findBestCandidate r m).2.SameMarks m := by
  have hloop : ∀ (ids : List Bytes) (state : Option Bytes × Monitor),
      (ids.foldl (considerCandidate r) state).2.SameMarks state.2 := by
    intro ids
    induction ids with
    | nil => exact fun state id => rfl
    | cons id ids ih => exact fun state => (ih _).trans (sameMarks_considerCandidate r state id)
  exact hloop m.serverIds (none, m)

/-! ## The current leader -/

/-- The state after the check of the current leader: it keeps its mark if it passes. -/
def checkLeader (r : Round) (m : Monitor) (id : Bytes) (info : HeadServerInfo) : Monitor :=
  let check := checkHeadServerHealth m.probing info (r.leaderProbe id)
  { m with
    probing := check.probing
    headServers := m.headServers.insert id
      (if check.healthy then check.server
      else { check.server with isLeader := false, status := ascii "unhealthy" }) }

/-- The search for the current leader: there is none, or the first one is checked. -/
lemma findCurrentLeader_cases (r : Round) (ids : List Bytes) (m : Monitor) :
    (findCurrentLeader r ids m = (none, m) ∧ ∀ id ∈ ids, ∀ info : HeadServerInfo,
        m.headServers[id]? = some info → info.isLeader = false) ∨
      ∃ (id : Bytes) (info : HeadServerInfo), m.headServers[id]? = some info ∧
        info.isLeader = true ∧ findCurrentLeader r ids m =
          (some (id, (checkHeadServerHealth m.probing info (r.leaderProbe id)).healthy),
            checkLeader r m id info) := by
  induction ids with
  | nil => exact Or.inl ⟨rfl, by simp⟩
  | cons id ids ih =>
      rw [findCurrentLeader]
      cases hinfo : m.headServers[id]? with
      | none =>
          refine ih.imp_left fun h => ⟨h.1, ?_⟩
          simpa [hinfo] using h.2
      | some info =>
          dsimp only
          by_cases hleader : info.isLeader = true
          · rw [if_pos hleader]
            exact Or.inr ⟨id, info, hinfo, hleader, rfl⟩
          · rw [if_neg hleader]
            refine ih.imp_left fun h => ⟨h.1, ?_⟩
            simpa [hinfo] using And.intro (Bool.eq_false_iff.mpr hleader) h.2

/-- The marked server passes the check that the election makes of it. -/
def LeaderPasses (r : Round) (m : Monitor) : Prop :=
  ∃ (id : Bytes) (info : HeadServerInfo), m.headServers[id]? = some info ∧ info.isLeader = true ∧
    (checkHeadServerHealth { m.probing with clock := m.probing.clock + r.electionDelay } info
      (r.leaderProbe id)).healthy = true

section

variable {r : Round} {m : Monitor} {id : Bytes} {info : HeadServerInfo}
  (hinfo : m.headServers[id]? = some info) (hleader : info.isLeader = true)
  (hmarks : m.AtMostOneMark)

include hinfo hleader hmarks

/-- The leader passes its check, and is still the only one. -/
lemma oneMark_checkLeader
    (hpass : (checkHeadServerHealth m.probing info (r.leaderProbe id)).healthy = true) :
    ∃ server, (checkLeader r m id info).OneMark id server := by
  have hcheck := checked_checkHeadServerHealth m.probing info (r.leaderProbe id)
  refine ⟨(checkHeadServerHealth m.probing info (r.leaderProbe id)).server, ?_,
    hcheck.isLeader_eq.trans hleader, fun id' info' hinfo' hleader' => ?_⟩
  · simp only [checkLeader, if_pos hpass, Map.get_insert, if_true]
  · by_contra hne
    simp only [checkLeader, Map.get_insert, if_neg hne] at hinfo'
    exact hne (hmarks id' id info' info hinfo' hinfo hleader' hleader)

/-- The leader fails its check, and nobody is left. -/
lemma noMark_checkLeader
    (hfail : ¬(checkHeadServerHealth m.probing info (r.leaderProbe id)).healthy = true) :
    (checkLeader r m id info).NoMark := by
  intro id' info' hinfo'
  simp only [checkLeader, if_neg hfail, Map.get_insert] at hinfo'
  split_ifs at hinfo' with heq
  · rw [← Option.some.inj hinfo']
  · by_contra hleader'
    exact heq (hmarks id' id info' info hinfo' hinfo (by simpa using hleader') hleader)

end

/-! ## Promotion -/

lemma oneMark_promote {m : Monitor} (h : m.NoMark) (currentLeader : Option Bytes) {best : Bytes}
    {info : HeadServerInfo} (hinfo : m.headServers[best]? = some info) :
    ∃ server, (m.promote currentLeader best).OneMark best server ∧
      reportOf server = reportOf info ∧
      (m.promote currentLeader best).leaderServerId = info.serverId ∧
      (m.promote currentLeader best).SameReports m := by
  -- taking the mark of the old leader away changes nothing
  have hold : ∃ servers : Map Bytes HeadServerInfo,
      (∀ id : Bytes, servers[id]? = m.headServers[id]?) ∧
      m.promote currentLeader best = { m with
        headServers :=
          servers.insert best { info with isLeader := true, status := ascii "healthy" }
        leaderServerId := info.serverId
        grants := m.grants ++ [(info.serverId, m.probing.clock)] } := by
    cases currentLeader with
    | none =>
        refine ⟨m.headServers, fun _ => rfl, ?_⟩
        rw [promote, hinfo]
    | some leader =>
        rw [promote.eq_def]
        dsimp only
        by_cases hempty : leader = []
        · refine ⟨m.headServers, fun _ => rfl, ?_⟩
          rw [if_pos hempty, hinfo]
        · have hsame : ∀ id : Bytes,
              (m.headServers.modify leader ({ · with isLeader := false }))[id]? =
                m.headServers[id]? := by
            intro id
            rw [Map.get_modify]
            split_ifs with heq
            · rw [← heq]
              cases hserver : m.headServers[id]? with
              | none => rfl
              | some server =>
                  have hmark := h id server hserver
                  rw [Option.map_some, ← hmark]
            · rfl
          refine ⟨_, hsame, ?_⟩
          rw [if_neg hempty, hsame best, hinfo]
  obtain ⟨servers, hsame, heq⟩ := hold
  rw [heq]
  refine ⟨{ info with isLeader := true, status := ascii "healthy" },
    ⟨?_, rfl, fun id info' hinfo' hmark => ?_⟩, rfl, rfl, fun id => ?_⟩
  · simp only [Map.get_insert, if_true]
  · by_contra hne
    simp only [Map.get_insert, if_neg hne, hsame] at hinfo'
    rw [h id info' hinfo'] at hmark
    exact Bool.noConfusion hmark
  · simp only [Map.get_insert]
    split_ifs with hid
    · rw [hid, hinfo]
      rfl
    · rw [hsame id]

/-- Of some servers one is least unhealthy. -/
lemma foldl_lessUnhealthy {l : List (Bytes × HeadServerInfo)} (h : l ≠ []) :
    ∃ entry ∈ l, l.foldl lessUnhealthy none = some entry := by
  have hkeeps : ∀ (l : List (Bytes × HeadServerInfo)) (best : Bytes × HeadServerInfo),
      ∃ entry ∈ best :: l, l.foldl lessUnhealthy (some best) = some entry := by
    intro l
    induction l with
    | nil => exact fun best => ⟨best, List.mem_cons_self, rfl⟩
    | cons a l ih =>
        intro best
        rw [List.foldl_cons, lessUnhealthy]
        split_ifs
        · obtain ⟨entry, hmem, heq⟩ := ih a
          exact ⟨entry, List.mem_cons_of_mem best hmem, heq⟩
        · obtain ⟨entry, hmem, heq⟩ := ih best
          refine ⟨entry, ?_, heq⟩
          rcases List.mem_cons.mp hmem with rfl | hmem
          · exact List.mem_cons_self
          · exact List.mem_cons_of_mem best (List.mem_cons_of_mem a hmem)
  obtain ⟨a, l, rfl⟩ := List.exists_cons_of_ne_nil h
  exact hkeeps l a

lemma oneMark_electLeastUnhealthy {m : Monitor} (h : m.NoMark)
    (hne : ∃ (id : Bytes) (info : HeadServerInfo), m.headServers[id]? = some info) :
    ∃ leader server, m.electLeastUnhealthy.OneMark leader server ∧
      m.electLeastUnhealthy.leaderServerId = server.serverId ∧
      ∃ info, m.headServers[leader]? = some info ∧ server.serverId = info.serverId := by
  obtain ⟨id, info, hinfo⟩ := hne
  obtain ⟨⟨leader, server⟩, hmem, hleast⟩ :=
    foldl_lessUnhealthy (List.ne_nil_of_mem (Map.mem_toList.mpr hinfo))
  have hstored : m.headServers[leader]? = some server := Map.mem_toList.mp hmem
  rw [electLeastUnhealthy, hleast]
  refine ⟨leader, { server with isLeader := true, status := ascii "degraded" },
    ⟨?_, rfl, fun id' info' hinfo' hmark => ?_⟩, rfl, server, hstored, rfl⟩
  · simp only [Map.get_insert, if_true]
  · by_contra hother
    simp only [Map.get_insert, if_neg hother] at hinfo'
    rw [h id' info' hinfo'] at hmark
    exact Bool.noConfusion hmark

/-! ## Domination -/

/-- **No candidate undercuts the one that is kept.** -/
lemma bestOf_not_undercut {m : Monitor} {l : List Bytes} {best : Bytes}
    (h : bestOf m.prefers l = some best) : ∀ id ∈ l, ¬m.undercuts id best = true := by
  refine bestOf_undominated (D := fun id best => m.undercuts id best = true)
    (fun id => ?_) (fun id id' => ?_) (fun a b c => ?_) h
  · rw [undercuts]
    cases m.headServers[id]? with
    | none => simp
    | some info => simp [Double.lt_irrefl]
  · rw [undercuts, prefers]
    cases m.headServers[id]? with
    | none => simp
    | some info =>
        cases m.headServers[id']? with
        | none => simp
        | some info' =>
            intro hless
            dsimp only at hless ⊢
            rw [preferred, hless, Bool.true_or]
  · rw [undercuts, prefers, undercuts]
    cases m.headServers[c]? with
    | none => simp
    | some infoC =>
        cases m.headServers[a]? with
        | none => simp
        | some infoA =>
            cases m.headServers[b]? with
            | none => simp
            | some infoB =>
                simp only [preferred, Bool.and_eq_true, Bool.or_eq_true]
                rintro ⟨hcpu, hmemory⟩ (⟨hcpu', hmemory'⟩ | ⟨⟨hcpu', hmemory'⟩, -⟩)
                · exact ⟨Double.lt_trans hcpu hcpu', Double.lt_trans hmemory hmemory'⟩
                · exact ⟨Double.lt_of_lt_of_eq hcpu hcpu', Double.lt_of_lt_of_eq hmemory hmemory'⟩

/-- States with the same reports, as far as two stored servers are compared. -/
lemma SameReports.undercuts_iff {m m' : Monitor} (h : m'.SameReports m) {id best : Bytes}
    {info server : HeadServerInfo} (hinfo : m'.headServers[id]? = some info)
    (hserver : m'.headServers[best]? = some server) :
    m.undercuts id best = true ↔ info.cpuUsage.lt server.cpuUsage = true ∧
      info.memoryUsage.lt server.memoryUsage = true := by
  obtain ⟨info', hinfo', hreport⟩ := h.exists_stored hinfo
  obtain ⟨server', hserver', hreport'⟩ := h.exists_stored hserver
  simp only [reportOf, Report.mk.injEq] at hreport hreport'
  rw [undercuts, hinfo', hserver', ← hreport.2.1, ← hreport.2.2, ← hreport'.2.1, ← hreport'.2.2]
  exact Bool.and_eq_true_iff

/-! ## The election -/

/-- What the state after an election is: one server is the leader, and it is the one that
`leader_server_id` names unless the old leader passed its check; it was accepted if any server was,
and no accepted server undercuts it. -/
structure Elects (r : Round) (m m' : Monitor) (leader : Bytes) (info : HeadServerInfo) : Prop where
  one : m'.OneMark leader info
  named : ¬LeaderPasses r m → m'.leaderServerId = info.serverId
  keyed : ¬LeaderPasses r m →
    (∀ (id : Bytes) (server : HeadServerInfo), m.headServers[id]? = some server →
      server.serverId = id) → m'.leaderServerId = leader
  isAccepted : accepted r m ≠ [] → leader ∈ accepted r m
  undominated : ∀ id ∈ accepted r m, ∀ server : HeadServerInfo, m'.headServers[id]? = some server →
    ¬(server.cpuUsage.lt info.cpuUsage = true ∧ server.memoryUsage.lt info.memoryUsage = true)

/-- The part of the election after the search for the current leader, which has left nobody
marked. -/
lemma elects_of_noMark {r : Round} {m : Monitor} (h : m.NoMark)
    (hne : ∃ (id : Bytes) (info : HeadServerInfo), m.headServers[id]? = some info)
    (currentLeader : Option Bytes) :
    let m' := match findBestCandidate r m with
      | (some best, m) => m.promote currentLeader best
      | (none, m) => m.electLeastUnhealthy
    ∃ leader info, m'.OneMark leader info ∧ m'.leaderServerId = info.serverId ∧
      (∃ server, m.headServers[leader]? = some server ∧ info.serverId = server.serverId) ∧
      (acceptedFrom r m ≠ [] → leader ∈ acceptedFrom r m) ∧
      ∀ id ∈ acceptedFrom r m, ∀ server : HeadServerInfo, m'.headServers[id]? = some server →
        ¬(server.cpuUsage.lt info.cpuUsage = true ∧
          server.memoryUsage.lt info.memoryUsage = true) := by
  obtain ⟨hfound, hreports, -⟩ := findBestCandidate_eq r m
  have hmarks : (findBestCandidate r m).2.NoMark := (sameMarks_findBestCandidate r m).noMark h
  rw [acceptedFrom_eq]
  generalize findBestCandidate r m = found at hfound hreports hmarks ⊢
  obtain ⟨best, m₁⟩ := found
  dsimp only at hfound hreports hmarks ⊢
  have hback : ∀ (id : Bytes) (info : HeadServerInfo), m₁.headServers[id]? = some info →
      ∃ server, m.headServers[id]? = some server ∧ info.serverId = server.serverId := by
    intro id info hinfo
    obtain ⟨server, hserver, hreport⟩ := SameReports.exists_stored hreports hinfo
    exact ⟨server, hserver, (congrArg Report.serverId hreport).symm⟩
  cases best with
  | some best =>
      obtain ⟨server, hserver⟩ : ∃ server, m.headServers[best]? = some server :=
        mem_serverIds.mp (List.mem_filter.mp (mem_of_bestOf hfound.symm)).1
      obtain ⟨info, hinfo, -⟩ := SameReports.exists_stored (fun id => (hreports id).symm) hserver
      obtain ⟨elected, hone, hreport, hname, hreports'⟩ :=
        oneMark_promote hmarks currentLeader hinfo
      have hserverId : elected.serverId = info.serverId := congrArg Report.serverId hreport
      obtain ⟨server', hserver', hid⟩ := hback best info hinfo
      refine ⟨best, elected, hone, hname.trans hserverId.symm,
        ⟨server', hserver', hserverId.trans hid⟩, fun _ => mem_of_bestOf hfound.symm,
        fun id hid other hother hless => ?_⟩
      have hsame : (m₁.promote currentLeader best).SameReports m :=
        fun id => (hreports' id).trans (hreports id)
      exact bestOf_not_undercut hfound.symm id hid ((hsame.undercuts_iff hother hone.1).mpr hless)
  | none =>
      have hnil : m.candidates r = [] := by
        by_contra hsome
        exact bestOf_ne_none hsome hfound.symm
      have hne₁ : ∃ (id : Bytes) (info : HeadServerInfo), m₁.headServers[id]? = some info := by
        obtain ⟨id, info, hinfo⟩ := hne
        obtain ⟨server, hserver, -⟩ :=
          SameReports.exists_stored (fun id => (hreports id).symm) hinfo
        exact ⟨id, server, hserver⟩
      obtain ⟨leader, server, hone, hname, info, hinfo, hid⟩ :=
        oneMark_electLeastUnhealthy hmarks hne₁
      obtain ⟨server', hserver', hid'⟩ := hback leader info hinfo
      exact ⟨leader, server, hone, hname, ⟨server', hserver', hid.trans hid'⟩,
        fun hsome => absurd hnil hsome, by simp [hnil]⟩

/-- An election that does not return with the leader it finds goes on to the search for the best
candidate. -/
lemma election_of_search {r : Round} {m m₁ : Monitor} {found : Option (Bytes × Bool)}
    (hsearch : findCurrentLeader r (serverIds m)
      { m with probing.clock := m.probing.clock + r.electionDelay } = (found, m₁))
    (hfails : ∀ id, found ≠ some (id, true)) :
    accepted r m = acceptedFrom r m₁ ∧
      m.performLeaderElection r = match findBestCandidate r m₁ with
        | (some best, m) => m.promote (found.map (·.1)) best
        | (none, m) => m.electLeastUnhealthy := by
  rw [accepted, performLeaderElection]
  dsimp only [serverIds] at hsearch ⊢
  rw [hsearch]
  rcases found with _ | ⟨id, _ | _⟩
  · exact ⟨rfl, rfl⟩
  · exact ⟨rfl, rfl⟩
  · exact absurd rfl (hfails id)

/-- Such an election elects, if nobody is marked when it goes on. -/
lemma elects_of_search {r : Round} {m m₁ : Monitor} {found : Option (Bytes × Bool)}
    (hsearch : findCurrentLeader r (serverIds m)
      { m with probing.clock := m.probing.clock + r.electionDelay } = (found, m₁))
    (hfails : ∀ id, found ≠ some (id, true)) (hmark : m₁.NoMark)
    (hne : ∃ (id : Bytes) (info : HeadServerInfo), m₁.headServers[id]? = some info)
    (hkeyed : (∀ (id : Bytes) (server : HeadServerInfo), m.headServers[id]? = some server →
        server.serverId = id) →
      ∀ (id : Bytes) (server : HeadServerInfo), m₁.headServers[id]? = some server →
        server.serverId = id) :
    ∃ leader info, Elects r m (m.performLeaderElection r) leader info := by
  obtain ⟨haccepted, helection⟩ := election_of_search hsearch hfails
  obtain ⟨leader, info, hone, hname, ⟨server, hserver, hid⟩, hmem, hless⟩ :=
    elects_of_noMark (r := r) hmark hne (found.map (·.1))
  rw [helection]
  refine ⟨leader, info, hone, fun _ => hname, fun _ hkeys => ?_, ?_, ?_⟩
  · exact hname.trans (hid.trans (hkeyed hkeys leader server hserver))
  · rw [haccepted]
    exact hmem
  · rw [haccepted]
    exact hless

/-- **An election elects**: of any servers of which at most one is marked, exactly one is the leader
afterwards. -/
theorem performLeaderElection_elects (r : Round) (m : Monitor)
    (hne : ∃ (id : Bytes) (info : HeadServerInfo), m.headServers[id]? = some info)
    (hmarks : m.AtMostOneMark) :
    ∃ leader info, Elects r m (m.performLeaderElection r) leader info := by
  rcases findCurrentLeader_cases r (serverIds m)
      { m with probing.clock := m.probing.clock + r.electionDelay } with
    ⟨hsearch, hnone⟩ | ⟨id, info, hinfo, hleader, hsearch⟩
  · -- nobody was marked
    have hmark : NoMark { m with probing.clock := m.probing.clock + r.electionDelay } :=
      fun id info hinfo => hnone id (mem_serverIds.mpr ⟨info, hinfo⟩) info hinfo
    exact elects_of_search hsearch (by simp) hmark hne (fun hkeys => hkeys)
  · by_cases hpass : (checkHeadServerHealth
        { m.probing with clock := m.probing.clock + r.electionDelay } info
        (r.leaderProbe id)).healthy = true
    · -- the call returns, with the leader it found
      have hreturn : m.performLeaderElection r = checkLeader r
          { m with probing.clock := m.probing.clock + r.electionDelay } id info ∧
          accepted r m = [] := by
        rw [accepted, performLeaderElection]
        dsimp only [serverIds] at hsearch ⊢
        rw [hsearch, hpass]
        exact ⟨rfl, rfl⟩
      have hpasses : LeaderPasses r m := ⟨id, info, hinfo, hleader, hpass⟩
      obtain ⟨server, hone⟩ := oneMark_checkLeader (r := r)
        (m := { m with probing.clock := m.probing.clock + r.electionDelay })
        hinfo hleader hmarks hpass
      rw [hreturn.1]
      refine ⟨id, server, hone, fun h => absurd hpasses h, fun h => absurd hpasses h, ?_, ?_⟩
      · exact fun h => absurd hreturn.2 h
      · simp [hreturn.2]
    · -- the leader is demoted
      have hmark := noMark_checkLeader (r := r)
        (m := { m with probing.clock := m.probing.clock + r.electionDelay })
        hinfo hleader hmarks hpass
      have hcheck := checked_checkHeadServerHealth
        { m.probing with clock := m.probing.clock + r.electionDelay } info (r.leaderProbe id)
      refine elects_of_search hsearch ?_ hmark
        ⟨id, _, Map.get_insert _ _ _ _ |>.trans (if_pos rfl)⟩ ?_
      · intro id' heq
        exact hpass (congrArg Prod.snd (Option.some.inj heq))
      · intro hkeys id' server hserver
        simp only [checkLeader, if_neg hpass, Map.get_insert] at hserver
        split_ifs at hserver with heq
        · rw [← Option.some.inj hserver, heq]
          exact hcheck.serverId_eq.trans (hkeys id info hinfo)
        · exact hkeys id' server hserver

/-- The leader `a` has failed; `b` and `c` are there, and `c` has less of both loads. -/
def failedLeader : Monitor where
  headServers :=
    let server (name : String) (isLeader : Bool) (load : ℚ) : HeadServerInfo :=
      { serverId := ascii name, port := 9669, lastHealthCheck := 0, isLeader
        cpuUsage := some ((load : WithTop ℚ) : WithBot (WithTop ℚ))
        memoryUsage := some ((load : WithTop ℚ) : WithBot (WithTop ℚ)) }
    (((∅ : Map Bytes HeadServerInfo).insert (ascii "a") (server "a" true 1)).insert (ascii "b")
      (server "b" false 10)).insert (ascii "c") (server "c" false 5)
  leaderServerId := ascii "a"

/-- The election takes the lead to `c`. -/
theorem performLeaderElection_elects_three :
    let r := roundOf [] fun id => id ≠ ascii "a"
    (∃ leader info, Elects r failedLeader (failedLeader.performLeaderElection r) leader info) ∧
      accepted r failedLeader = [ascii "b", ascii "c"] ∧
      (failedLeader.performLeaderElection r).leaderServerId = ascii "c" := by
  intro r
  have hmarks : failedLeader.AtMostOneMark := by
    have honly : ∀ (id : Bytes) (info : HeadServerInfo), failedLeader.headServers[id]? = some info →
        info.isLeader = true → id = ascii "a" := by
      intro id info hinfo hleader
      simp only [failedLeader, Map.get_insert] at hinfo
      split_ifs at hinfo with hc hb ha
      · rw [← Option.some.inj hinfo] at hleader
        exact Bool.noConfusion hleader
      · rw [← Option.some.inj hinfo] at hleader
        exact Bool.noConfusion hleader
      · exact ha
      · simp at hinfo
    intro id id' info info' hinfo hinfo' hleader hleader'
    rw [honly id info hinfo hleader, honly id' info' hinfo' hleader']
  have hne : failedLeader.headServers[ascii "a"]?.isSome = true := by decide +kernel
  exact ⟨performLeaderElection_elects r failedLeader
    ⟨ascii "a", Option.isSome_iff_exists.mp hne⟩ hmarks, by decide +kernel, by decide +kernel⟩

end Monitor

end FileGrid
