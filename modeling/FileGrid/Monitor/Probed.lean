import FileGrid.Monitor.HeadServers
import FileGrid.Core.Runs

/-!
# Healthy means probed

A server should be found healthy, or be elected as a healthy candidate, only after a connection to
it was made less than five seconds before (`FreshGrants`).

The health check has a shortcut: a server that was checked less than five seconds ago and is healthy
needs no connection.  But the servers are discovered anew in every round: the time of the last check
is that of the discovery, and the status is whatever the text says.  A text that says `healthy` is
therefore believed (`Believes`) when the check follows within five seconds.  And between the check
of a server and its election other servers are checked, which takes as long as it takes.

* `Backed` is what the loops keep: a server that is healthy, but for those still to be checked, has
  been connected to since its last check began.
* **`healthy_means_probed`**: in a run in which no text is believed, and in which whoever is elected
  is elected within five seconds of its last check, healthy means probed.
-/

namespace FileGrid

/-! ## What a check adds -/

/-- Time goes on, and connections are added. -/
structure Probing.Extends (p p' : Probing) : Prop where
  clock : p.clock ≤ p'.clock
  connections : p.connections ⊆ p'.connections

lemma Probing.Extends.refl (p : Probing) : p.Extends p := ⟨le_rfl, List.Subset.refl _⟩

/-- The server was connected to since its last check began. -/
def Probing.Backed (p : Probing) (info : HeadServerInfo) : Prop :=
  ∃ t, (info.serverId, t) ∈ p.connections ∧ info.lastHealthCheck ≤ t ∧ t ≤ p.clock

lemma Probing.Backed.mono {p p' : Probing} {info : HeadServerInfo} (h : p.Backed info)
    (hext : p.Extends p') : p'.Backed info := by
  obtain ⟨t, hmem, hchecked, hclock⟩ := h
  exact ⟨t, hext.connections hmem, hchecked, hclock.trans hext.clock⟩

namespace Checked

variable {p : Probing} {server : HeadServerInfo} {probe : Probe} {result : CheckResult}

lemma extend (h : Checked p server probe result) : p.Extends result.probing := by
  cases h with
  | recent hrecent => exact ⟨Nat.le_add_right _ _, List.Subset.refl _⟩
  | connected clock counts hrecent hconnects hclock =>
      exact ⟨le_trans (Nat.le_add_right _ _) hclock, List.subset_append_left _ _⟩
  | failed clock counts status hrecent hconnects hclock hstatus =>
      exact ⟨le_trans (Nat.le_add_right _ _) hclock, List.Subset.refl _⟩

lemma healthy_of_status (h : Checked p server probe result)
    (hstatus : result.server.status = ascii "healthy") : server.status = ascii "healthy" := by
  cases h with
  | recent hrecent => exact hstatus
  | connected clock counts hrecent hconnects hclock => exact hstatus
  | failed clock counts status hrecent hconnects hclock hkept =>
      rcases hkept with hkept | hkept
      · rw [← hkept]
        exact hstatus
      · exact absurd (hkept.symm.trans hstatus) unhealthy_ne_healthy

/-- **A server that passes without the shortcut is connected to at that instant.** -/
lemma connected_now (h : Checked p server probe result) (hhealthy : result.healthy = true)
    (hrecent : ¬server.RecentlyHealthy (p.clock + probe.delay)) :
    (result.server.serverId, result.probing.clock) ∈ result.probing.connections ∧
      result.probing.Backed result.server := by
  cases h with
  | recent h => exact absurd h hrecent
  | connected clock counts _ hconnects hclock =>
      exact ⟨by simp, clock, by simp, hclock, le_rfl⟩
  | failed clock counts status _ hconnects hclock hstatus => exact absurd hhealthy (by simp)

lemma backed (h : Checked p server probe result) (hbacked : p.Backed server) :
    result.probing.Backed result.server := by
  cases h with
  | recent hrecent => exact hbacked.mono ⟨Nat.le_add_right _ _, List.Subset.refl _⟩
  | connected clock counts hrecent hconnects hclock => exact ⟨clock, by simp, hclock, le_rfl⟩
  | failed clock counts status hrecent hconnects hclock hstatus =>
      exact hbacked.mono ⟨le_trans (Nat.le_add_right _ _) hclock, List.Subset.refl _⟩

end Checked

namespace Monitor

/-! ## The property -/

/-- **Healthy means probed**: whenever a server was found healthy, or elected as healthy, a
connection to it had been made less than five seconds before. -/
def FreshGrants (m : Monitor) : Prop :=
  ∀ id t, (id, t) ∈ m.grants → ∃ t', (id, t') ∈ m.probing.connections ∧ t' ≤ t ∧ t < t' + nanos 5

/-- The health check of the server will believe its status. -/
def Believes (m : Monitor) (r : Round) (id : Bytes) : Prop :=
  m.headServers[id]?.any
    (fun info => info.RecentlyHealthy (m.probing.clock + (r.healthProbe id).delay)) = true

instance (m : Monitor) (r : Round) (id : Bytes) : Decidable (m.Believes r id) :=
  inferInstanceAs (Decidable (_ = true))

/-- The state in which the search for the best candidate ends, after a round's health checks. -/
def searched (m : Monitor) (r : Round) : Option Bytes × Monitor :=
  let checked := m.healthChecks r
  findBestCandidate r { checked with probing.clock := checked.probing.clock + r.electionDelay }

/-- The round believes no text, and the candidate it elects, if any, began its last check less than
five seconds before. -/
def Prompt (stod : Bytes → Option Double) (m : Monitor) (r : Round) : Prop :=
  let found := discoverHeadServers stod m r
  found.1 = true →
    AlongRun (healthCheck r) (fun m id => ¬m.Believes r id) found.2 found.2.serverIds ∧
      ∀ best ∈ (found.2.searched r).1, ∀ info ∈ (found.2.searched r).2.headServers[best]?,
        (found.2.searched r).2.probing.clock < info.lastHealthCheck + nanos 5

instance (stod : Bytes → Option Double) (m : Monitor) (r : Round) :
    Decidable (Prompt stod m r) :=
  inferInstanceAs (Decidable (_ → _))

/-! ## The loops of a round -/

/-- What the loops keep: the servers that count as healthy, but for those still to be checked, were
connected to since their last checks began. -/
structure Probed (unchecked : List Bytes) (m : Monitor) : Prop where
  unmarked : m.Unmarked
  fresh : m.FreshGrants
  healthy : ∀ (id : Bytes) (info : HeadServerInfo), m.headServers[id]? = some info →
    info.status = ascii "healthy" → id ∈ unchecked ∨ m.probing.Backed info

variable {m : Monitor} {r : Round}

lemma FreshGrants.mono {m' : Monitor} (h : m.FreshGrants) (hext : m.probing.Extends m'.probing)
    (hgrants : m'.grants = m.grants) : m'.FreshGrants := by
  intro id t hgrant
  rw [hgrants] at hgrant
  obtain ⟨t', hmem, hle, hlt⟩ := h id t hgrant
  exact ⟨t', hext.connections hmem, hle, hlt⟩

/-- One more grant, to a server that was connected to a moment ago. -/
lemma FreshGrants.grant {m' : Monitor} (h : m.FreshGrants) (hext : m.probing.Extends m'.probing)
    {id : Bytes} {t t' : Nat} (hgrants : m'.grants = m.grants ++ [(id, t)])
    (hmem : (id, t') ∈ m'.probing.connections) (hle : t' ≤ t) (hlt : t < t' + nanos 5) :
    m'.FreshGrants := by
  intro id' u hgrant
  rw [hgrants] at hgrant
  rcases List.mem_append.mp hgrant with hold | hnew
  · obtain ⟨u', hmem', hle', hlt'⟩ := h id' u hold
    exact ⟨u', hext.connections hmem', hle', hlt'⟩
  · obtain ⟨rfl, rfl⟩ := Prod.mk.inj (List.mem_singleton.mp hnew)
    exact ⟨t', hmem, hle, hlt⟩

lemma Probed.healthCheck {id : Bytes} {ids : List Bytes} (h : m.Probed (id :: ids))
    (hbelieves : ¬m.Believes r id) : (m.healthCheck r id).Probed ids := by
  have hunmarked := h.unmarked.healthCheck r id
  rw [Monitor.healthCheck] at hunmarked ⊢
  cases hinfo : m.headServers[id]? with
  | none =>
      refine ⟨h.unmarked, h.fresh, fun id' info' hinfo' hstatus => ?_⟩
      refine (h.healthy id' info' hinfo' hstatus).imp_left fun hunchecked => ?_
      refine (List.mem_cons.mp hunchecked).resolve_left ?_
      rintro rfl
      simp [hinfo] at hinfo'
  | some info =>
      rw [hinfo] at hunmarked
      dsimp only at hunmarked ⊢
      have hcheck := checked_checkHeadServerHealth m.probing info (r.healthProbe id)
      generalize checkHeadServerHealth m.probing info (r.healthProbe id) = result
        at hcheck hunmarked ⊢
      have hnow : result.healthy = true → _ := fun hhealthy =>
        hcheck.connected_now hhealthy (by simpa [Believes, hinfo] using hbelieves)
      refine ⟨hunmarked, ?_, fun id' info' hinfo' hstatus => ?_⟩
      · cases hhealthy : result.healthy with
        | true =>
            exact h.fresh.grant hcheck.extend rfl (hnow hhealthy).1 le_rfl
              (Nat.lt_add_of_pos_right (by decide))
        | false => exact h.fresh.mono hcheck.extend rfl
      · dsimp only at hinfo' ⊢
        rw [Map.get_insert] at hinfo'
        split_ifs at hinfo' with heq hhealthy
        · rw [← Option.some.inj hinfo']
          exact Or.inr (hnow hhealthy).2
        · rw [← Option.some.inj hinfo'] at hstatus
          exact absurd hstatus unhealthy_ne_healthy
        · exact (h.healthy id' info' hinfo' hstatus).imp
            (fun hunchecked => (List.mem_cons.mp hunchecked).resolve_left heq)
            fun hbacked => hbacked.mono hcheck.extend

lemma Probed.healthChecks {ids : List Bytes} (h : m.Probed ids)
    (hprompt : AlongRun (Monitor.healthCheck r) (fun m id => ¬m.Believes r id) m ids) :
    (ids.foldl (Monitor.healthCheck r) m).Probed [] := by
  induction ids generalizing m with
  | nil => exact h
  | cons id ids ih => exact ih (h.healthCheck hprompt.1) hprompt.2

/-- Time passes, and nothing else. -/
lemma Probed.wait {ids : List Bytes} (h : m.Probed ids) (delay : Nat) :
    Probed ids { m with probing.clock := m.probing.clock + delay } := by
  have hext : m.probing.Extends { m.probing with clock := m.probing.clock + delay } :=
    ⟨Nat.le_add_right _ _, List.Subset.refl _⟩
  refine ⟨h.unmarked, h.fresh.mono hext rfl, fun id info hinfo hstatus => ?_⟩
  exact (h.healthy id info hinfo hstatus).imp_right fun hbacked => hbacked.mono hext

/-- What the search for a candidate keeps: the candidate was connected to since its last check
began. -/
def CandidateBacked (state : Option Bytes × Monitor) : Prop :=
  state.2.Probed [] ∧ ∀ best ∈ state.1, ∀ info ∈ state.2.headServers[best]?,
    state.2.probing.Backed info

/-- What the check of a candidate comes to: a candidate that passes was connected to. -/
lemma Probed.checkCandidate {id : Bytes} {info : HeadServerInfo} (h : m.Probed [])
    (hinfo : m.headServers[id]? = some info) :
    let result := checkCandidate r m id info
    m.probing.Extends result.probing ∧ result.server.serverId = info.serverId ∧
      result.server.isLeader = info.isLeader ∧
      (result.server.status = ascii "healthy" → info.status = ascii "healthy") ∧
      (m.probing.Backed info → result.probing.Backed result.server) ∧
      (result.healthy = true → result.probing.Backed result.server) := by
  intro result
  by_cases hstatus : info.status = ascii "healthy"
  · have hresult : result = ⟨true, info, m.probing⟩ := if_pos hstatus
    rw [hresult]
    exact ⟨.refl _, rfl, rfl, fun _ => hstatus, fun hbacked => hbacked,
      fun _ => (h.healthy id info hinfo hstatus).resolve_left List.not_mem_nil⟩
  · have hresult : result = checkHeadServerHealth m.probing info (r.candidateProbe id) :=
      if_neg hstatus
    have hcheck := checked_checkHeadServerHealth m.probing info (r.candidateProbe id)
    rw [← hresult] at hcheck
    exact ⟨hcheck.extend, hcheck.serverId_eq, hcheck.isLeader_eq, hcheck.healthy_of_status,
      hcheck.backed,
      fun hhealthy => (hcheck.connected_now hhealthy fun hrecent => hstatus hrecent.2).2⟩

lemma CandidateBacked.considerCandidate {state : Option Bytes × Monitor}
    (h : CandidateBacked state) (id : Bytes) : CandidateBacked (considerCandidate r state id) := by
  rw [Monitor.considerCandidate]
  cases hinfo : state.2.headServers[id]? with
  | none => exact h
  | some info =>
      obtain ⟨hext, hid, hleader, hstatus, hkeeps, hpasses⟩ := h.1.checkCandidate (r := r) hinfo
      dsimp only
      generalize checkCandidate r state.2 id info = result
        at hext hid hleader hstatus hkeeps hpasses ⊢
      have hprobed : Probed []
          { state.2 with
            probing := result.probing
            headServers := state.2.headServers.insert id result.server } := by
        refine ⟨h.1.unmarked.insert rfl (hid.trans (h.1.unmarked id info hinfo).1)
          (hleader.trans (h.1.unmarked id info hinfo).2), h.1.fresh.mono hext rfl, ?_⟩
        intro id' info' hinfo' hstatus'
        simp only [Map.get_insert] at hinfo'
        split_ifs at hinfo' with heq
        · obtain rfl := Option.some.inj hinfo'
          have hold := h.1.healthy id info hinfo (hstatus hstatus')
          exact Or.inr (hkeeps (hold.resolve_left List.not_mem_nil))
        · exact (h.1.healthy id' info' hinfo' hstatus').imp_right fun hold => hold.mono hext
      have hbest : ∀ best ∈ state.1, ∀ info' ∈ (state.2.headServers.insert id result.server)[best]?,
          result.probing.Backed info' := by
        intro best hbest info' hinfo'
        rw [Map.get_insert] at hinfo'
        split_ifs at hinfo' with heq
        · obtain rfl := Option.some.inj hinfo'
          exact hkeeps (h.2 best hbest info (heq ▸ hinfo))
        · exact (h.2 best hbest info' hinfo').mono hext
      by_cases hhealthy : result.healthy = true
      · have hself : ∀ best ∈ some id, ∀ info' ∈
            (state.2.headServers.insert id result.server)[best]?, result.probing.Backed info' := by
          rintro best ⟨⟩ info' hinfo'
          rw [Map.get_insert, if_pos rfl] at hinfo'
          obtain rfl := Option.some.inj hinfo'
          exact hpasses hhealthy
        rw [if_pos hhealthy]
        split
        · exact ⟨hprobed, hself⟩
        · refine ⟨hprobed, ?_⟩
          dsimp only
          split_ifs
          · exact hself
          · exact hbest
      · rw [if_neg hhealthy]
        exact ⟨hprobed, hbest⟩

lemma Probed.findBestCandidate (h : m.Probed []) : CandidateBacked (findBestCandidate r m) := by
  have hall : ∀ (ids : List Bytes) (state : Option Bytes × Monitor), CandidateBacked state →
      CandidateBacked (ids.foldl (Monitor.considerCandidate r) state) := by
    intro ids
    induction ids with
    | nil => exact fun state hstate => hstate
    | cons id ids ih => exact fun state hstate => ih _ (hstate.considerCandidate id)
  exact hall m.serverIds (none, m) ⟨h, by simp⟩

/-- Who is elected as healthy in time was connected to in time. -/
lemma CandidateBacked.promote {state : Option Bytes × Monitor} (h : CandidateBacked state)
    {best : Bytes} (hbest : best ∈ state.1) (hprompt : ∀ info ∈ state.2.headServers[best]?,
      state.2.probing.clock < info.lastHealthCheck + nanos 5) :
    (state.2.promote none best).FreshGrants := by
  rw [Monitor.promote]
  cases hinfo : state.2.headServers[best]? with
  | none => exact h.1.fresh
  | some info =>
      obtain ⟨t, hmem, hchecked, hclock⟩ := h.2 best hbest info hinfo
      have htime := hprompt info hinfo
      exact h.1.fresh.grant (.refl _) rfl hmem hclock (by omega)

/-- The least unhealthy server is not elected as healthy. -/
lemma FreshGrants.electLeastUnhealthy (h : m.FreshGrants) : m.electLeastUnhealthy.FreshGrants := by
  rw [Monitor.electLeastUnhealthy]
  split
  · exact h
  · exact h.mono (.refl _) rfl

/-! ## Rounds -/

lemma FreshGrants.sleep (h : m.FreshGrants) : (m.sleep r).FreshGrants := by
  refine h.mono ⟨?_, List.Subset.refl _⟩ rfl
  rw [Monitor.sleep]
  dsimp only
  omega

lemma FreshGrants.discoverHeadServers (stod : Bytes → Option Double) (h : m.FreshGrants) :
    (discoverHeadServers stod m r).2.FreshGrants := by
  obtain ⟨-, hgrants, hconnections, -⟩ :=
    discoverChildren_frame stod r.children { m with headServers := ∅ }
  intro id t hgrant
  rw [Monitor.discoverHeadServers] at hgrant ⊢
  rw [hgrants] at hgrant
  rw [hconnections]
  exact h id t hgrant

/-- **A prompt round keeps the property.** -/
theorem FreshGrants.round {stod : Bytes → Option Double} (h : m.FreshGrants)
    (hprompt : Prompt stod m r) : (round stod m r).FreshGrants := by
  have hfresh := h.discoverHeadServers (r := r) stod
  have hunmarked := unmarked_discoverHeadServers stod m r
  rw [Prompt] at hprompt
  rw [Monitor.round]
  generalize Monitor.discoverHeadServers stod m r = found at hfresh hunmarked hprompt ⊢
  obtain ⟨complete, m'⟩ := found
  cases complete with
  | false => exact hfresh.sleep
  | true =>
      obtain ⟨hbelieves, htime⟩ := hprompt rfl
      have hstart : m'.Probed m'.serverIds :=
        ⟨hunmarked, hfresh, fun id info hinfo _ => Or.inl (mem_serverIds.mpr ⟨info, hinfo⟩)⟩
      have hchecked : (m'.healthChecks r).Probed [] := hstart.healthChecks hbelieves
      have hfound : CandidateBacked (m'.searched r) :=
        (hchecked.wait r.electionDelay).findBestCandidate
      refine FreshGrants.sleep ?_
      rw [performLeaderElection_of_unmarked r hchecked.unmarked]
      dsimp only
      rw [← searched]
      cases hbest : (m'.searched r).1 with
      | none => exact hfound.1.fresh.electLeastUnhealthy
      | some best => exact hfound.promote hbest (htime best hbest)

/-- **Healthy means probed**, in every run in which no text is believed and whoever is elected as
healthy is elected within five seconds of its last check. -/
theorem healthy_means_probed (stod : Bytes → Option Double) (clock : Nat) (rounds : List Round)
    (hprompt : AlongRun (round stod) (Prompt stod) { probing := { clock } } rounds) :
    (rounds.foldl (round stod) { probing := { clock } }).FreshGrants := by
  refine foldl_invariant FreshGrants (fun m r h hguard => h.round hguard) ?_ hprompt
  intro id t hgrant
  exact absurd hgrant List.not_mem_nil

/-- Two rounds.  In the first the health check of `a` fails, after 17 seconds; from then on both
servers answer. -/
theorem healthy_means_probed_answering :
    let children := [childOf "a" "ip=10.0.0.1,port=9669", childOf "b" "ip=10.0.0.2,port=9669"]
    let answering := roundOf children fun _ => true
    let rounds := [{ answering with healthProbe := (roundOf [] (· ≠ ascii "a")).healthProbe },
      answering]
    let m := rounds.foldl (round stodWhole) {}
    m.grants = [(ascii "b", nanos 17), (ascii "a", nanos 17), (ascii "a", nanos 27),
        (ascii "b", nanos 27), (ascii "a", nanos 27)] ∧
      AlongRun (round stodWhole) (Prompt stodWhole) {} rounds ∧ m.FreshGrants := by
  intro children answering rounds m
  have hprompt : AlongRun (round stodWhole) (Prompt stodWhole) {} rounds := by decide +kernel
  exact ⟨by decide +kernel, hprompt, healthy_means_probed stodWhole 0 rounds hprompt⟩

/-- A server that nobody can connect to, and whose text says that it is healthy, is found healthy
and elected.  And a server that was connected to is elected when the other one, which nobody can
connect to, has been tried for 34 seconds. -/
theorem healthy_without_probe :
    let believed := round stodWhole {}
      (roundOf [childOf "a" "ip=10.0.0.1,port=9669,status=healthy"] fun _ => false)
    let slow := round stodWhole {}
      (roundOf [childOf "a" "ip=10.0.0.1,port=9669", childOf "b" "ip=10.0.0.2,port=9669"]
        (· = ascii "a"))
    (believed.grants = [(ascii "a", 0), (ascii "a", 0)] ∧ believed.probing.connections = [] ∧
        believed.leaderServerId = ascii "a" ∧ ¬believed.FreshGrants) ∧
      (slow.grants = [(ascii "a", 0), (ascii "a", nanos 34)] ∧
        slow.probing.connections = [(ascii "a", 0)] ∧ ¬slow.FreshGrants) := by
  intro believed slow
  have hgrants : believed.grants = [(ascii "a", 0), (ascii "a", 0)] := by decide +kernel
  have hnone : believed.probing.connections = [] := by decide +kernel
  have hgrants' : slow.grants = [(ascii "a", 0), (ascii "a", nanos 34)] := by decide +kernel
  have hone : slow.probing.connections = [(ascii "a", 0)] := by decide +kernel
  refine ⟨⟨hgrants, hnone, by decide +kernel, ?_⟩, hgrants', hone, ?_⟩
  · intro hfresh
    obtain ⟨t, hmem, -⟩ := hfresh (ascii "a") 0 (by simp [hgrants])
    rw [hnone] at hmem
    exact absurd hmem List.not_mem_nil
  · intro hfresh
    obtain ⟨t, hmem, -, hlt⟩ := hfresh (ascii "a") (nanos 34) (by simp [hgrants'])
    rw [hone, List.mem_singleton] at hmem
    rw [(Prod.mk.inj hmem).2] at hlt
    exact absurd hlt (by decide)

end Monitor

end FileGrid
