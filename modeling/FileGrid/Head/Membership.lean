import FileGrid.Core.Runs
import FileGrid.Head.ControlApi

/-!
# Membership: the registry and the monitor over whole runs

The head server's view of the cluster changes by control requests, by heartbeats and by the
periodic health check.  `headStep` is one such event, `headRun` a whole history.
-/

namespace FileGrid

/-- What can happen to the registry and the monitor. -/
inductive HeadOp where
  /-- `handle_add_server` -/
  | addServer (body : Bytes)
  /-- `handle_self_register` -/
  | selfRegister (body : Bytes)
  /-- `ServerRegistry::remove_server` -/
  | removeServer (id : Int)
  /-- `record_heartbeat` -/
  | heartbeat (serverId : Int) (health : ServerHealth)
  /-- `check_health` -/
  | checkHealth

/-- One event, with what the code reads from outside while it handles it. -/
structure HeadEvent where
  env : ControlEnv
  op : HeadOp

/-- One event: the calls of the unhealthy callback, and the state afterwards. -/
def headStep (s : ControlApi) (ev : HeadEvent) : List (Int × ServerHealth) × ControlApi :=
  match ev.op with
  | .addServer body => ([], (s.handleAddServer ev.env body).2)
  | .selfRegister body => ([], (s.handleSelfRegister ev.env body).2)
  | .removeServer id => ([], { s with registry := (s.registry.removeServer id).2 })
  | .heartbeat serverId health =>
      ([], { s with health := (s.health.recordHeartbeat ev.env.now serverId health).2 })
  | .checkHealth =>
      let (calls, health) := s.health.checkHealth ev.env.now
      (calls, { s with health })

/-- A whole history. -/
def headRun (s : ControlApi) (evs : List HeadEvent) : ControlApi :=
  evs.foldl (fun s ev => (headStep s ev).2) s

lemma headRun_append (s : ControlApi) (evs evs' : List HeadEvent) :
    headRun s (evs ++ evs') = headRun (headRun s evs) evs' := List.foldl_append

lemma headRun_snoc (s : ControlApi) (evs : List HeadEvent) (ev : HeadEvent) :
    headRun s (evs ++ [ev]) = (headStep (headRun s evs) ev).2 := by
  simp [headRun]

namespace ControlApi

lemma handleAddServer_registry (env : ControlEnv) (s : ControlApi) (body : Bytes) :
    (s.handleAddServer env body).2.registry = s.registry ∨
      ∃ host port tp pp, (s.handleAddServer env body).2.registry =
        (s.registry.addServer host port tp pp).2 := by
  unfold handleAddServer
  dsimp only
  split_ifs
  · exact Or.inl rfl
  · exact Or.inr ⟨_, _, _, _, rfl⟩

/-- What `handle_self_register` does to the registry: nothing, or one `add_server` after the
counter was moved. -/
lemma handleSelfRegister_registry (env : ControlEnv) (s : ControlApi) (body : Bytes) :
    (s.handleSelfRegister env body).2.registry = s.registry ∨
      ∃ host port tp pp, (s.handleSelfRegister env body).2.registry =
        ((reserveId s.registry (extractJsonInt body "server_id")).addServer host port tp pp).2 := by
  unfold handleSelfRegister
  dsimp only
  split_ifs
  · exact Or.inl rfl
  · exact Or.inr ⟨_, _, _, _, rfl⟩

end ControlApi

/-! ## Entries are not displaced -/

namespace ServerRegistry

/-- The counter is ahead of every identifier, and has not wrapped around. -/
structure Ahead (r : ServerRegistry) : Prop where
  fresh : r.Fresh
  pos : 0 < r.nextId

lemma Ahead.addServer {r : ServerRegistry} (h : r.Ahead) (hhi : r.nextId < 2 ^ 31 - 1)
    (host : Bytes) (port tp pp : Int) : (r.addServer host port tp pp).2.Ahead := by
  have hpos := h.pos
  refine ⟨h.fresh.addServer hpos.le hhi host port tp pp, ?_⟩
  rcases addServer_cases r host port tp pp with ⟨_, _, -, -, -, heq⟩ | ⟨-, heq⟩
  · rw [heq]; exact hpos
  · simp only [heq]
    rw [wrap32_of_lt (by omega) (by omega)]
    omega

end ServerRegistry

/-- A self-registration with identifier `serverId` does not move the counter back to an identifier
in use: every registered identifier is at most the larger of `serverId` and the number of
entries, and that number leaves room for one more `int`. -/
def NoRewind (r : ServerRegistry) (serverId : Int) : Prop :=
  (∀ p ∈ r.servers.toList, p.1 ≤ max serverId r.servers.size) ∧
    max serverId r.servers.size < 2 ^ 31 - 2

/-- The guard under which an event keeps the counter ahead. -/
def KeepsCounter (s : ControlApi) (ev : HeadEvent) : Prop :=
  match ev.op with
  | .addServer _ => s.registry.nextId < 2 ^ 31 - 1
  | .selfRegister body =>
      let serverId := ControlApi.extractJsonInt body "server_id"
      if 0 < serverId then NoRewind s.registry serverId else s.registry.nextId < 2 ^ 31 - 1
  | _ => True

instance (r : ServerRegistry) (serverId : Int) : Decidable (NoRewind r serverId) :=
  inferInstanceAs (Decidable (_ ∧ _))

instance : ∀ (s : ControlApi) (ev : HeadEvent), Decidable (KeepsCounter s ev)
  | _, ⟨_, .addServer _⟩ => inferInstanceAs (Decidable (_ < _))
  | s, ⟨_, .selfRegister body⟩ =>
      inferInstanceAs (Decidable
        (if 0 < ControlApi.extractJsonInt body "server_id" then
          NoRewind s.registry (ControlApi.extractJsonInt body "server_id")
        else s.registry.nextId < 2 ^ 31 - 1))
  | _, ⟨_, .removeServer _⟩ => isTrue trivial
  | _, ⟨_, .heartbeat _ _⟩ => isTrue trivial
  | _, ⟨_, .checkHealth⟩ => isTrue trivial

namespace ControlApi

/-- Reserving an identifier that rewinds nothing keeps the counter ahead. -/
lemma reserveId_ahead {r : ServerRegistry} {serverId : Int} (hpos : 0 < serverId)
    (h : NoRewind r serverId) :
    (reserveId r serverId).Ahead ∧ (reserveId r serverId).nextId < 2 ^ 31 - 1 := by
  obtain ⟨hids, hroom⟩ := h
  have hcount : r.count = r.servers.size := by
    rw [ServerRegistry.count, wrap32_of_lt (by omega) (by omega)]
  have hnext : (reserveId r serverId).nextId = max (serverId + 1) (r.servers.size + 1) := by
    simp only [reserveId, hpos, if_true, ServerRegistry.setNextId, hcount]
    rw [wrap32_of_lt (by omega) (by omega), wrap32_of_lt (by omega) (by omega)]
  have hservers : (reserveId r serverId).servers = r.servers := by
    simp only [reserveId, hpos, if_true, ServerRegistry.setNextId]
  refine ⟨⟨fun i e he => ?_, by omega⟩, by omega⟩
  rw [hservers] at he
  have := hids (i, e) (Map.mem_toList.mpr he)
  rw [hnext]
  omega

end ControlApi

/-- The registry an event's `add_server` starts from is ahead, and has room for one more. -/
lemma keepsCounter_step {s : ControlApi} {ev : HeadEvent} (hs : s.registry.Ahead)
    (hg : KeepsCounter s ev) :
    (headStep s ev).2.registry.Ahead ∧
      ∀ (i : Int) e, s.registry.servers[i]? = some e → ev.op ≠ .removeServer i →
        (headStep s ev).2.registry.servers[i]? = some e := by
  obtain ⟨env, op⟩ := ev
  cases op with
  | addServer body =>
      rcases s.handleAddServer_registry env body with h | ⟨host, port, tp, pp, h⟩
      · simp only [headStep, h]
        exact ⟨hs, fun i e he _ => he⟩
      · simp only [headStep, h]
        exact ⟨hs.addServer hg host port tp pp, fun i e he _ => hs.fresh.addServer_get he⟩
  | selfRegister body =>
      rcases s.handleSelfRegister_registry env body with h | ⟨host, port, tp, pp, h⟩
      · simp only [headStep, h]
        exact ⟨hs, fun i e he _ => he⟩
      · simp only [headStep, h]
        simp only [KeepsCounter] at hg
        split_ifs at hg with hpos
        · obtain ⟨hahead, hroom⟩ := ControlApi.reserveId_ahead hpos hg
          refine ⟨hahead.addServer hroom host port tp pp, fun i e he _ => ?_⟩
          refine hahead.fresh.addServer_get ?_
          simpa [ControlApi.reserveId, hpos, ServerRegistry.setNextId] using he
        · simp only [ControlApi.reserveId, hpos, if_false]
          exact ⟨hs.addServer hg host port tp pp, fun i e he _ => hs.fresh.addServer_get he⟩
  | removeServer id =>
      refine ⟨⟨hs.fresh.removeServer id, by simpa [headStep] using hs.pos⟩, fun i e he hne => ?_⟩
      have hi : i ≠ id := fun h => hne (by rw [h])
      simp only [headStep, ServerRegistry.removeServer_get, if_neg hi, he]
  | heartbeat serverId health => exact ⟨hs, fun i e he _ => he⟩
  | checkHealth => exact ⟨hs, fun i e he _ => he⟩

/-- The counter stays ahead along every run that never rewinds it. -/
lemma headRun_ahead {evs : List HeadEvent}
    (hrun : AlongRun (fun s ev => (headStep s ev).2) KeepsCounter {} evs) :
    (headRun {} evs).registry.Ahead :=
  foldl_invariant (fun s => s.registry.Ahead)
    (fun _ _ hs hg => (keepsCounter_step hs hg).1)
    ⟨ServerRegistry.fresh_empty, by decide⟩ hrun

/-- **A registered server is never displaced**: along every run from the empty registry whose
self-registrations never move the counter back to an identifier in use, an entry stays under its
identifier until `remove_server` is called with that identifier. -/
theorem registered_entry_stays {evs evs' : List HeadEvent}
    (hrun : AlongRun (fun s ev => (headStep s ev).2) KeepsCounter {} (evs ++ evs'))
    {i : Int} {e : ServerEntry} (hin : (headRun {} evs).registry.servers[i]? = some e)
    (hkeep : ∀ ev ∈ evs', ev.op ≠ .removeServer i) :
    (headRun {} (evs ++ evs')).registry.servers[i]? = some e := by
  obtain ⟨hpre, hpost⟩ := alongRun_append.mp hrun
  rw [headRun_append]
  refine (foldl_invariant (fun s => s.registry.Ahead ∧ s.registry.servers[i]? = some e) ?_
    ⟨headRun_ahead hpre, hin⟩ (hpost.and_forall hkeep)).2
  intro s ev hs hg
  obtain ⟨hahead, hget⟩ := keepsCounter_step hs.1 hg.1
  exact ⟨hahead, hget i e hs.2 hg.2⟩

/-- The body a cluster server sends when it registers itself (`self_register_with_head`). -/
def selfRegisterBody (serverId : Int) (ip : Bytes) (port transferPort publicPort : Int) : Bytes :=
  ascii "\x7b\"server_id\":" ++ dec serverId
    ++ ascii ",\"host\":\"" ++ ip
    ++ ascii "\",\"port\":" ++ dec port
    ++ ascii ",\"transfer_port\":" ++ dec transferPort
    ++ ascii ",\"public_port\":" ++ dec publicPort ++ ascii "\x7d"

/-- Some event of a quiet environment: nothing connects, and floats are not printed. -/
def headEvent (now : Int) (op : HeadOp) : HeadEvent :=
  { env := { now, showFloat := fun _ => [], connects := fun _ _ => false }, op }

/-- Two nodes register, and the first registers again. -/
def reRegistration : List HeadEvent :=
  [headEvent 1 (.selfRegister (selfRegisterBody 1 (ascii "10.0.0.1") 8080 8180 8280)),
   headEvent 2 (.selfRegister (selfRegisterBody 2 (ascii "10.0.0.2") 8080 8180 8280))]

theorem registered_entry_stays_instance :
    (headRun {} (reRegistration ++
      [headEvent 3 (.selfRegister (selfRegisterBody 3 (ascii "10.0.0.3") 8080 8180 8280))])
        ).registry.servers[(3 : Int)]? =
      some { id := 3, host := ascii "10.0.0.2", port := 8080, transferPort := 8180,
             publicPort := 8280 } :=
  registered_entry_stays (by decide +kernel) (by decide +kernel) (by simp [headEvent])

/-- **A registration repeated displaces another node's entry**: the first node registers again,
which moves the counter back to 3, and the next server an operator adds takes the place of the
second node. -/
theorem registered_entry_displaced :
    (headRun {} reRegistration).registry.servers[(3 : Int)]? =
        some { id := 3, host := ascii "10.0.0.2", port := 8080, transferPort := 8180,
               publicPort := 8280 } ∧
      (headRun {} (reRegistration ++
        [headEvent 3 (.selfRegister (selfRegisterBody 1 (ascii "10.0.0.1") 8080 8180 8280)),
         headEvent 4 (.addServer (ascii "\x7b\"host\":\"10.0.0.9\",\"port\":8080\x7d"))])
          ).registry.servers[(3 : Int)]? =
        some { id := 3, host := ascii "10.0.0.9", port := 8080, transferPort := 0,
               publicPort := 0 } := by
  decide +kernel

end FileGrid
