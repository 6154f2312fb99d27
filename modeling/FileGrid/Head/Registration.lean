import FileGrid.Head.Membership

/-!
# Registration and removal through the control API

What the three requests that change the membership of the cluster do to it, whatever the registry
and the monitor hold.

* `self_registration_takes_effect_iff` — `add_server` returns early for an address it knows, so a
  node's own ports are entered only where no entry for its address has others.  The servers of the
  configuration are entered without ports: `configured_server_keeps_ports`.
* `removal_request_rejected` — the route of `DELETE` cuts the identifier out of the path one byte
  early, as the health route does, and no request removes a server.
* `requested_id_assigned_iff` — a node that asks for identifier `n` sets the counter to `n + 1` at
  least, and the counter is what it gets.
-/

namespace FileGrid

namespace ControlApi

/-- The response has this status code. -/
def Answers (code : Nat) (response : Bytes) : Prop :=
  (ascii "HTTP/1.1 " ++ natDec code ++ ascii " ") <+: response

instance (code : Nat) (response : Bytes) : Decidable (Answers code response) :=
  inferInstanceAs (Decidable (_ <+: _))

lemma not_answers_missingHostOrPort : ¬Answers 200 missingHostOrPort := by
  decide +kernel

/-- What a self-registration is asked for. -/
structure SelfRegistration where
  serverId : Int
  host : Bytes
  port : Int
  transferPort : Int
  publicPort : Int

/-- The fields `handle_self_register` reads from the body. -/
def selfRegistrationOf (body : Bytes) : SelfRegistration where
  serverId := extractJsonInt body "server_id"
  host := extractJsonString body "host"
  port := extractJsonInt body "port"
  transferPort := extractJsonInt body "transfer_port"
  publicPort := extractJsonInt body "public_port"

lemma reserveId_servers (r : ServerRegistry) (serverId : Int) :
    (reserveId r serverId).servers = r.servers := by
  unfold reserveId
  split_ifs
  · exact ServerRegistry.setNextId_servers _ _
  · rfl

/-- **Everything a self-registration can do**: be refused and change nothing; find the address
registered and leave the entries as they are; or enter it under the counter's value. -/
inductive SelfRegisters (env : ControlEnv) (s : ControlApi) (q : SelfRegistration) :
    Bytes × ControlApi → Prop
  | refused : SelfRegisters env s q (missingHostOrPort, s)
  | known {i : Int} {e : ServerEntry} (entry : s.registry.servers[i]? = some e)
      (host : e.host = q.host) (port : e.port = q.port) :
      SelfRegisters env s q
        (makeResponse 200 (ascii "\x7b\"id\":" ++ dec i ++ ascii ",\"registered\":true\x7d"),
          ⟨reserveId s.registry q.serverId,
            s.health.registerServer env.now i (addressOf q.host q.port)⟩)
  | entered {i : Int} (new : ¬s.registry.Registered q.host q.port)
      (counter : i = (reserveId s.registry q.serverId).nextId) :
      SelfRegisters env s q
        (makeResponse 200 (ascii "\x7b\"id\":" ++ dec i ++ ascii ",\"registered\":true\x7d"),
          ⟨{ servers := s.registry.servers.insert i
               { id := i, host := q.host, port := q.port, transferPort := q.transferPort
                 publicPort := q.publicPort }
             nextId := wrap32 (i + 1) },
            s.health.registerServer env.now i (addressOf q.host q.port)⟩)

lemma registered_reserveId {r : ServerRegistry} {serverId : Int} {host : Bytes} {port : Int} :
    (reserveId r serverId).Registered host port ↔ r.Registered host port := by
  simp only [ServerRegistry.Registered, reserveId_servers]

lemma handleSelfRegister_cases (env : ControlEnv) (s : ControlApi) (body : Bytes) :
    SelfRegisters env s (selfRegistrationOf body) (s.handleSelfRegister env body) := by
  unfold handleSelfRegister
  dsimp only
  split_ifs
  · exact .refused
  · rcases ServerRegistry.addServer_cases
      (reserveId s.registry (extractJsonInt body "server_id")) (extractJsonString body "host")
      (extractJsonInt body "port") (extractJsonInt body "transfer_port")
      (extractJsonInt body "public_port") with ⟨i, e, he, hhost, hport, heq⟩ | ⟨hnew, heq⟩
    · rw [heq]
      rw [reserveId_servers] at he
      exact .known he hhost hport
    · rw [heq, reserveId_servers]
      rw [registered_reserveId] at hnew
      exact .entered hnew rfl

/-! ## The ports of a server -/

/-- There is an entry for this address, and every entry for it has these ports. -/
def CarriesPorts (r : ServerRegistry) (q : SelfRegistration) : Prop :=
  r.Registered q.host q.port ∧
    ∀ (i : Int) (e : ServerEntry), r.servers[i]? = some e → e.host = q.host → e.port = q.port →
      e.transferPort = q.transferPort ∧ e.publicPort = q.publicPort

/-- No entry for this address has other ports. -/
def NoOtherPorts (r : ServerRegistry) (q : SelfRegistration) : Prop :=
  ∀ (i : Int) (e : ServerEntry), r.servers[i]? = some e → e.host = q.host → e.port = q.port →
    e.transferPort = q.transferPort ∧ e.publicPort = q.publicPort

/-- **A self-registration takes effect exactly if no entry for the address had other ports**, as
none has if the address is new. -/
theorem self_registration_takes_effect_iff (env : ControlEnv) (s : ControlApi) (body : Bytes)
    (hok : Answers 200 (s.handleSelfRegister env body).1) :
    CarriesPorts (s.handleSelfRegister env body).2.registry (selfRegistrationOf body) ↔
      NoOtherPorts s.registry (selfRegistrationOf body) := by
  have hcases := handleSelfRegister_cases env s body
  generalize s.handleSelfRegister env body = result at hok hcases ⊢
  generalize selfRegistrationOf body = q at hcases ⊢
  cases hcases with
  | refused => exact absurd hok not_answers_missingHostOrPort
  | @known i e entry host port =>
      simp only [CarriesPorts, NoOtherPorts, registered_reserveId, reserveId_servers]
      exact and_iff_right ⟨i, e, entry, host, port⟩
  | entered new counter =>
      constructor
      · intro _ i e he hhost hport
        exact absurd ⟨i, e, he, hhost, hport⟩ new
      · intro _
        refine ⟨⟨_, _, by rw [Map.get_insert, if_pos rfl], rfl, rfl⟩, fun i e he hhost hport => ?_⟩
        simp only [Map.get_insert] at he
        split_ifs at he
        · cases he
          exact ⟨rfl, rfl⟩
        · exact absurd ⟨i, e, he, hhost, hport⟩ new

/-- A server of the configuration file. -/
structure ConfigServer where
  id : Int
  host : Bytes
  port : Int

/-- The loop of `run_head_server` over the servers of the configuration: they are entered without
ports, and the monitor knows them by the identifier in the file. -/
def loadConfigServers (now : Int) (servers : List ConfigServer) (s : ControlApi) : ControlApi :=
  servers.foldl (fun s srv =>
    { registry := (s.registry.addServer srv.host srv.port (-1) (-1)).2
      health := s.health.registerServer now srv.id (addressOf srv.host srv.port) }) s

/-- A server of the configuration, and a node that has registered itself. -/
def twoServers : ControlApi :=
  (handleSelfRegister (headEvent 1 .checkHealth).env
    (loadConfigServers 1 [⟨1, ascii "10.0.0.1", 8080⟩] {})
    (selfRegisterBody 2 (ascii "10.0.0.2") 8080 8180 8280)).2

/-- The node registers itself once more. -/
theorem self_registration_takes_effect_again :
    let body := selfRegisterBody 2 (ascii "10.0.0.2") 8080 8180 8280
    CarriesPorts (twoServers.handleSelfRegister (headEvent 2 .checkHealth).env body).2.registry
      (selfRegistrationOf body) := by
  intro body
  refine (self_registration_takes_effect_iff _ twoServers body (by decide +kernel)).mpr ?_
  have hall : ∀ p ∈ twoServers.registry.servers.toList,
      p.2.host = (selfRegistrationOf body).host → p.2.port = (selfRegistrationOf body).port →
      p.2.transferPort = (selfRegistrationOf body).transferPort ∧
        p.2.publicPort = (selfRegistrationOf body).publicPort := by
    decide +kernel
  exact fun i e he => hall (i, e) (Map.mem_toList.mpr he)

/-- **A server of the configuration keeps the ports it does not have**: its node registers itself
with ports 8180 and 8280, is answered with status 200, and its entry still says -1. -/
theorem configured_server_keeps_ports :
    let s := loadConfigServers 1 [⟨1, ascii "10.0.0.1", 8080⟩] {}
    let body := selfRegisterBody 1 (ascii "10.0.0.1") 8080 8180 8280
    let result := s.handleSelfRegister (headEvent 2 .checkHealth).env body
    Answers 200 result.1 ∧
      (selfRegistrationOf body).transferPort = 8180 ∧ (selfRegistrationOf body).publicPort = 8280 ∧
      result.2.registry.servers.toList =
        [(1, { id := 1, host := ascii "10.0.0.1", port := 8080 })] ∧
      ¬CarriesPorts result.2.registry (selfRegistrationOf body) := by
  have hentry : ((loadConfigServers 1 [⟨1, ascii "10.0.0.1", 8080⟩] {}).handleSelfRegister
      (headEvent 2 .checkHealth).env
      (selfRegisterBody 1 (ascii "10.0.0.1") 8080 8180 8280)).2.registry.servers[(1 : Int)]? =
        some { id := 1, host := ascii "10.0.0.1", port := 8080 } := by
    decide +kernel
  refine ⟨by decide +kernel, by decide +kernel, by decide +kernel, by decide +kernel, ?_⟩
  rintro ⟨-, hports⟩
  have hport := (hports 1 _ hentry (by decide +kernel) (by decide +kernel)).1
  revert hport
  decide +kernel

/-! ## Removal -/

/-- `DELETE /api/v1/servers/cluster/<id> HTTP/1.1`, with whatever follows the request line. -/
def removalRequest (id : Int) (rest : Bytes) : Bytes :=
  ascii "DELETE " ++ clusterSlash ++ (dec id ++ ascii " HTTP/1.1" ++ rest)

/-- What a removal is to do: a registered server leaves the registry and the monitor, and nothing
else changes; for any other identifier nothing changes at all. -/
def RemovalWorks (env : ControlEnv) (s : ControlApi) (id : Int) (rest : Bytes) : Prop :=
  let result := s.handleRequest env (removalRequest id rest)
  if (s.registry.servers[id]?).isSome then
    Answers 200 result.1 ∧
      result.2.registry.servers = s.registry.servers.erase id ∧
      result.2.health.servers = s.health.servers.erase id
  else Answers 404 result.1 ∧ result.2 = s

/-- The identifier text of the route begins with the slash before the identifier. -/
lemma handleRequest_delete (env : ControlEnv) (s : ControlApi) (t : Bytes) :
    s.handleRequest env (ascii "DELETE " ++ clusterSlash ++ t) = (invalidServerId, s) := by
  have hrequest : ascii "DELETE " ++ clusterSlash ++ t =
      ascii "DELETE" ++ 32 :: (clusterSlash ++ t) := by
    rw [List.append_assoc]
    rfl
  rw [hrequest]
  obtain ⟨rest, u, v, hmethod, hpath⟩ := readWord_clusterSlash
    (show Word (ascii "DELETE") by decide) (by decide) t
  have hget : ¬ (ascii "DELETE" = ascii "GET") := by decide
  have hpost : ¬ (ascii "DELETE" = ascii "POST") := by decide
  have hslash : find clusterSlash (clusterSlash ++ u) = some 0 :=
    find_self_append (by decide) u
  have hdrop : (clusterSlash ++ u).drop 23 = 47 :: u := rfl
  simp only [handleRequest, hmethod, hpath, Option.getD_some, hget, hpost, hslash, hdrop,
    false_and, and_false, if_false, and_self, if_true, handleRemoveServer, stoi_slash,
    List.append_eq_nil_iff, reduceCtorEq]

lemma handleRequest_removalRequest (env : ControlEnv) (s : ControlApi) (id : Int) (rest : Bytes) :
    s.handleRequest env (removalRequest id rest) = (invalidServerId, s) :=
  handleRequest_delete env s _

/-- **No server is ever removed**: the request is answered with status 400 and changes nothing,
whatever its identifier and whatever the registry holds. -/
theorem removal_request_rejected (env : ControlEnv) (s : ControlApi) (id : Int) (rest : Bytes) :
    s.handleRequest env (removalRequest id rest) = (invalidServerId, s) ∧
      ¬RemovalWorks env s id rest := by
  have heq := handleRequest_removalRequest env s id rest
  have hok : ¬Answers 200 invalidServerId := by decide +kernel
  have hmissing : ¬Answers 404 invalidServerId := by decide +kernel
  refine ⟨heq, ?_⟩
  simp only [RemovalWorks, heq]
  split_ifs
  · exact fun h => hok h.1
  · exact fun h => hmissing h.1

/-- A server that is registered as number 1 and is not removed under that number. -/
theorem removal_of_registered_rejected :
    let s : ControlApi := headRun {}
      [headEvent 1 (.addServer (ascii "\x7b\"host\":\"10.0.0.1\",\"port\":8080\x7d"))]
    (s.registry.servers[(1 : Int)]?).isSome = true ∧
      Answers 400 (s.handleRequest (headEvent 2 .checkHealth).env (removalRequest 1 [])).1 ∧
      ((s.handleRequest (headEvent 2 .checkHealth).env
        (removalRequest 1 [])).2.registry.servers[(1 : Int)]?).isSome = true ∧
      ¬RemovalWorks (headEvent 2 .checkHealth).env s 1 [] := by
  intro s
  have hregistered : (s.registry.servers[(1 : Int)]?).isSome = true := by decide +kernel
  have hnot : ¬Answers 200 (s.handleRequest (headEvent 2 .checkHealth).env
      (removalRequest 1 [])).1 := by
    decide +kernel
  refine ⟨hregistered, by decide +kernel, by decide +kernel, ?_⟩
  intro hworks
  simp only [RemovalWorks, hregistered, if_true] at hworks
  exact hnot hworks.1

/-! ## The identifier of a node -/

lemma extractJsonInt_le (json : Bytes) (key : String) : extractJsonInt json key ≤ 2 ^ 31 - 1 := by
  unfold extractJsonInt
  extract_lets value
  cases hvalue : value with
  | none => simp
  | some n =>
      simp only [value, Option.bind_eq_bind, Option.bind_eq_some_iff, stoi,
        Option.map_eq_some_iff, Prod.exists] at hvalue
      obtain ⟨_, _, _, _, _, _, hread, rfl⟩ := hvalue
      exact (readInt_range hread).2

lemma wrap32_range (n : Int) : -2 ^ 31 ≤ wrap32 n ∧ wrap32 n ≤ 2 ^ 31 - 1 := by
  unfold wrap32
  have hlo : -(2 ^ 32 / 2 : Int) ≤ Int.bmod n (2 ^ 32) := Int.le_bmod (by norm_num)
  have hhi : Int.bmod n (2 ^ 32) < ((2 ^ 32 : Nat) + 1 : Int) / 2 := Int.bmod_lt (by norm_num)
  norm_num at hlo hhi ⊢
  omega

/-- The identifier assigned to a node is `n`: in the answer, in the registry and in the monitor. -/
structure Assigned (result : Bytes × ControlApi) (q : SelfRegistration) (n : Int) : Prop where
  answer : result.1 =
    makeResponse 200 (ascii "\x7b\"id\":" ++ dec n ++ ascii ",\"registered\":true\x7d")
  entry : ∃ e, result.2.registry.servers[n]? = some e ∧ e.id = n ∧ e.host = q.host ∧
    e.port = q.port
  monitored : (result.2.health.servers[n]?).isSome = true

/-- The counter is above the identifier a node asks for, but for the largest `int`. -/
lemma reserveId_nextId {r : ServerRegistry} {n : Int} (hpos : 0 < n) (hle : n ≤ 2 ^ 31 - 1) :
    (reserveId r n).nextId = n ↔ n = 2 ^ 31 - 1 ∧ r.count = 2 ^ 31 - 2 := by
  have hnext : (reserveId r n).nextId = max (wrap32 (n + 1)) (wrap32 (r.count + 1)) := by
    simp only [reserveId, hpos, if_true, ServerRegistry.setNextId]
  have hcount : -2 ^ 31 ≤ r.count ∧ r.count ≤ 2 ^ 31 - 1 := wrap32_range _
  rw [hnext]
  rcases lt_or_eq_of_le hle with hlt | rfl
  · rw [wrap32_of_lt (by omega) (by omega)]
    omega
  · -- `server_id + 1` wraps around, and the count decides
    have hwrap : wrap32 (2 ^ 31 - 1 + 1) = -2 ^ 31 := by decide
    rw [hwrap]
    rcases lt_or_eq_of_le hcount.2 with hlt | hfull
    · have hroom : wrap32 (r.count + 1) = r.count + 1 := wrap32_of_lt (by omega) (by omega)
      rw [hroom]
      omega
    · rw [hfull, hwrap]
      decide

/-- **A node never gets the identifier it asks for**, if that is below the largest `int`: for the
largest one the counter wraps around. -/
theorem requested_id_assigned_iff (env : ControlEnv) (s : ControlApi) (body : Bytes)
    (hok : Answers 200 (s.handleSelfRegister env body).1)
    (hpos : 0 < (selfRegistrationOf body).serverId)
    (hunused : s.registry.servers[(selfRegistrationOf body).serverId]? = none)
    (hnew : ¬s.registry.Registered (selfRegistrationOf body).host (selfRegistrationOf body).port) :
    Assigned (s.handleSelfRegister env body) (selfRegistrationOf body)
        (selfRegistrationOf body).serverId ↔
      (selfRegistrationOf body).serverId = 2 ^ 31 - 1 ∧ s.registry.count = 2 ^ 31 - 2 := by
  have hle : (selfRegistrationOf body).serverId ≤ 2 ^ 31 - 1 := extractJsonInt_le _ _
  have hcases := handleSelfRegister_cases env s body
  generalize s.handleSelfRegister env body = result at hok hcases ⊢
  generalize selfRegistrationOf body = q at hpos hunused hnew hle hcases ⊢
  rw [← reserveId_nextId hpos hle]
  cases hcases with
  | refused => exact absurd hok not_answers_missingHostOrPort
  | known entry host port => exact absurd ⟨_, _, entry, host, port⟩ hnew
  | @entered i new counter =>
      rw [← counter]
      constructor
      · rintro ⟨-, ⟨e, he, -, -, -⟩, -⟩
        -- the only identifier that is in use now and was not before
        by_contra hne
        rw [Map.get_insert, if_neg (Ne.symm hne), hunused] at he
        cases he
      · rintro rfl
        refine ⟨rfl, ⟨_, by rw [Map.get_insert, if_pos rfl], rfl, rfl, rfl⟩, ?_⟩
        rw [HealthMonitor.registerServer_get]
        cases h : s.health.servers[q.serverId]? with
        | none => simp
        | some r => simp

/-- A third node asks for number 7. -/
theorem requested_id_assigned_third :
    let body := selfRegisterBody 7 (ascii "10.0.0.3") 8080 8180 8280
    ¬Assigned (twoServers.handleSelfRegister (headEvent 2 .checkHealth).env body)
      (selfRegistrationOf body) (selfRegistrationOf body).serverId := by
  intro body
  have hhosts : ∀ p ∈ twoServers.registry.servers.toList,
      p.2.host ≠ (selfRegistrationOf body).host := by
    decide +kernel
  have hnew : ¬twoServers.registry.Registered (selfRegistrationOf body).host
      (selfRegistrationOf body).port := by
    rintro ⟨i, e, he, hhost, -⟩
    exact hhosts (i, e) (Map.mem_toList.mpr he) hhost
  rw [requested_id_assigned_iff _ twoServers body (by decide +kernel) (by decide +kernel)
    (by decide +kernel) hnew]
  decide +kernel

/-- **The first node asks for number 1 and gets number 2.** -/
theorem requested_id_not_assigned :
    let body := selfRegisterBody 1 (ascii "10.0.0.1") 8080 8180 8280
    let result := handleSelfRegister (headEvent 1 .checkHealth).env {} body
    (selfRegistrationOf body).serverId = 1 ∧
      result.1 = makeResponse 200 (ascii "\x7b\"id\":2,\"registered\":true\x7d") ∧
      result.2.registry.servers.toList.map (·.1) = [2] ∧
      result.2.health.servers.toList.map (·.1) = [2] := by
  decide +kernel

end ControlApi

end FileGrid
