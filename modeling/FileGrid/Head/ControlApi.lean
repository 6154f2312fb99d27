import FileGrid.Common.HealthMonitor
import FileGrid.Common.NetUtils

/-!
# The control API of the head server

`dfg::ControlAPI`: one HTTP request, read with a single `recv`, is routed by method and path to a
handler that works on the registry and the health monitor and answers with a JSON text.

Routing is modelled as the source does it, positions included.  A consequence is
`handleRequest_clusterSlash`: **the health route hands its handler an identifier text that begins
with a slash** (or is empty), so every request that reaches it is answered with status 400
whatever the monitor holds.
-/

namespace FileGrid

/-- What a handler reads besides the request: the clock, the stream formatting of a `float`, and
which connections succeed. -/
structure ControlEnv where
  now : Int
  showFloat : ℚ → Bytes
  connects : Bytes → Int → Bool

/-- The state a `ControlAPI` works on. -/
structure ControlApi where
  registry : ServerRegistry := {}
  health : HealthMonitor := {}

/-- `json.find(needle, pos)`. -/
def findFrom (needle s : Bytes) (pos : Nat) : Option Nat :=
  (find needle (s.drop pos)).map (· + pos)

/-- `s.substr(pos, n)`. -/
def substr (s : Bytes) (pos n : Nat) : Bytes := (s.drop pos).take n

namespace ControlApi

/-! ## Responses and JSON fields -/

/-- The reason phrases of `make_response`. -/
def statusText (code : Nat) : Bytes :=
  match code with
  | 200 => ascii "OK"
  | 201 => ascii "Created"
  | 400 => ascii "Bad Request"
  | 404 => ascii "Not Found"
  | _ => ascii "Error"

/-- `make_response`. -/
def makeResponse (code : Nat) (body : Bytes) : Bytes :=
  ascii "HTTP/1.1 " ++ natDec code ++ ascii " " ++ statusText code ++ ascii "\r\n"
    ++ ascii "Content-Type: application/json\r\n"
    ++ ascii "Content-Length: " ++ natDec body.length ++ ascii "\r\n"
    ++ ascii "Connection: close\r\n"
    ++ ascii "\r\n"
    ++ body

/-- `extract_json_string`. -/
def extractJsonString (json : Bytes) (key : String) : Bytes :=
  let value := do
    let pos ← find (ascii "\"" ++ ascii key ++ ascii "\"") json
    let pos ← findFrom (ascii ":") json pos
    let pos ← findFrom (ascii "\"") json pos
    let stop ← findFrom (ascii "\"") json (pos + 1)
    some (substr json (pos + 1) (stop - pos - 1))
  value.getD []

/-- `extract_json_int`. -/
def extractJsonInt (json : Bytes) (key : String) : Int :=
  let value := do
    let pos ← find (ascii "\"" ++ ascii key ++ ascii "\"") json
    let pos ← findFrom (ascii ":") json pos
    stoi ((json.drop (pos + 1)).dropWhile fun c => c = 32 ∨ c = 9)
  value.getD 0

/-- The literals `true` and `false` of JSON. -/
def jsonBool (b : Bool) : Bytes := if b then ascii "true" else ascii "false"

def invalidServerId : Bytes := makeResponse 400 (ascii "\x7b\"error\":\"Invalid server ID\"\x7d")

def serverNotFound : Bytes := makeResponse 404 (ascii "\x7b\"error\":\"Server not found\"\x7d")

def notFound : Bytes := makeResponse 404 (ascii "\x7b\"error\":\"Not found\"\x7d")

def missingHostOrPort : Bytes :=
  makeResponse 400 (ascii "\x7b\"error\":\"Missing host or port\"\x7d")

/-! ## Handlers -/

/-- `handle_server_health`. -/
def handleServerHealth (env : ControlEnv) (s : ControlApi) (idStr : Bytes) : Bytes :=
  match stoi idStr with
  | none => invalidServerId
  | some id =>
      match s.health.servers[id]? with
      | none =>
          makeResponse 404 (ascii "\x7b\"error\":\"Server not found\",\"healthy\":false\x7d")
      | some h =>
          makeResponse 200
            (ascii "\x7b\"id\":" ++ dec id
              ++ ascii ",\"ip\":\"" ++ h.ip ++ ascii "\""
              ++ ascii ",\"healthy\":" ++ jsonBool h.isHealthy
              ++ ascii ",\"missed_heartbeats\":" ++ dec h.missedHeartbeats
              ++ ascii ",\"cpu\":" ++ env.showFloat h.cpuUsage
              ++ ascii ",\"ram\":" ++ env.showFloat h.ramUsage
              ++ ascii ",\"disk\":" ++ env.showFloat h.diskUsage
              ++ ascii "\x7d")

/-- One element of the list `handle_list_servers` prints. -/
def listedServer (env : ControlEnv) (s : ControlApi) (e : ServerEntry) : Bytes :=
  ascii "\x7b\"id\":" ++ dec e.id
    ++ ascii ",\"host\":\"" ++ e.host ++ ascii "\""
    ++ ascii ",\"port\":" ++ dec e.port
    ++ ascii ",\"status\":\"" ++ e.status ++ ascii "\""
    ++ (match s.health.servers[e.id]? with
        | none => []
        | some h =>
            ascii ",\"cpu\":" ++ env.showFloat h.cpuUsage
              ++ ascii ",\"ram\":" ++ env.showFloat h.ramUsage
              ++ ascii ",\"disk\":" ++ env.showFloat h.diskUsage
              ++ ascii ",\"healthy\":" ++ jsonBool h.isHealthy)
    ++ ascii "\x7d"

/-- `handle_list_servers`. -/
def handleListServers (env : ControlEnv) (s : ControlApi) : Bytes :=
  let servers := s.registry.getAll
  makeResponse 200
    (ascii "\x7b\"servers\":["
      ++ (ascii ",").intercalate (servers.map (listedServer env s))
      ++ ascii "],\"total\":" ++ natDec servers.length ++ ascii "\x7d")

/-- `handle_add_server`. -/
def handleAddServer (env : ControlEnv) (s : ControlApi) (body : Bytes) : Bytes × ControlApi :=
  let host := extractJsonString body "host"
  let port := extractJsonInt body "port"
  let transferPort := extractJsonInt body "transfer_port"
  let publicPort := extractJsonInt body "public_port"
  if host = [] ∨ port ≤ 0 then (missingHostOrPort, s)
  else
    let added := s.registry.addServer host port transferPort publicPort
    (makeResponse 201
      (ascii "\x7b\"id\":" ++ dec added.1 ++ ascii ",\"host\":\"" ++ host
        ++ ascii "\",\"port\":" ++ dec port ++ ascii ",\"status\":\"active\"\x7d"),
      { registry := added.2
        health := s.health.registerServer env.now added.1 (addressOf host port) })

/-- `handle_remove_server`. -/
def handleRemoveServer (s : ControlApi) (idStr : Bytes) : Bytes × ControlApi :=
  match stoi idStr with
  | none => (invalidServerId, s)
  | some id =>
      match s.registry.removeServer id with
      | (true, registry) =>
          (makeResponse 200 (ascii "\x7b\"removed\":true,\"id\":" ++ dec id ++ ascii "\x7d"),
            { registry, health := s.health.deregisterServer id })
      | (false, _) => (serverNotFound, s)

/-- The counter before `handle_self_register` adds the server: a positive identifier in the
request moves it, in either direction. -/
def reserveId (r : ServerRegistry) (serverId : Int) : ServerRegistry :=
  if 0 < serverId then r.setNextId (max (wrap32 (serverId + 1)) (wrap32 (r.count + 1))) else r

/-- `handle_self_register`. -/
def handleSelfRegister (env : ControlEnv) (s : ControlApi) (body : Bytes) : Bytes × ControlApi :=
  let serverId := extractJsonInt body "server_id"
  let host := extractJsonString body "host"
  let port := extractJsonInt body "port"
  let transferPort := extractJsonInt body "transfer_port"
  let publicPort := extractJsonInt body "public_port"
  if host = [] ∨ port ≤ 0 then (missingHostOrPort, s)
  else
    let added := (reserveId s.registry serverId).addServer host port transferPort publicPort
    (makeResponse 200 (ascii "\x7b\"id\":" ++ dec added.1 ++ ascii ",\"registered\":true\x7d"),
      { registry := added.2
        health := s.health.registerServer env.now added.1 (addressOf host port) })

/-- `handle_status`. -/
def handleStatus (s : ControlApi) : Bytes :=
  let healthy := s.health.healthyCount
  let unhealthy := s.health.getAllHealth.length - healthy
  makeResponse 200
    (ascii "\x7b\"total_servers\":" ++ natDec s.registry.getAll.length
      ++ ascii ",\"healthy\":" ++ natDec healthy
      ++ ascii ",\"unhealthy\":" ++ natDec unhealthy
      ++ ascii ",\"status\":\"" ++ (if unhealthy = 0 then ascii "OK" else ascii "DEGRADED")
      ++ ascii "\"" ++ ascii "\x7d")

/-- `handle_restart_cluster_node`: the answer; the node restarts on its own. -/
def handleRestartClusterNode (env : ControlEnv) (s : ControlApi) (idStr : Bytes) : Bytes :=
  match stoi idStr with
  | none => invalidServerId
  | some id =>
      match s.registry.getAll.find? (·.id = id) with
      | none => serverNotFound
      | some e =>
          if env.connects e.host e.port then
            makeResponse 200 (ascii "\x7b\"restarted_cluster_id\":" ++ dec id ++ ascii "\x7d")
          else
            makeResponse 500 (ascii "\x7b\"error\":\"Could not connect to cluster server\"\x7d")

/-- `handle_restart_all`: the answer. -/
def handleRestartAll (env : ControlEnv) (s : ControlApi) : Bytes :=
  let restarted := (s.registry.getAll.filter fun e => env.connects e.host e.port).length
  makeResponse 200
    (ascii "\x7b\"restarted_clusters\":" ++ natDec restarted
      ++ ascii ",\"head_server_restarting\":true\x7d")

/-- `handle_restart_head`: the answer. -/
def handleRestartHead : Bytes := makeResponse 200 (ascii "\x7b\"head_server_restarting\":true\x7d")

/-! ## Routing -/

def clusterPath : Bytes := ascii "/api/v1/servers/cluster"

def clusterSlash : Bytes := ascii "/api/v1/servers/cluster/"

/-- The identifier text of the health route: `path.substr(23, end - 23)`. -/
def healthIdText (path : Bytes) (stop : Nat) : Bytes := substr path 23 (stop - 23)

/-- The identifier text of the restart route: `path.substr(24, end - 24)`. -/
def restartIdText (path : Bytes) : Bytes :=
  match findFrom (ascii "/restart") path 24 with
  | some stop => substr path 24 (stop - 24)
  | none => path.drop 24

/-- `handle_request`: the answer, and the state afterwards.  The request is what one `recv` into
the 4096-byte buffer delivers; if that is nothing, nothing is answered. -/
def handleRequest (env : ControlEnv) (s : ControlApi) (received : Bytes) : Bytes × ControlApi :=
  if received = [] then ([], s) else
  let request := received.take 4095
  let (method, rest) := (readWord request).getD ([], [])
  let (path, _) := (readWord rest).getD ([], [])
  let body := match find (ascii "\r\n\r\n") request with
    | some start => request.drop (start + 4)
    | none => []
  if method = ascii "GET" ∧ path = clusterPath then (handleListServers env s, s)
  else if method = ascii "GET" ∧ find clusterSlash path = some 0 ∧
      (find (ascii "/health") path).isSome then
    (handleServerHealth env s (healthIdText path ((find (ascii "/health") path).getD 0)), s)
  else if method = ascii "POST" ∧ path = clusterPath then handleAddServer env s body
  else if method = ascii "DELETE" ∧ find clusterSlash path = some 0 then
    handleRemoveServer s (path.drop 23)
  else if method = ascii "GET" ∧ path = ascii "/api/v1/status" then (handleStatus s, s)
  else if method = ascii "POST" ∧ path = ascii "/api/v1/system/restart_all" then
    (handleRestartAll env s, s)
  else if method = ascii "POST" ∧ path = ascii "/api/v1/system/restart_head" then
    (handleRestartHead, s)
  else if method = ascii "POST" ∧ find clusterSlash path = some 0 ∧
      (find (ascii "/restart") path).isSome then
    (handleRestartClusterNode env s (restartIdText path), s)
  else if method = ascii "POST" ∧ path = ascii "/api/v1/servers/cluster/register" then
    handleSelfRegister env s body
  else (notFound, s)

/-- The method and the path of a request below `/api/v1/servers/cluster/`; the buffer is longer
than the fixed part of it. -/
lemma readWord_clusterSlash {method : Bytes} (hword : Word method) (hlen : method.length ≤ 8)
    (t : Bytes) : ∃ rest u v,
      readWord ((method ++ 32 :: (clusterSlash ++ t)).take 4095) = some (method, rest) ∧
        readWord rest = some (clusterSlash ++ u, v) := by
  obtain ⟨k, hk⟩ : ∃ k, 4095 - method.length = k + 1 + clusterSlash.length := by
    have hslash : clusterSlash.length = 24 := rfl
    exact ⟨4095 - method.length - 25, by omega⟩
  have hbuf : (method ++ 32 :: (clusterSlash ++ t)).take 4095 =
      method ++ 32 :: (clusterSlash ++ t.take k) := by
    rw [List.take_append, List.take_of_length_le (by omega), hk, Nat.add_right_comm,
      List.take_succ_cons, List.take_append, List.take_of_length_le (by omega), Nat.add_sub_cancel]
  rw [hbuf]
  exact ⟨_, _, _, readWord_append hword (stops_cons _ rfl),
    (readWord_space _ rfl).trans (readWord_append_takeWhile (by decide) _)⟩

/-! ## The health route -/

lemma stoi_slash (t : Bytes) : stoi (47 :: t) = none := by
  rw [stoi, readI32, readInt_none_of_head _ rfl (by decide) (by decide) rfl]
  rfl

/-- The health route cuts the identifier out of the path one byte early: the text begins with the
slash before it, or is empty, and is no number. -/
lemma stoi_healthIdText (t : Bytes) (stop : Nat) :
    stoi (healthIdText (clusterSlash ++ t) stop) = none := by
  have hdrop : (clusterSlash ++ t).drop 23 = 47 :: t := rfl
  simp only [healthIdText, substr, hdrop]
  cases stop - 23 with
  | zero => rfl
  | succ k => exact stoi_slash _

/-- **A `GET` below `/api/v1/servers/cluster/` is answered with status 400 or 404**, whatever the
monitor holds. -/
theorem handleRequest_clusterSlash (env : ControlEnv) (s : ControlApi) (t : Bytes) :
    (s.handleRequest env (ascii "GET " ++ clusterSlash ++ t)).1 = invalidServerId ∨
      (s.handleRequest env (ascii "GET " ++ clusterSlash ++ t)).1 = notFound := by
  have hrequest : ascii "GET " ++ clusterSlash ++ t = ascii "GET" ++ 32 :: (clusterSlash ++ t) := by
    rw [List.append_assoc]
    rfl
  rw [hrequest]
  obtain ⟨rest, u, v, hmethod, hpath⟩ := readWord_clusterSlash
    (show Word (ascii "GET") by decide) (by decide) t
  have hlen : 24 ≤ (clusterSlash ++ u).length := by
    rw [List.length_append]
    exact Nat.le_add_right 24 _
  have hlist : ¬ (clusterSlash ++ u = clusterPath) := fun h =>
    absurd (h ▸ hlen) (by decide)
  have hstatus : ¬ (clusterSlash ++ u = ascii "/api/v1/status") := fun h =>
    absurd (h ▸ hlen) (by decide)
  have hslash : find clusterSlash (clusterSlash ++ u) = some 0 :=
    find_self_append (by decide) u
  have hpost : ¬ (ascii "GET" = ascii "POST") := by decide
  have hdelete : ¬ (ascii "GET" = ascii "DELETE") := by decide
  simp only [handleRequest, hmethod, hpath, Option.getD_some, hlist, hstatus, hslash, hpost,
    hdelete, and_false, false_and, if_false, true_and, List.append_eq_nil_iff, reduceCtorEq]
  split_ifs
  · left
    simp only [handleServerHealth, stoi_healthIdText]
  · exact Or.inr rfl

end ControlApi

end FileGrid
