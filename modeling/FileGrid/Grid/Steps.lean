import Mathlib.Data.List.DropRight
import FileGrid.Core.Runs
import FileGrid.Head.Download

/-!
# The grid as a whole

The state of a grid is the state of its storage nodes and the metadata of the head, and `gridStep`
is what can happen to it: a client sends the head a request, a node crashes or restarts, or the
head fails a server over.  Requests are taken apart as `client_listener_thread` does, and each of
them is handled to its end before the next step.

Everything outside the grid that a step depends on comes with the step: what the client sends, how
each link and each disk behaves, what the clocks and the health monitor say.
-/

namespace FileGrid

/-! ## Client requests -/

inductive ClientRequest
  | download (filename : Bytes)
  | delete (filename : Bytes)
  | upload (initialReq : Bytes)
  | list
  | unknown
deriving DecidableEq

/-- The dispatch of `client_listener_thread`, on what one `recv` of at most 1023 bytes delivers; the
request ends at the first NUL. -/
def clientRequest (received : Bytes) : ClientRequest :=
  let req := (received.take 1023).takeWhile (· ≠ 0)
  let isEol (b : UInt8) : Bool := b = 10 ∨ b = 13
  if ascii "DOWNLOAD " <+: req then .download ((req.drop 9).rdropWhile isEol)
  else if ascii "DELETE " <+: req then
    .delete ((req.drop 7).rdropWhile fun b => b = 32 ∨ b = 10 ∨ b = 13 ∨ b = 9)
  else if ascii "UPLOAD " <+: req then .upload (req.rdropWhile isEol)
  else if ascii "LIST" <+: req then .list
  else .unknown

/-- How the `DELETE_CHUNK` messages of a delete go; `arrived` is how many bytes of one there are
when its node reads. -/
structure DeleteEnv where
  link : Nat → Link := fun _ => .up
  arrived : Nat → Nat := fun _ => 1023
  removes : Nat → Bool := fun _ => true

/-- The message that deletes a chunk. -/
def deleteMessage (filename : Bytes) (chunkId : Int) : Bytes :=
  ascii "DELETE_CHUNK " ++ chunkKey filename chunkId ++ ascii "\n"

/-- What a node reads of a message: it does not wait for it, and calls `recv` once, with room for
1023 bytes. -/
def DeleteEnv.read (env : DeleteEnv) (i : Nat) (msg : Bytes) : Bytes :=
  msg.take (min 1023 (env.arrived i))

/-- The loop of `handle_client_delete` over the locations, with their number: whether every node
answered `SUCCESS`. -/
def deleteChunks (d : Deployment) (env : DeleteEnv) (filename : Bytes) :
    Nat → List ChunkLocation → Nodes → Nodes × Bool
  | _, [], nodes => (nodes, true)
  | i, loc :: locs, nodes =>
      let (nodes, response) := request nodes (d.baseNode loc.serverIp) (env.link i) fun node =>
        -- a node that finds nothing to read closes the connection, as it does for other messages
        node.emergencyMessage (env.removes i) (env.read i (deleteMessage filename loc.chunkId))
      let deleted := (response.join.bind (find (ascii "SUCCESS"))).isSome
      let (nodes, rest) := deleteChunks d env filename (i + 1) locs nodes
      (nodes, deleted && rest)

/-- `handle_client_delete`. -/
def handleClientDelete (d : Deployment) (env : DeleteEnv) (nodes : Nodes) (m : MetadataMap)
    (filename : Bytes) : Nodes × MetadataMap × Bytes :=
  let locations := (getChunkLocations m filename).1
  if locations = [] then (nodes, m, ascii "ERROR: File not found\n")
  else
    let (nodes, allDeleted) := deleteChunks d env filename 0 locations nodes
    if allDeleted then (nodes, m.deleteEntry filename, ascii "SUCCESS\n")
    else (nodes, m, ascii "ERROR: Could not delete chunks\n")

/-! ## Steps -/

structure Grid where
  nodes : Nodes
  metadata : MetadataMap

/-- What a request meets with. -/
structure RequestEnv where
  health : HealthMonitor := {}
  sort : StdSort Bytes := .insertion Bytes
  transfers : TransferEnv := {}
  download : DownloadEnv := {}
  delete : DeleteEnv := {}

/-- What an upload to this deployment depends on. -/
def Deployment.uploadEnv (d : Deployment) (env : RequestEnv) : UploadEnv where
  registry := d.registry
  health := env.health
  configured := d.configured
  replicationFactor := d.replicationFactor
  chunkSize := d.chunkSize
  sort := env.sort

/-- An upload to the grid. -/
def gridUpload (d : Deployment) (env : RequestEnv) (g : Grid) (initialReq stream : Bytes) :
    Grid × UploadEnd :=
  let (nodes, metadata, ended) := handleClientUpload (gridTransfers d env.transfers)
    (d.uploadEnv env) g.nodes g.metadata initialReq stream
  ({ nodes, metadata }, ended)

/-- A connection of a client, and what the client sends after its first request. -/
def serveClient (d : Deployment) (env : RequestEnv) (g : Grid) (received stream : Bytes) : Grid :=
  match clientRequest received with
  | .download filename =>
      { g with nodes := (streamFileToClient d env.download g.nodes g.metadata filename).1 }
  | .delete filename =>
      let (nodes, metadata, _) := handleClientDelete d env.delete g.nodes g.metadata filename
      { nodes, metadata }
  | .upload initialReq => (gridUpload d env g initialReq stream).1
  | .list => g
  | .unknown => g

/-- The failover of a server: `rereplicate_dead_server_chunks`. -/
def gridFailover (d : Deployment) (env : Nat → CopyEnv) (health : HealthMonitor) (dead : Bytes)
    (g : Grid) : Grid :=
  let (s, metadata) := rereplicateDeadServerChunks (gridCopy d env) d.registry health dead
    (0, g.nodes) g.metadata
  { nodes := s.2, metadata }

inductive GridOp
  | client (env : RequestEnv) (received stream : Bytes)
  | crash (n : Nat)
  | restart (n : Nat)
  | failover (env : Nat → CopyEnv) (health : HealthMonitor) (dead : Bytes)

def gridStep (d : Deployment) (g : Grid) : GridOp → Grid
  | .client env received stream => serveClient d env g received stream
  | .crash n => { g with nodes := Function.update g.nodes n (g.nodes n).crash }
  | .restart n => { g with nodes := Function.update g.nodes n (g.nodes n).restart }
  | .failover env health dead => gridFailover d env health dead g

def gridRun (d : Deployment) (g : Grid) (ops : List GridOp) : Grid := ops.foldl (gridStep d) g

/-- The request is about this file. -/
def ActsOn (d : Deployment) (received f : Bytes) : Prop :=
  match clientRequest received with
  | .download filename => filename = f
  | .delete filename => filename = f
  | .upload initialReq =>
      ∃ r, parseUploadRequest d.chunkSize initialReq = .ok r ∧ r.filename = f
  | .list => False
  | .unknown => False

/-- The request kills the head: a number in it is no number, or the chunk size is zero. -/
def CrashesHead (d : Deployment) (received : Bytes) : Prop :=
  ∃ initialReq, clientRequest received = .upload initialReq ∧
    parseUploadRequest d.chunkSize initialReq = .error .crashed

/-- The chunk that a message is about: the word behind byte 13. -/
def messageKey (msg : Bytes) : Bytes := ((readWord (msg.drop 13)).map (·.1)).getD []

/-- A delete of another file of whose messages a node may read so little that it takes one for a
message about a chunk of this file. -/
def MistakenFor (env : DeleteEnv) (received f : Bytes) : Prop :=
  ∃ f', clientRequest received = .delete f' ∧ ∃ i c c', env.arrived i < 1023 ∧
    messageKey (env.read i (deleteMessage f' c')) = chunkKey f c

/-- The step is none of the file's: a request about another file that the head survives and that no
node takes for one about this file, or no request. -/
def GridOp.Other (d : Deployment) (f : Bytes) : GridOp → Prop
  | .client env received _ =>
      ¬ (ActsOn d received f ∨ MistakenFor env.delete received f) ∧ ¬ CrashesHead d received
  | .crash _ => True
  | .restart _ => True
  | .failover _ _ _ => True

end FileGrid
