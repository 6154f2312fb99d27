import FileGrid.Common.NetUtils
import FileGrid.Failover.Rereplicate
import FileGrid.Head.Upload
import FileGrid.Storage.ChunkStorage

/-!
# The head server and its storage nodes

How the head reaches a node, and the three requests it makes of one: store a chunk
(`send_chunk_to_server`, `repair_chunk_on_server`), read one (`read_chunk_from_server`) and ask for
the hash of one (`get_chunk_hash`).

The network is a `Network`: which node listens at which address and port, and what the name service
answers.  A request may fail to arrive, and its reply may be lost (`Link`); a message of 2 GiB or
more is sent as an empty one, because protobuf refuses to serialise it and the return value is not
looked at.

`request` is the common part of every request, and `request_cases` says all it can do to the nodes:
nothing, or one node handles it.
-/

namespace FileGrid

/-! ## The network -/

/-- The nodes of a grid, by number. -/
abbrev Nodes := Nat → Node

/-- Who listens where.  Every node has a port for transfers, a public one and a base port. -/
structure Network where
  gethostbyname : Bytes → Option (List Nat) := fun _ => none
  transferAt : List Nat → Nat → Option Nat
  publicAt : List Nat → Nat → Option Nat
  baseAt : List Nat → Nat → Option Nat

/-- The port a socket is given: sixteen bits of an `int`. -/
def htons (port : Int) : Nat := (port % 2 ^ 16).toNat

/-- The address `connect_with_timeout` connects to. -/
def Network.resolve (net : Network) (host : Bytes) : Option (List Nat) :=
  match inetPton host with
  | some ip => some ip
  | none => net.gethostbyname host

/-- A grid as it is set up: the network, the registry of the head and its configuration. -/
structure Deployment where
  net : Network
  registry : ServerRegistry
  configured : List Bytes := []
  replicationFactor : Int := 3
  chunkSize : Nat := 64 * 1024 * 1024

namespace Deployment

/-- The first registry entry with this address. -/
def entryOf (d : Deployment) (server : Bytes) : Option ServerEntry :=
  d.registry.getAll.find? (·.address = server)

def transferPort (d : Deployment) (server : Bytes) : Int :=
  match d.entryOf server with
  | some s => if 0 < s.transferPort then s.transferPort else 8180
  | none => 8180

/-- The node a connection to the transfer port of a server reaches. -/
def transferNode (d : Deployment) (server : Bytes) : Option Nat :=
  (d.net.resolve (parseAddress server).1).bind fun ip =>
    d.net.transferAt ip (htons (d.transferPort server))

/-- The node a connection to the base port of a server reaches. -/
def baseNode (d : Deployment) (server : Bytes) : Option Nat :=
  (d.net.resolve (parseAddress server).1).bind fun ip =>
    d.net.baseAt ip (htons (parseAddress server).2)

end Deployment

/-! ## Requests -/

/-- What the network does to a request: nothing, it does not arrive, or its reply is lost. -/
inductive Link
  | up
  | down
  | replyLost
deriving DecidableEq

/-- A request that `handle` answers on the node it reaches, if that node is running. -/
def request {β : Type} (nodes : Nodes) (target : Option Nat) (link : Link)
    (handle : Node → Node × β) : Nodes × Option β :=
  match target with
  | none => (nodes, none)
  | some n =>
      if link = .down ∨ (nodes n).running = false then (nodes, none)
      else
        (Function.update nodes n (handle (nodes n)).1,
          if link = .replyLost then none else some (handle (nodes n)).2)

/-- **All a request can do**: it has no effect, or its node handles it. -/
theorem request_cases {β : Type} (nodes : Nodes) (target : Option Nat) (link : Link)
    (handle : Node → Node × β) :
    request nodes target link handle = (nodes, none) ∨
      ∃ n, target = some n ∧ (nodes n).running = true ∧
        (request nodes target link handle).1 = Function.update nodes n (handle (nodes n)).1 ∧
        ((request nodes target link handle).2 = none ∨
          (request nodes target link handle).2 = some (handle (nodes n)).2) := by
  cases target with
  | none => exact Or.inl rfl
  | some n =>
      by_cases h : link = .down ∨ (nodes n).running = false
      · exact Or.inl (if_pos h)
      · have hrun : (nodes n).running = true := by simpa using fun hf => h (Or.inr hf)
        refine Or.inr ⟨n, rfl, hrun, ?_⟩
        simp only [request, if_neg h]
        refine ⟨trivial, ?_⟩
        by_cases hlost : link = .replyLost
        · exact Or.inl (if_pos hlost)
        · exact Or.inr (if_neg hlost)

lemma request_up {β : Type} {nodes : Nodes} {target : Option Nat} {n : Nat} (hn : target = some n)
    (hrun : (nodes n).running = true) (handle : Node → Node × β) :
    request nodes target .up handle =
      (Function.update nodes n (handle (nodes n)).1, some (handle (nodes n)).2) := by
  subst hn
  simp [request, hrun]

/-! ## Messages -/

/-- The bytes of a length in a protobuf message. -/
def varintSize (n : Nat) : Nat := n.log2 / 7 + 1

/-- A string or bytes field; an empty one is not sent. -/
def fieldSize (s : Bytes) : Nat := if s = [] then 0 else 1 + varintSize s.length + s.length

/-- `file_transfer.v1.ChunkData`. -/
structure ChunkData where
  chunkId : Bytes := []
  filename : Bytes := []
  data : Bytes := []
deriving DecidableEq

def ChunkData.byteSize (msg : ChunkData) : Nat :=
  fieldSize msg.chunkId + fieldSize msg.filename + fieldSize msg.data

/-- The message as it arrives: what cannot be serialised arrives as the empty message. -/
def ChunkData.delivered (msg : ChunkData) : ChunkData :=
  if msg.byteSize < 2 ^ 31 then msg else {}

/-- The data of a `FetchChunkResponse` as it arrives; the flag `success` takes two bytes. -/
def deliveredData (chunkId data : Bytes) : Bytes :=
  if 2 + fieldSize chunkId + fieldSize data < 2 ^ 31 then data else []

section

variable (d : Deployment) (nodes : Nodes)

/-- The message a chunk is stored by. -/
def chunkMessage (filename : Bytes) (chunkId : Int) (data : Bytes) : ChunkData :=
  ChunkData.delivered { chunkId := chunkKey filename chunkId, filename, data }

/-- `send_chunk_to_server` and `repair_chunk_on_server`: the path of the new replica, if the node
reports success. -/
def sendChunkToServer (link : Link) (fault : StoreFault) (epochUs : Int) (server filename : Bytes)
    (chunkId : Int) (data : Bytes) : Nodes × Option Bytes :=
  let msg := chunkMessage filename chunkId data
  let (nodes, response) := request nodes (d.transferNode server) link fun node =>
    node.storeChunk fault epochUs msg.chunkId msg.data
  (nodes, response.join)

/-- `read_chunk_from_server`; the empty string is a failure. -/
def readChunkFromServer (link : Link) (server filename : Bytes) (chunkId : Int) (filePath : Bytes) :
    Nodes × Bytes :=
  let key := chunkKey filename chunkId
  let (nodes, response) := request nodes (d.transferNode server) link fun node =>
    node.retrieveChunk key filePath
  (nodes, deliveredData key (response.getD []))

/-- `get_chunk_hash`: the hash, if the node has the chunk. -/
def getChunkHash (link : Link) (server filename : Bytes) (chunkId : Int) (filePath : Bytes) :
    Nodes × Option Bytes :=
  let (nodes, response) := request nodes (d.transferNode server) link fun node =>
    node.retrieveChunk (chunkKey filename chunkId) filePath
  (nodes, response.bind fun data => if data ≠ [] then some (sha256 data) else none)

/-- How the two requests of one copy go. -/
structure CopyEnv where
  readLink : Link := .up
  writeLink : Link := .up
  fault : StoreFault := .none
  epochUs : Int := 0

/-- `replicate_chunk_to_server`.  Its parameter for the chunk is an `int`. -/
def replicateChunkToServer (env : CopyEnv) (job : Job) : Nodes × Option Bytes :=
  let chunkId := wrap32 job.chunkId
  let (nodes, chunkData) :=
    readChunkFromServer d nodes env.readLink job.source job.filename chunkId job.sourcePath
  if chunkData = [] then (nodes, none)
  else
    sendChunkToServer d nodes env.writeLink env.fault env.epochUs job.target job.filename chunkId
      chunkData

end

/-- The copies of a failover over the nodes; the copies are numbered. -/
def gridCopy (d : Deployment) (env : Nat → CopyEnv) (s : Nat × Nodes) (job : Job) :
    (Nat × Nodes) × Option Bytes :=
  let (nodes, path) := replicateChunkToServer d s.2 (env s.1) job
  ((s.1 + 1, nodes), path)

/-- How the transfers of an upload go: their order, and for each the link, the disk and the
clock. -/
structure TransferEnv where
  schedule : Schedule := .inOrder
  link : Nat → Link := fun _ => .up
  fault : Nat → StoreFault := fun _ => .none
  epochUs : Nat → Int := fun _ => 0

/-- The pending transfers of an upload, over the nodes. -/
def gridTransfers (d : Deployment) (env : TransferEnv) (nodes : Nodes) (filename : Bytes)
    (pending : List Transfer) : Nodes × List (Option Bytes) :=
  runPool (fun nodes i (t : Transfer) =>
    sendChunkToServer d nodes (env.link i) (env.fault i) (env.epochUs i) t.server filename t.chunkId
      t.data) env.schedule pending nodes

lemma gridTransfers_rule (d : Deployment) (env : TransferEnv) (nodes : Nodes) (filename : Bytes)
    (pending : List Transfer) (inv : Nodes → Prop)
    (post : Nodes → Nat → Transfer → Option Bytes → Prop) (hs : inv nodes)
    (hinv : ∀ nodes i t, pending[i]? = some t → inv nodes →
      inv (sendChunkToServer d nodes (env.link i) (env.fault i) (env.epochUs i) t.server filename
        t.chunkId t.data).1 ∧
      post (sendChunkToServer d nodes (env.link i) (env.fault i) (env.epochUs i) t.server filename
        t.chunkId t.data).1 i t (sendChunkToServer d nodes (env.link i) (env.fault i)
          (env.epochUs i) t.server filename t.chunkId t.data).2)
    (hpost : ∀ nodes i t j t' outcome, pending[i]? = some t → pending[j]? = some t' → i ≠ j →
      inv nodes → post nodes j t' outcome →
      post (sendChunkToServer d nodes (env.link i) (env.fault i) (env.epochUs i) t.server filename
        t.chunkId t.data).1 j t' outcome) :
    inv (gridTransfers d env nodes filename pending).1 ∧
      ∀ i t, pending[i]? = some t → ∃ outcome,
        (gridTransfers d env nodes filename pending).2[i]? = some outcome ∧
          post (gridTransfers d env nodes filename pending).1 i t outcome :=
  runPool_rule inv post hs hinv hpost

/-! ## What reaches the node is what was sent -/

lemma chunkMessage_of_small {filename data : Bytes} {chunkId : Int}
    (h : ChunkData.byteSize { chunkId := chunkKey filename chunkId, filename, data } < 2 ^ 31) :
    chunkMessage filename chunkId data = { chunkId := chunkKey filename chunkId, filename, data } :=
  if_pos h

lemma chunkMessage_chunkId (filename data : Bytes) (chunkId : Int) :
    (chunkMessage filename chunkId data).chunkId = chunkKey filename chunkId ∨
      (chunkMessage filename chunkId data).chunkId = [] := by
  unfold chunkMessage ChunkData.delivered
  split_ifs
  · exact Or.inl rfl
  · exact Or.inr rfl

/-- What a store on a node does to the nodes: nothing, or the node of the server stores the
message; and a path is only reported if the store reported it. -/
lemma sendChunkToServer_cases (d : Deployment) (nodes : Nodes) (link : Link) (fault : StoreFault)
    (us : Int) (server filename : Bytes) (c : Int) (data : Bytes) :
    sendChunkToServer d nodes link fault us server filename c data = (nodes, none) ∨
      ∃ n, d.transferNode server = some n ∧ (nodes n).running = true ∧
        (sendChunkToServer d nodes link fault us server filename c data).1 =
          Function.update nodes n ((nodes n).storeChunk fault us
            (chunkMessage filename c data).chunkId (chunkMessage filename c data).data).1 ∧
        ∀ path, (sendChunkToServer d nodes link fault us server filename c data).2 = some path →
          ((nodes n).storeChunk fault us (chunkMessage filename c data).chunkId
            (chunkMessage filename c data).data).2 = some path := by
  unfold sendChunkToServer
  dsimp only
  rcases request_cases nodes (d.transferNode server) link fun node =>
      node.storeChunk fault us (chunkMessage filename c data).chunkId
        (chunkMessage filename c data).data with h | ⟨n, hn, hrun, hnodes, hresp⟩
  · rw [h]
    exact Or.inl rfl
  · refine Or.inr ⟨n, hn, hrun, hnodes, ?_⟩
    intro path hpath
    rcases hresp with hresp | hresp
    · rw [hresp] at hpath
      cases hpath
    · rw [hresp] at hpath
      exact hpath

lemma running_sendChunk (d : Deployment) (nodes : Nodes) (link : Link) (fault : StoreFault)
    (us : Int) (server f : Bytes) (c : Int) (data : Bytes) (n : Nat) :
    ((sendChunkToServer d nodes link fault us server f c data).1 n).running =
      (nodes n).running := by
  rcases sendChunkToServer_cases d nodes link fault us server f c data with
    heq | ⟨k, -, -, heq, -⟩
  · rw [heq]
  · rw [heq]
    rcases eq_or_ne n k with rfl | hne
    · rw [Function.update_self, Node.running_storeChunk]
    · rw [Function.update_of_ne hne]

/-- What does not arrive has no effect. -/
lemma sendChunkToServer_down (d : Deployment) (nodes : Nodes) (fault : StoreFault) (us : Int)
    (server filename : Bytes) (c : Int) (data : Bytes) :
    sendChunkToServer d nodes .down fault us server filename c data = (nodes, none) := by
  unfold sendChunkToServer request
  cases d.transferNode server <;> simp

end FileGrid
