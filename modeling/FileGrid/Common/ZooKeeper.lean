import FileGrid.Core.Bytes
import FileGrid.Core.Map

/-!
# The coordination store

`ZooKeeperClient` keeps a tree of nodes in a table of the process, by normalised path, together with
the counters that number sequential nodes; `connect` always succeeds.  What a call does under the
lock of the store is one function here (`ZnodeStore.createNode`, `deleteNode`, `setNodeData`); the
check that the client is connected comes before it, under another lock, and is not part of it.

A node lists the names of its children, and a child is found from its path by the position of the
last slash (`parentPath`, `childName`): the tree is stored twice, and every change has to keep both.
-/

namespace FileGrid

/-- A node of the tree: its data, and its children in the order of `std::set`. -/
structure ZNode where
  data : Bytes := []
  ephemeral : Bool := false
  version : Int := 0
  children : List Bytes := []

/-- The table of nodes, by normalised path. -/
abbrev ZooKeeper := Map Bytes ZNode

/-- `while (path.size() > 1 && path.back() == '/') path.pop_back();` -/
def dropTrailingSlashes (path : Bytes) : Bytes :=
  match (path.reverse.dropWhile (· = 47)).reverse with
  | [] => path.take 1
  | trimmed => trimmed

/-- `normalize_path`. -/
def normalizePath (raw : Bytes) : Bytes :=
  match raw with
  | [] => ascii "/"
  | c :: _ => dropTrailingSlashes (if c ≠ 47 then 47 :: raw else raw)

/-- `s.find_last_of(c)`. -/
def findLastOf (c : UInt8) : Bytes → Option Nat
  | [] => none
  | b :: s =>
      match findLastOf c s with
      | some pos => some (pos + 1)
      | none => if b = c then some 0 else none

/-- `parent_path`. -/
def parentPath (path : Bytes) : Bytes :=
  if path = ascii "/" then []
  else
    match findLastOf 47 path with
    | some 0 => ascii "/"
    | some pos => path.take pos
    | none => path

/-- `child_name`. -/
def childName (path : Bytes) : Bytes :=
  if path = ascii "/" then ascii "/"
  else
    match findLastOf 47 path with
    | some pos => path.drop (pos + 1)
    | none => path

namespace ZNode

/-- `children.insert(name)`. -/
def insertChild (node : ZNode) (name : Bytes) : ZNode :=
  if node.children.contains name then node
  else { node with children := node.children.orderedInsert (compare · · ≠ .gt) name }

/-- `children.erase(name)`. -/
def eraseChild (node : ZNode) (name : Bytes) : ZNode :=
  { node with children := node.children.filter (· ≠ name) }

end ZNode

/-- What the calls return. -/
inductive ZCode
  | ok
  | nodeExists
  | noNode
  | invalidState
deriving DecidableEq

namespace ZooKeeper

/-- `nodes[path]`, which creates a missing node, with an update in place. -/
def update (zk : ZooKeeper) (path : Bytes) (f : ZNode → ZNode) : ZooKeeper :=
  zk.insert path (f (zk[path]?.getD {}))

/-- `ensure_parent_exists`. -/
def ensureParentExists (zk : ZooKeeper) (parent : Bytes) : Bool :=
  parent = [] || (zk[parent]?).isSome

/-- `create_node`, once the path of the node is known. -/
def createAt (zk : ZooKeeper) (actualPath data : Bytes) (ephemeral : Bool) : ZCode × ZooKeeper :=
  if (zk[actualPath]?).isSome then (.nodeExists, zk)
  else
    let parent := parentPath actualPath
    if parent ≠ [] ∧ ensureParentExists zk parent = false then (.noNode, zk)
    else
      let zk := zk.insert actualPath { data, ephemeral }
      (.ok, if parent ≠ [] then update zk parent (·.insertChild (childName actualPath)) else zk)

/-- `delete_node`, under the lock. -/
def deleteNode (zk : ZooKeeper) (path : Bytes) : ZCode × ZooKeeper :=
  let normalized := normalizePath path
  match zk[normalized]? with
  | none => (.noNode, zk)
  | some node =>
      if node.children ≠ [] then (.invalidState, zk)
      else
        let parent := parentPath normalized
        let zk :=
          if parent ≠ [] then update zk parent (·.eraseChild (childName normalized)) else zk
        (.ok, zk.erase normalized)

/-- `set_node_data`, under the lock. -/
def setNodeData (zk : ZooKeeper) (path data : Bytes) : ZCode × ZooKeeper :=
  let normalized := normalizePath path
  match zk[normalized]? with
  | none => (.noNode, zk)
  | some node => (.ok, zk.insert normalized { node with data, version := node.version + 1 })

/-- `node_exists`. -/
def nodeExists (zk : ZooKeeper) (path : Bytes) : Bool := (zk[normalizePath path]?).isSome

/-- `get_node_data`. -/
def getNodeData (zk : ZooKeeper) (path : Bytes) : Bytes :=
  match zk[normalizePath path]? with
  | some node => node.data
  | none => []

/-- `get_children`. -/
def getChildren (zk : ZooKeeper) (path : Bytes) : List Bytes :=
  match zk[normalizePath path]? with
  | some node => node.children
  | none => []

end ZooKeeper

/-- The store: the nodes, of which the root is there from the start, and the sequence counters. -/
structure ZnodeStore where
  nodes : ZooKeeper := (∅ : ZooKeeper).insert (ascii "/") {}
  sequenceCounters : Map Bytes Nat := ∅

/-- `'_' << std::setw(10) << std::setfill('0') << seq`. -/
def sequenceSuffix (seq : Nat) : Bytes :=
  ascii "_" ++ (List.replicate (10 - (natDec seq).length) 48 ++ natDec seq)

/-- A call that changes the store. -/
inductive ZnodeCall
  | create (path data : Bytes) (ephemeral sequence : Bool)
  | delete (path : Bytes)
  | setData (path data : Bytes)
deriving DecidableEq

namespace ZnodeStore

/-- The value of `++sequence_counters()[normalized]`. -/
def nextSequence (store : ZnodeStore) (normalized : Bytes) : Nat :=
  store.sequenceCounters[normalized]?.getD 0 + 1

/-- The path a created node gets. -/
def actualPath (store : ZnodeStore) (path : Bytes) (sequence : Bool) : Bytes :=
  let normalized := normalizePath path
  if sequence then normalized ++ sequenceSuffix (store.nextSequence normalized) else normalized

/-- `create_node`, under the lock. -/
def createNode (store : ZnodeStore) (path data : Bytes) (ephemeral sequence : Bool) :
    ZCode × ZnodeStore :=
  let normalized := normalizePath path
  let (code, nodes) := store.nodes.createAt (store.actualPath path sequence) data ephemeral
  let counters :=
    if sequence then store.sequenceCounters.insert normalized (store.nextSequence normalized)
    else store.sequenceCounters
  (code, ⟨nodes, counters⟩)

/-- What a call does to the store, and what it returns. -/
def call (store : ZnodeStore) : ZnodeCall → ZCode × ZnodeStore
  | .create path data ephemeral sequence => store.createNode path data ephemeral sequence
  | .delete path =>
      let (code, nodes) := store.nodes.deleteNode path
      (code, { store with nodes })
  | .setData path data =>
      let (code, nodes) := store.nodes.setNodeData path data
      (code, { store with nodes })

end ZnodeStore

end FileGrid
