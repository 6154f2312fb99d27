import FileGrid.Common.ZnodeTree

/-!
# Ephemeral nodes and the sessions of their creators

Any number of `ZooKeeperClient` objects share one store.  A call first looks whether its client is
connected, under the client's own lock, and then works on the store under the store's; between the
two anything may happen, and a call in between is one of `inFlight`.  Which client created a node,
and how often a client has disconnected, is not recorded by the program: `creations` and
`disconnects` are history variables, which nothing reads.

`disconnect` clears a flag, and no more: the ephemeral nodes of the client stay.

* `Alive`: the creator of every ephemeral node is connected, and was not disconnected since.
* **`ephemeral_nodes_alive_iff`**: a run keeps this exactly if no client disconnects while it has an
  ephemeral node, and none has one created for it when it has disconnected since the check.
-/

namespace FileGrid

/-! ## What a call does to the ephemeral nodes -/

lemma ephemeral_insertChild (node : ZNode) (name : Bytes) :
    (node.insertChild name).ephemeral = node.ephemeral := by
  rw [ZNode.insertChild]
  split_ifs
  · rfl
  · rfl

lemma ephemeral_eraseChild (node : ZNode) (name : Bytes) :
    (node.eraseChild name).ephemeral = node.ephemeral := rfl

namespace ZooKeeper

variable {zk : ZooKeeper}

/-- There is an ephemeral node at the path. -/
def IsEphemeral (zk : ZooKeeper) (path : Bytes) : Prop := zk[path]?.any (·.ephemeral) = true

instance (zk : ZooKeeper) (path : Bytes) : Decidable (zk.IsEphemeral path) :=
  inferInstanceAs (Decidable (_ = true))

lemma isEphemeral_insert (path path' : Bytes) (node : ZNode) :
    IsEphemeral (zk.insert path node) path' ↔
      if path' = path then node.ephemeral = true else zk.IsEphemeral path' := by
  rw [IsEphemeral, Map.get_insert]
  split_ifs
  · rfl
  · rfl

lemma isEphemeral_update {f : ZNode → ZNode} (hf : ∀ node, (f node).ephemeral = node.ephemeral)
    (path path' : Bytes) : (zk.update path f).IsEphemeral path' ↔ zk.IsEphemeral path' := by
  rw [update, isEphemeral_insert]
  split_ifs with heq
  · rw [hf, heq, IsEphemeral]
    cases zk[path]? with
    | none => rfl
    | some node => rfl
  · rfl

lemma isEphemeral_createAt {path : Bytes} (h : zk.Creatable path) (data : Bytes)
    (ephemeral : Bool) (path' : Bytes) :
    IsEphemeral (zk.createAt path data ephemeral).2 path' ↔
      if path' = path then ephemeral = true else zk.IsEphemeral path' := by
  rw [createAt_of_creatable h, ← isEphemeral_insert path path' { data, ephemeral }]
  split_ifs
  · exact isEphemeral_update (fun node => ephemeral_insertChild node _) _ _
  · rfl

lemma IsEphemeral.of_deleteNode {path path' : Bytes}
    (h : (zk.deleteNode path).2.IsEphemeral path') : zk.IsEphemeral path' := by
  rcases deleteNode_eq zk path with ⟨-, hnodes⟩ | ⟨-, hnodes⟩
  · rw [hnodes] at h
    exact h
  · rw [hnodes, IsEphemeral, Map.get_erase] at h
    by_cases heq : path' = normalizePath path
    · rw [if_pos heq] at h
      exact Bool.noConfusion h
    · rw [if_neg heq] at h
      split_ifs at h with hne
      · exact (isEphemeral_update (fun node => ephemeral_eraseChild node _) _ path').mp h
      · exact h

lemma isEphemeral_setNodeData (path data path' : Bytes) :
    (zk.setNodeData path data).2.IsEphemeral path' ↔ zk.IsEphemeral path' := by
  rcases setNodeData_eq zk path data with hnodes | ⟨node, hnode, hnodes⟩
  · rw [hnodes]
  · rw [hnodes, isEphemeral_insert]
    split_ifs with heq
    · rw [heq, IsEphemeral, hnode]
      rfl
    · rfl

end ZooKeeper

/-! ## Clients -/

/-- Some clients and their store. -/
structure Sessions where
  store : ZnodeStore := {}
  connected : Nat → Bool := fun _ => false
  /-- The calls between their check and their effect, with their clients. -/
  inFlight : List (Nat × ZnodeCall) := []
  /-- For a path, the client that last created a node there, and how often it had disconnected. -/
  creations : Map Bytes (Nat × Nat) := ∅
  disconnects : Nat → Nat := fun _ => 0

/-- What can happen.  The destructor of a client is a `disconnect`. -/
inductive SessionEvent
  | connect (client : Nat)
  | disconnect (client : Nat)
  | invoke (client : Nat) (call : ZnodeCall)
  | perform (index : Nat)

namespace Sessions

/-- The path at which the call creates a node, if it creates one. -/
def createdPath (store : ZnodeStore) : ZnodeCall → Option Bytes
  | .create path data ephemeral sequence =>
      if (store.createNode path data ephemeral sequence).1 = .ok then
        some (store.actualPath path sequence)
      else none
  | .delete _ => none
  | .setData _ _ => none

/-- A call takes effect. -/
def perform (s : Sessions) (client : Nat) (call : ZnodeCall) : Sessions :=
  { s with
    store := s.store.step call
    creations :=
      match createdPath s.store call with
      | some path => s.creations.insert path (client, s.disconnects client)
      | none => s.creations }

def step (s : Sessions) : SessionEvent → Sessions
  | .connect client => { s with connected := Function.update s.connected client true }
  | .disconnect client =>
      if s.connected client then
        { s with
          connected := Function.update s.connected client false
          disconnects := Function.update s.disconnects client (s.disconnects client + 1) }
      else s
  | .invoke client call =>
      if s.connected client then { s with inFlight := s.inFlight ++ [(client, call)] } else s
  | .perform index =>
      match s.inFlight[index]? with
      | none => s
      | some (client, call) =>
          { s with inFlight := s.inFlight.eraseIdx index }.perform client call

def run (events : List SessionEvent) : Sessions := events.foldl step {}

/-! ## The property -/

/-- **Ephemeral nodes end with their session**: the creator of each is connected, and has not
disconnected since. -/
def Alive (s : Sessions) : Prop :=
  ∀ path, s.store.nodes.IsEphemeral path →
    ∃ client, s.creations[path]? = some (client, s.disconnects client) ∧
      s.connected client = true

/-- The client has created an ephemeral node that is still there. -/
def HasEphemeral (s : Sessions) (client : Nat) : Prop :=
  ∃ path, s.store.nodes.IsEphemeral path ∧ ∃ n, s.creations[path]? = some (client, n)

/-- The call creates an ephemeral node. -/
def CreatesEphemeral (store : ZnodeStore) : ZnodeCall → Prop
  | .create path _ ephemeral sequence =>
      ephemeral = true ∧ store.nodes.Creatable (store.actualPath path sequence)
  | .delete _ => False
  | .setData _ _ => False

/-- A client disconnects and leaves an ephemeral node behind, or it gets one when it has
disconnected. -/
def Orphans (s : Sessions) : SessionEvent → Prop
  | .connect _ => False
  | .disconnect client => s.connected client = true ∧ s.HasEphemeral client
  | .invoke _ _ => False
  | .perform index =>
      ∃ client call, s.inFlight[index]? = some (client, call) ∧ CreatesEphemeral s.store call ∧
        s.connected client = false

/-! ## Steps -/

lemma createNode_ok_iff {store : ZnodeStore} {path data : Bytes} {ephemeral sequence : Bool} :
    (store.createNode path data ephemeral sequence).1 = .ok ↔
      store.nodes.Creatable (store.actualPath path sequence) := by
  constructor
  · intro hok
    by_contra hno
    exact (ZooKeeper.createAt_of_not_creatable hno data ephemeral).1 hok
  · intro hcreatable
    rw [ZnodeStore.createNode, ZooKeeper.createAt_of_creatable hcreatable]

/-- The ephemeral nodes after a call: the one it creates, and some that were there. -/
lemma isEphemeral_step {store : ZnodeStore} {call : ZnodeCall} {path : Bytes}
    (h : (store.step call).nodes.IsEphemeral path) :
    (createdPath store call = some path ∧ CreatesEphemeral store call) ∨
      (createdPath store call ≠ some path ∧ store.nodes.IsEphemeral path) := by
  cases call with
  | create path' data ephemeral sequence =>
      rw [createdPath]
      by_cases hcreatable : store.nodes.Creatable (store.actualPath path' sequence)
      · rw [if_pos (createNode_ok_iff.mpr hcreatable)]
        have hephemeral := (ZooKeeper.isEphemeral_createAt hcreatable data ephemeral path).mp h
        split_ifs at hephemeral with heq
        · exact Or.inl ⟨congrArg some heq.symm, hephemeral, hcreatable⟩
        · refine Or.inr ⟨?_, hephemeral⟩
          intro hsome
          exact heq (Option.some.inj hsome).symm
      · rw [if_neg (mt createNode_ok_iff.mp hcreatable)]
        have hsame := (ZooKeeper.createAt_of_not_creatable hcreatable data ephemeral).2
        refine Or.inr ⟨by simp, ?_⟩
        rw [← hsame]
        exact h
  | delete path' => exact Or.inr ⟨by simp [createdPath], h.of_deleteNode⟩
  | setData path' data =>
      exact Or.inr ⟨by simp [createdPath], (ZooKeeper.isEphemeral_setNodeData path' data path).mp h⟩

lemma CreatesEphemeral.isEphemeral {store : ZnodeStore} {call : ZnodeCall}
    (h : CreatesEphemeral store call) :
    ∃ path, createdPath store call = some path ∧ (store.step call).nodes.IsEphemeral path := by
  cases call with
  | create path data ephemeral sequence =>
      refine ⟨store.actualPath path sequence, if_pos (createNode_ok_iff.mpr h.2), ?_⟩
      refine (ZooKeeper.isEphemeral_createAt h.2 data ephemeral _).mpr ?_
      rw [if_pos rfl]
      exact h.1
  | delete path => exact absurd h id
  | setData path data => exact absurd h id

/-- A call that takes effect keeps the property unless it creates a node for a client that is not
connected. -/
lemma alive_perform_iff {s : Sessions} (h : s.Alive) (client : Nat) (call : ZnodeCall) :
    (s.perform client call).Alive ↔
      ¬(CreatesEphemeral s.store call ∧ s.connected client = false) := by
  constructor
  · rintro halive ⟨hcreates, hoffline⟩
    obtain ⟨path, hpath, hephemeral⟩ := hcreates.isEphemeral
    obtain ⟨creator, hcreation, honline⟩ := halive path hephemeral
    have hclient : (s.perform client call).creations[path]? =
        some (client, s.disconnects client) := by
      rw [perform, hpath]
      dsimp only
      rw [Map.get_insert, if_pos rfl]
    rw [hclient] at hcreation
    have hsame : client = creator := (Prod.mk.inj (Option.some.inj hcreation)).1
    rw [← hsame] at honline
    exact Bool.noConfusion (honline.symm.trans hoffline)
  · intro hno path hephemeral
    rcases isEphemeral_step hephemeral with ⟨hpath, hcreates⟩ | ⟨hpath, hold⟩
    · refine ⟨client, ?_, ?_⟩
      · rw [perform, hpath]
        dsimp only
        rw [Map.get_insert, if_pos rfl]
      · by_contra hoffline
        exact hno ⟨hcreates, Bool.eq_false_iff.mpr hoffline⟩
    · obtain ⟨creator, hcreation, honline⟩ := h path hold
      refine ⟨creator, ?_, honline⟩
      rw [perform]
      dsimp only
      cases hcreated : createdPath s.store call with
      | none => exact hcreation
      | some path' =>
          dsimp only
          have hne : path ≠ path' := by
            rintro rfl
            exact hpath hcreated
          rw [Map.get_insert, if_neg hne]
          exact hcreation

/-- A client that disconnects leaves the property as it was if it has no ephemeral node. -/
lemma alive_disconnect_iff {s : Sessions} (h : s.Alive) {client : Nat}
    (honline : s.connected client = true) :
    (s.step (.disconnect client)).Alive ↔ ¬s.HasEphemeral client := by
  rw [step, if_pos honline]
  constructor
  · rintro halive ⟨path, hephemeral, n, hcreation⟩
    obtain ⟨creator, hcreation', honline'⟩ := halive path hephemeral
    have hsame : client = creator :=
      (Prod.mk.inj (Option.some.inj (hcreation.symm.trans hcreation'))).1
    rw [← hsame] at honline'
    simp at honline'
  · intro hno path hephemeral
    obtain ⟨creator, hcreation, honline'⟩ := h path hephemeral
    have hne : creator ≠ client := by
      rintro rfl
      exact hno ⟨path, hephemeral, _, hcreation⟩
    refine ⟨creator, ?_, ?_⟩
    · dsimp only
      rw [Function.update_of_ne hne]
      exact hcreation
    · dsimp only
      rw [Function.update_of_ne hne]
      exact honline'

/-- **One event keeps the property unless it orphans a node.** -/
theorem alive_step_iff (s : Sessions) (event : SessionEvent) (h : s.Alive) :
    (s.step event).Alive ↔ ¬s.Orphans event := by
  cases event with
  | connect client =>
      refine iff_of_true ?_ id
      intro path hephemeral
      obtain ⟨creator, hcreation, honline⟩ := h path hephemeral
      refine ⟨creator, hcreation, ?_⟩
      rw [step]
      dsimp only
      by_cases hsame : creator = client
      · rw [hsame, Function.update_self]
      · rw [Function.update_of_ne hsame]
        exact honline
  | disconnect client =>
      by_cases honline : s.connected client = true
      · rw [alive_disconnect_iff h honline, Orphans, not_and]
        exact ⟨fun hno _ => hno, fun hno => hno honline⟩
      · rw [step, if_neg honline]
        exact iff_of_true h fun horphan => honline horphan.1
  | invoke client call =>
      refine iff_of_true ?_ id
      rw [step]
      split_ifs
      · exact h
      · exact h
  | perform index =>
      rw [step, Orphans]
      cases hcall : s.inFlight[index]? with
      | none => exact iff_of_true h (by simp)
      | some entry =>
          obtain ⟨client, call⟩ := entry
          dsimp only
          have hperform := alive_perform_iff (s := { s with inFlight := s.inFlight.eraseIdx index })
            h client call
          rw [hperform]
          simp

/-- **When ephemeral nodes end with their session**: exactly in the runs in which no node is
orphaned. -/
theorem ephemeral_nodes_alive_iff (events : List SessionEvent) :
    (∀ before, before <+: events → (run before).Alive) ↔
      AlongRun step (fun s event => ¬s.Orphans event) {} events := by
  refine forall_reached_iff (fun _ => True) Alive (fun _ _ _ => trivial)
    (fun s event _ => alive_step_iff s event) trivial ?_
  -- the root, which is all there is, is not ephemeral
  intro path hephemeral
  have hroot := (ZooKeeper.isEphemeral_insert (ascii "/") path {}).mp hephemeral
  split_ifs at hroot
  exact absurd hroot (by simp [ZooKeeper.IsEphemeral])

/-- A client connects, creates an ephemeral node and disconnects: the node is still there. -/
theorem ephemeral_node_survives :
    let events : List SessionEvent :=
      [.connect 0, .invoke 0 (.create (ascii "/a") [] true false), .perform 0, .disconnect 0]
    (run events).store.nodes.IsEphemeral (ascii "/a") ∧
      (run events).creations[ascii "/a"]? = some (0, 0) ∧ (run events).connected 0 = false ∧
      (run events).disconnects 0 = 1 ∧ ¬(run events).Alive := by
  intro events
  have hoffline : (run events).connected 0 = false := by decide +kernel
  have hcreation : (run events).creations[ascii "/a"]? = some (0, 0) := by decide +kernel
  have hephemeral : (run events).store.nodes.IsEphemeral (ascii "/a") := by decide +kernel
  refine ⟨hephemeral, hcreation, hoffline, by decide +kernel, ?_⟩
  intro halive
  obtain ⟨creator, hcreation', honline⟩ := halive _ hephemeral
  rw [hcreation] at hcreation'
  rw [← (Prod.mk.inj (Option.some.inj hcreation')).1, hoffline] at honline
  exact Bool.noConfusion honline

end Sessions

end FileGrid
