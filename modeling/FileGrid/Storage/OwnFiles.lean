import FileGrid.Storage.Tasks

/-!
# Whose files the registry names

The registry is written in two places: a store enters the file it has written, and a retrieval of an
unknown identifier enters the path that came with the request, if `fs::exists` finds it.  The second
path is whatever the peer sent, and from then on it is the file of that identifier: `GET_CHUNK`
returns it, on a port that is open to clients, and `DELETE_CHUNK` removes it.

The messages of a node are those of its three ports, and what they lead to runs on the pool in any
order.  `ownRegistry_step` says what an event needs so that the registry names chunk files only, and
`ownTasks_step` that it then holds of whatever is still to be opened or removed.
-/

namespace FileGrid

/-- What a node is sent. -/
inductive NodeMessage
  | chunkData (chunkId data : Bytes)
  | fetchChunk (chunkId filePath : Bytes)
  | fetchHash (chunkId filePath : Bytes)
  | replicateChunk (chunkId : Bytes)
  /-- A request on the public port. -/
  | publicRequest (request : Bytes)
  /-- A message on the base port. -/
  | emergencyMessage (msg : Bytes)
deriving DecidableEq

/-- The call of the storage that a message leads to, with the time at which it is handled and
whether the path in it exists.  A chunk that is replicated is sent to another node after it was
retrieved.  The messages that end or restart the process call nothing. -/
def NodeMessage.call (epochUs : Int) (pathExists : Bool) : NodeMessage → Option StorageEvent
  | .chunkData chunkId data => some (.storeChunk chunkId data epochUs)
  | .fetchChunk chunkId filePath => some (.retrieveChunk chunkId filePath pathExists)
  | .fetchHash chunkId filePath => some (.retrieveChunk chunkId filePath pathExists)
  | .replicateChunk chunkId => some (.retrieveChunk chunkId [] pathExists)
  | .publicRequest request =>
      let req := (readLine (request.take 255)).1
      if ascii "GET_CHUNK " <+: req then
        let (chunkId, rest) := (readWord (req.drop 10)).getD ([], [])
        let fileName := ((readWord rest).map (·.1)).getD []
        some (.retrieveChunk (fileName ++ ascii "_chunk_" ++ chunkId) [] pathExists)
      else none
  | .emergencyMessage msg =>
      if (find (ascii "DEAD") msg).isSome ∨ (find (ascii "KILL") msg).isSome ∨
          (find (ascii "RESTART") msg).isSome then none
      else if (find (ascii "DELETE_CHUNK ") msg).isSome then
        some (.eraseChunk (((readWord (msg.drop 13)).map (·.1)).getD []))
      else none

/-- The calls of the storage, as opposed to the steps of its tasks. -/
def StorageEvent.isCall : StorageEvent → Bool
  | .storeChunk _ _ _ | .retrieveChunk _ _ _ | .eraseChunk _ => true
  | _ => false

/-- What happens on a node: a message arrives, or a task takes a step. -/
inductive NodeEvent
  | message (m : NodeMessage) (epochUs : Int) (pathExists : Bool := false)
  | task (e : StorageEvent)
deriving DecidableEq

def NodeEvent.event : NodeEvent → Option StorageEvent
  | .message m epochUs pathExists => m.call epochUs pathExists
  | .task e => if e.isCall then none else some e

namespace ChunkStorage

def nodeStep (s : ChunkStorage) (ev : NodeEvent) : ChunkStorage :=
  match ev.event with
  | some e => s.step e
  | none => s

/-- The path was generated for this identifier, by a store on this node's directory. -/
def Generated (s : ChunkStorage) (chunkId path : Bytes) : Prop :=
  ∃ us seq, (chunkId, us, seq) ∈ s.issued ∧ path = chunkPath s.storagePath chunkId us seq

/-- **The registry names the node's own chunk files.** -/
def OwnRegistry (s : ChunkStorage) : Prop :=
  ∀ chunkId path : Bytes, s.chunkRegistry[chunkId]? = some path → s.Generated chunkId path

/-- The file that an event opens to return it, or removes. -/
def touches (s : ChunkStorage) (ev : NodeEvent) : Option Bytes :=
  match ev.event with
  | some (.openChunk op) => (s.retrievals[op]?).map (·.chunkPath)
  | some (.removeFile op true) => s.removals[op]?
  | _ => none

/-- What an event needs: a path that comes with the request for an unknown identifier, and exists,
was generated for that identifier. -/
def PathGuard (s : ChunkStorage) : StorageEvent → Prop
  | .retrieveChunk chunkId fallbackPath pathExists =>
      s.chunkRegistry[chunkId]? = none → fallbackPath ≠ [] → pathExists = true →
        s.Generated chunkId fallbackPath
  | _ => True

def FetchGuard (s : ChunkStorage) (ev : NodeEvent) : Prop := ∀ e ∈ ev.event, s.PathGuard e

lemma generated_iff {s : ChunkStorage} {chunkId path : Bytes} :
    (∃ issue ∈ s.issued, issue.1 = chunkId ∧
      path = chunkPath s.storagePath chunkId issue.2.1 issue.2.2) ↔ s.Generated chunkId path := by
  constructor
  · rintro ⟨⟨chunkId, us, seq⟩, hmem, rfl, hpath⟩
    exact ⟨us, seq, hmem, hpath⟩
  · rintro ⟨us, seq, hmem, hpath⟩
    exact ⟨(chunkId, us, seq), hmem, rfl, hpath⟩

instance (s : ChunkStorage) (chunkId path : Bytes) : Decidable (s.Generated chunkId path) :=
  decidable_of_iff _ generated_iff

instance (s : ChunkStorage) : ∀ e, Decidable (s.PathGuard e)
  | .retrieveChunk _ _ _ => inferInstanceAs (Decidable (_ → _ → _ → _))
  | .storeChunk _ _ _ | .openFile _ _ | .writeFile _ _ | .register _ | .openChunk _ | .seekEnd _
  | .readChunk _ _ | .readFails _ | .eraseChunk _ | .removeFile _ _ => isTrue trivial

instance (s : ChunkStorage) (ev : NodeEvent) : Decidable (s.FetchGuard ev) :=
  inferInstanceAs (Decidable (∀ e ∈ ev.event, s.PathGuard e))

/-! ## Steps -/

lemma Generated.step {s : ChunkStorage} {chunkId path : Bytes} (h : s.Generated chunkId path)
    (e : StorageEvent) : (s.step e).Generated chunkId path := by
  obtain ⟨us, seq, hmem, rfl⟩ := h
  have heffect := effect_step s e
  generalize s.step e = s' at heffect ⊢
  cases heffect with
  | submits chunkId' data epochUs => exact ⟨us, seq, List.mem_append_left _ hmem, rfl⟩
  | _ => exact ⟨us, seq, hmem, rfl⟩

/-- The stores under way write files that were generated for their identifiers. -/
def OwnStores (s : ChunkStorage) : Prop :=
  ∀ (op : Nat) (task : StoreTask), s.stores[op]? = some task → s.Generated task.chunkId task.path

lemma ownStores_step {s : ChunkStorage} (h : s.OwnStores) (e : StorageEvent) :
    (s.step e).OwnStores := by
  intro op task htask
  have hkeep : s.stores[op]? = some task → (s.step e).Generated task.chunkId task.path :=
    fun htask => (h op task htask).step e
  have hpath : ∀ {op' : Nat} {task' : StoreTask}, s.stores[op']? = some task' →
      (s.step e).Generated task'.chunkId task'.path := fun htask => (h _ _ htask).step e
  have heffect := effect_step s e
  generalize s.step e = s' at heffect hkeep hpath htask ⊢
  cases heffect with
  | submits chunkId data epochUs =>
      simp only [storeChunk, Map.get_insert] at htask
      split_ifs at htask with hop
      · cases htask
        exact ⟨epochUs, s.nextSeq, by simp [storeChunk], rfl⟩
      · exact hkeep htask
  | opens hopen | writes hopen hlt =>
      simp only [Map.get_insert] at htask
      split_ifs at htask with hop
      · have hgenerated := hpath hopen
        cases htask
        exact hgenerated
      · exact hkeep htask
  | fails he | registers hregister hge =>
      simp only [storeFails, Map.get_erase] at htask
      split_ifs at htask with hop
      exact hkeep htask
  | _ => exact hkeep htask

/-- Storing and deleting enter no foreign path. -/
lemma ownRegistry_of_not_retrieve {s : ChunkStorage} (hstores : s.OwnStores) (h : s.OwnRegistry)
    {e : StorageEvent} (he : ∀ chunkId path found, e ≠ .retrieveChunk chunkId path found) :
    (s.step e).OwnRegistry := by
  intro chunkId path hreg
  have hkeep : s.chunkRegistry[chunkId]? = some path → (s.step e).Generated chunkId path :=
    fun hreg => (h _ _ hreg).step e
  have hpath : ∀ {op : Nat} {task : StoreTask}, s.stores[op]? = some task →
      (s.step e).Generated task.chunkId task.path := fun htask => (hstores _ _ htask).step e
  have heffect := effect_step s e
  generalize s.step e = s' at heffect hkeep hpath hreg ⊢
  cases heffect with
  | adopts hnone hpath' => exact absurd rfl (he _ _ _)
  | registers htask hge =>
      simp only [Map.get_insert] at hreg
      split_ifs at hreg with hkey
      · have hgenerated := hpath htask
        cases hreg
        rw [hkey]
        exact hgenerated
      · exact hkeep hreg
  | erases hfound =>
      simp only [Map.get_erase] at hreg
      split_ifs at hreg with hkey
      exact hkeep hreg
  | _ => exact hkeep hreg

/-- **What keeps the registry to the node's own files**, event by event. -/
theorem ownRegistry_step {s : ChunkStorage} (hstores : s.OwnStores) (h : s.OwnRegistry)
    (e : StorageEvent) : (s.step e).OwnRegistry ↔ s.PathGuard e := by
  cases e with
  | retrieveChunk chunkId fallbackPath pathExists =>
      rw [step, retrieveChunk, PathGuard]
      cases hreg : s.chunkRegistry[chunkId]? with
      | some path => exact ⟨by simp, fun _ => h⟩
      | none =>
          dsimp only
          by_cases hpath : fallbackPath ≠ [] ∧ pathExists = true
          · rw [if_pos hpath]
            constructor
            · intro hown _ _ _
              exact hown chunkId fallbackPath (by simp [submitRetrieval])
            · intro hguard chunkId' path' hentry
              simp only [submitRetrieval, Map.get_insert] at hentry
              split_ifs at hentry with hkey
              · cases hentry
                rw [hkey]
                exact hguard rfl hpath.1 hpath.2
              · exact h chunkId' path' hentry
          · rw [if_neg hpath]
            exact ⟨fun _ _ hne hexists => absurd ⟨hne, hexists⟩ hpath, fun _ => h⟩
  | _ => exact ⟨fun _ => trivial, fun _ => ownRegistry_of_not_retrieve hstores h (by simp)⟩

/-- What is still to be opened or removed was generated too. -/
structure OwnTasks (s : ChunkStorage) : Prop where
  retrievals : ∀ (op : Nat) (task : RetrieveTask), s.retrievals[op]? = some task →
    ∃ chunkId, s.Generated chunkId task.chunkPath
  removals : ∀ (op : Nat) (path : Bytes), s.removals[op]? = some path →
    ∃ chunkId, s.Generated chunkId path

/-- **A registry of the node's own files leads to no others.** -/
theorem ownTasks_step {s : ChunkStorage} (hreg : s.OwnRegistry) (h : s.OwnTasks)
    {e : StorageEvent} (hguard : s.PathGuard e) : (s.step e).OwnTasks := by
  have hkeep : ∀ {chunkId path : Bytes}, s.Generated chunkId path →
      ∃ chunkId, (s.step e).Generated chunkId path :=
    fun {chunkId path} hgenerated => ⟨chunkId, hgenerated.step e⟩
  have hretrievals : ∀ (op : Nat) (task : RetrieveTask), s.retrievals[op]? = some task →
      ∃ chunkId, (s.step e).Generated chunkId task.chunkPath := by
    intro op task htask
    obtain ⟨chunkId, hgenerated⟩ := h.retrievals op task htask
    exact hkeep hgenerated
  have hremovals : ∀ (op : Nat) (path : Bytes), s.removals[op]? = some path →
      ∃ chunkId, (s.step e).Generated chunkId path := by
    intro op path hremoval
    obtain ⟨chunkId, hgenerated⟩ := h.removals op path hremoval
    exact hkeep hgenerated
  have heffect := effect_step s e
  generalize s.step e = s' at heffect hkeep hretrievals hremovals ⊢
  cases heffect with
  | finds hfound =>
      refine ⟨fun op task htask => ?_, hremovals⟩
      simp only [submitRetrieval, Map.get_insert] at htask
      split_ifs at htask with hop
      · cases htask
        exact hkeep (hreg _ _ hfound)
      · exact hretrievals op task htask
  | adopts hnone hpath =>
      refine ⟨fun op task htask => ?_, hremovals⟩
      simp only [submitRetrieval, Map.get_insert] at htask
      split_ifs at htask with hop
      · cases htask
        exact hkeep (hguard hnone hpath rfl)
      · exact hretrievals op task htask
  | reads hread he =>
      refine ⟨fun op task htask => ?_, hremovals⟩
      simp only [Map.get_insert] at htask
      split_ifs at htask with hop
      · have hgenerated := hretrievals _ _ hread
        cases htask
        exact hgenerated
      · exact hretrievals op task htask
  | returns data hread he =>
      refine ⟨fun op task htask => ?_, hremovals⟩
      simp only [retrieveReturns, Map.get_erase] at htask
      split_ifs at htask with hop
      exact hretrievals op task htask
  | erases hfound =>
      refine ⟨hretrievals, fun op path hremoval => ?_⟩
      simp only [Map.get_insert] at hremoval
      split_ifs at hremoval with hop
      · cases hremoval
        exact hkeep (hreg _ _ hfound)
      · exact hremovals op path hremoval
  | removes removes hfound =>
      refine ⟨hretrievals, fun op path hremoval => ?_⟩
      simp only [Map.get_erase] at hremoval
      split_ifs at hremoval with hop
      exact hremovals op path hremoval
  | _ => exact ⟨hretrievals, hremovals⟩

/-! ## Runs -/

/-- The registry, and what is under way, names the node's own files. -/
structure Own (s : ChunkStorage) : Prop where
  stores : s.OwnStores
  registry : s.OwnRegistry
  tasks : s.OwnTasks

lemma Idle.own {s : ChunkStorage} (h : s.Idle) : s.Own where
  stores := by
    intro op task htask
    simp [h.stores] at htask
  registry := by
    intro chunkId path hreg
    simp [h.chunkRegistry] at hreg
  tasks := by
    constructor
    · intro op task htask
      simp [h.retrievals] at htask
    · intro op path hremoval
      simp [h.removals] at hremoval

lemma own_nodeStep {s : ChunkStorage} (h : s.Own) {ev : NodeEvent} (hguard : s.FetchGuard ev) :
    (s.nodeStep ev).Own := by
  rw [nodeStep]
  cases hev : ev.event with
  | none => exact h
  | some e =>
      have hpath : s.PathGuard e := hguard e hev
      exact ⟨ownStores_step h.stores e, (ownRegistry_step h.stores h.registry e).mpr hpath,
        ownTasks_step h.registry h.tasks hpath⟩

lemma Own.touches {s : ChunkStorage} (h : s.Own) {ev : NodeEvent} {path : Bytes}
    (htouch : s.touches ev = some path) : ∃ chunkId, s.Generated chunkId path := by
  rw [ChunkStorage.touches] at htouch
  split at htouch
  · obtain ⟨task, htask, rfl⟩ := Option.map_eq_some_iff.mp htouch
    exact h.tasks.retrievals _ task htask
  · exact h.tasks.removals _ path htouch
  · cases htouch

/-- **When the registry names the node's own chunk files only**: in every state of a run, exactly if
each path that comes with a request for an unknown identifier, and exists, was generated for that
identifier.  Then no other file is opened to be returned, and none is removed. -/
theorem registry_own_iff {s : ChunkStorage} (hidle : s.Idle) (events : List NodeEvent) :
    ((∀ before, before <+: events → (before.foldl nodeStep s).OwnRegistry) ↔
      AlongRun nodeStep FetchGuard s events) ∧
    (AlongRun nodeStep FetchGuard s events →
      ∀ before ev, before ++ [ev] <+: events → ∀ path,
        (before.foldl nodeStep s).touches ev = some path →
          ∃ chunkId, (before.foldl nodeStep s).Generated chunkId path) := by
  have hown := hidle.own
  constructor
  · refine forall_reached_iff OwnStores OwnRegistry (fun s ev h => ?_) (fun s ev hstores h => ?_)
      hown.stores hown.registry
    · rw [nodeStep]
      cases ev.event with
      | none => exact h
      | some e => exact ownStores_step h e
    · rw [nodeStep, FetchGuard]
      cases ev.event with
      | none => simpa using h
      | some e => simpa using ownRegistry_step hstores h e
  · rintro hrun before ev ⟨rest, rfl⟩ path htouch
    have hreached := foldl_invariant Own (fun s ev h hguard => own_nodeStep h hguard) hown
      (alongRun_append.mp (alongRun_append.mp hrun).1).1
    exact hreached.touches htouch

/-- A chunk is stored and then deleted, but its file cannot be removed; it is fetched by its path,
and read on the public port. -/
def forgottenChunk : List NodeEvent :=
  [.message (.chunkData (ascii "f_chunk_0") (ascii "x")) 7, .task (.openFile 0 true),
   .task (.writeFile 0 (some 1)), .task (.register 0),
   .message (.emergencyMessage (ascii "DELETE_CHUNK f_chunk_0")) 8, .task (.removeFile 1 false),
   .message (.fetchChunk (ascii "f_chunk_0")
     (ascii "/var/cluster_storage/chunk_f_chunk_0_7_1.dat")) 9 true,
   .message (.publicRequest (ascii "GET_CHUNK 0 f\n")) 10, .task (.openChunk 3)]

theorem registry_own_forgotten :
    let s : ChunkStorage := { files := .empty }
    (forgottenChunk.foldl nodeStep s).chunkRegistry[ascii "f_chunk_0"]? =
        some (ascii "/var/cluster_storage/chunk_f_chunk_0_7_1.dat") ∧
      ∀ before, before <+: forgottenChunk → (before.foldl nodeStep s).OwnRegistry := by
  intro s
  have hidle : s.Idle := ⟨rfl, rfl, rfl, rfl, rfl⟩
  refine ⟨by decide +kernel, (registry_own_iff hidle forgottenChunk).1.mpr ?_⟩
  decide +kernel

/-- **A node gives out and removes a file that is not its own.**  A peer asks for an unknown chunk
with the path `/etc/passwd`; the node takes that for the file of the chunk, any client gets it from
the public port, and a deletion of the chunk removes it. -/
theorem registry_adopts_foreign_file :
    let passwd := ascii "/etc/passwd"
    let s : ChunkStorage := { files := (FileSystem.empty.create passwd).writeAt 0 0 (ascii "root") }
    let asked := [.message (.fetchChunk (ascii "f_chunk_0") passwd) 7 true].foldl nodeStep s
    let run : List NodeEvent :=
      [.message (.publicRequest (ascii "GET_CHUNK 0 f\n")) 8, .task (.openChunk 1),
       .task (.seekEnd 1), .task (.readChunk 1 3), .task (.readChunk 1 0),
       .message (.emergencyMessage (ascii "DELETE_CHUNK f_chunk_0")) 9, .task (.removeFile 2 true)]
    asked.chunkRegistry[ascii "f_chunk_0"]? = some passwd ∧ ¬ asked.OwnRegistry ∧
      (run.foldl nodeStep asked).retrieveResults[1]? = some (ascii "root") ∧
      (run.foldl nodeStep asked).files.names[passwd]? = none := by
  intro passwd s asked run
  have hadopted : asked.chunkRegistry[ascii "f_chunk_0"]? = some passwd := by decide +kernel
  refine ⟨hadopted, fun hown => ?_, by decide +kernel, by decide +kernel⟩
  have hgenerated : ¬ asked.Generated (ascii "f_chunk_0") passwd := by decide +kernel
  exact hgenerated (hown _ _ hadopted)

end ChunkStorage

end FileGrid
