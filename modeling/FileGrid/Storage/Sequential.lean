import FileGrid.Storage.Tasks

/-!
# One operation after the other

The operations of the storage as they look when nobody interrupts them: a store runs from its
submission to its result, then a retrieval, then a deletion.  `Node`, which the rest of the
development is about, has them as single steps, with a disk that is a map from paths to bytes; here
they are the runs of the storage's own events, and the two agree as long as no path has a NUL byte:

* `toNode_completedStore`, `toNode_completedDelete` — the node after the operation;
* `toNode_completedRetrieve` — and what a retrieval returns.

With a NUL byte they do not, since the disk of `Node` tells paths apart that are one name to the
operating system.
-/

namespace FileGrid

/-- The file could be opened. -/
def StoreFault.opens : StoreFault → Bool
  | .openFails => false
  | .writeFails _ | .none => true

/-- All bytes could be written; a write can only fail while there is something to write. -/
def StoreFault.writesAll (data : Bytes) : StoreFault → Bool
  | .openFails => false
  | .writeFails written => data.length ≤ written
  | .none => true

namespace ChunkStorage

/-- The events of a store, whose number is `op`. -/
def storeEvents (op : Nat) (epochUs : Int) (chunkId data : Bytes) : StoreFault → List StorageEvent
  | .openFails => [.storeChunk chunkId data epochUs, .openFile op false]
  | .writeFails written =>
      [.storeChunk chunkId data epochUs, .openFile op true, .writeFile op (some written),
       .writeFile op none, .register op]
  | .none =>
      [.storeChunk chunkId data epochUs, .openFile op true, .writeFile op (some data.length),
       .register op]

/-- A store that nothing interrupts. -/
def completedStore (s : ChunkStorage) (fault : StoreFault) (epochUs : Int) (chunkId data : Bytes) :
    ChunkStorage :=
  (storeEvents s.nextOp epochUs chunkId data fault).foldl step s

/-- A deletion that nothing interrupts; it ends with its critical section if the identifier is
unknown. -/
def completedDelete (s : ChunkStorage) (removes : Bool) (chunkId : Bytes) : ChunkStorage :=
  if (s.chunkRegistry[chunkId]?).isSome then
    [.eraseChunk chunkId, .removeFile s.nextOp removes].foldl step s
  else [.eraseChunk chunkId].foldl step s

/-- Whether a path exists where there are the files of this storage only, each under one name. -/
def pathExists (s : ChunkStorage) (path : Bytes) : Bool := (s.files.names[cString path]?).isSome

/-- A retrieval that nothing interrupts, on a system whose reads return up to `n + 1` bytes. -/
def completedRetrieve (s : ChunkStorage) (n : Nat) (chunkId fallbackPath : Bytes) : ChunkStorage :=
  [.retrieveChunk chunkId fallbackPath (s.pathExists fallbackPath), .openChunk s.nextOp,
    .seekEnd s.nextOp, .readChunk s.nextOp n, .readChunk s.nextOp n].foldl step s

/-! ## A store -/

/-- From `s` to `s'` only the file of this name was worked on. -/
structure WorksOn (name : Bytes) (s s' : ChunkStorage) : Prop where
  chunkRegistry : s'.chunkRegistry = s.chunkRegistry
  seq : s'.seq = s.seq
  storagePath : s'.storagePath = s.storagePath
  others : ∀ name' ≠ name, s'.files.read? name' = s.files.read? name'

lemma WorksOn.trans {name : Bytes} {s s' s'' : ChunkStorage} (h : WorksOn name s s')
    (h' : WorksOn name s' s'') : WorksOn name s s'' where
  chunkRegistry := h'.chunkRegistry.trans h.chunkRegistry
  seq := h'.seq.trans h.seq
  storagePath := h'.storagePath.trans h.storagePath
  others := fun name' hne => (h'.others name' hne).trans (h.others name' hne)

/-- The store is writing its file, and this is what it has written. -/
structure Writing (s : ChunkStorage) (op : Nat) (chunkId path data : Bytes) (written : Nat) :
    Prop where
  le : written ≤ data.length
  file : ∃ file, s.stores[op]? = some { chunkId, path, data, phase := .writing file written } ∧
    s.files.names[cString path]? = some file ∧ s.files.content file = data.take written

lemma Writing.read? {s : ChunkStorage} {op written : Nat} {chunkId path data : Bytes}
    (h : s.Writing op chunkId path data written) :
    s.files.read? (cString path) = some (data.take written) := by
  obtain ⟨file, -, hname, hcontent⟩ := h.file
  rw [FileSystem.read?_of_names hname, hcontent]

lemma writing_openFile {s : ChunkStorage} {op : Nat} {chunkId path data : Bytes}
    (h : s.stores[op]? = some { chunkId, path, data, phase := .submitted }) :
    WorksOn (cString path) s (s.step (.openFile op true)) ∧
      (s.step (.openFile op true)).Writing op chunkId path data 0 := by
  rw [step, openFile, h]
  refine ⟨⟨rfl, rfl, rfl, fun name' hne => (s.files.sameFile_create hne).read?⟩, Nat.zero_le _,
    s.files.fileOf (cString path), ?_, ?_, ?_⟩
  · simp
  · simp
  · simp [FileSystem.content_create]

lemma writing_writeFile {s : ChunkStorage} {op written : Nat} {chunkId path data : Bytes}
    (h : s.Writing op chunkId path data written) (n : Nat) :
    WorksOn (cString path) s (s.step (.writeFile op (some n))) ∧
      (s.step (.writeFile op (some n))).Writing op chunkId path data
        (min (written + n) data.length) := by
  obtain ⟨hle, file, htask, hname, hcontent⟩ := h
  rw [step, writeFile, htask]
  dsimp only
  by_cases hlt : written < data.length
  · have hcount : written + ((data.drop written).take n).length =
        min (written + n) data.length := by
      rw [List.length_take, List.length_drop]
      omega
    rw [if_pos hlt]
    refine ⟨⟨rfl, rfl, rfl, fun name' hne =>
      (FileSystem.sameFile_writeAt hname hne _ _).read?⟩, Nat.min_le_right _ _, file, ?_, hname, ?_⟩
    · rw [Map.get_insert, if_pos rfl, hcount]
    · rw [FileSystem.content_writeAt, if_pos rfl, hcontent, overwrite_take hle, hcount]
  · -- everything is written
    have hcount : min (written + n) data.length = written := by omega
    rw [if_neg hlt, hcount]
    exact ⟨⟨rfl, rfl, rfl, fun _ _ => rfl⟩, hle, file, htask, hname, hcontent⟩

lemma writing_storeChunk (s : ChunkStorage) (epochUs : Int) (chunkId data : Bytes) (n : Nat) :
    let path := s.generateChunkPath chunkId epochUs
    let s' := [.storeChunk chunkId data epochUs, .openFile s.nextOp true,
      .writeFile s.nextOp (some n)].foldl step s
    WorksOn (cString path) (s.storeChunk chunkId data epochUs) s' ∧
      s'.Writing s.nextOp chunkId path data (min n data.length) := by
  intro path s'
  have hsubmitted : (s.storeChunk chunkId data epochUs).stores[s.nextOp]? =
      some { chunkId, path, data, phase := .submitted } := by
    rw [storeChunk, Map.get_insert, if_pos rfl]
  obtain ⟨hopen, hwriting⟩ := writing_openFile hsubmitted
  obtain ⟨hwrite, hwritten⟩ := writing_writeFile hwriting n
  rw [Nat.zero_add] at hwritten
  exact ⟨hopen.trans hwrite, hwritten⟩

lemma Writing.step_register {s : ChunkStorage} {op written : Nat} {chunkId path data : Bytes}
    (h : s.Writing op chunkId path data written) (hall : data.length ≤ written) :
    s.step (.register op) =
      { s with
        chunkRegistry := s.chunkRegistry.insert chunkId path
        stores := s.stores.erase op
        storeResults := s.storeResults.insert op (some path) } := by
  obtain ⟨file, htask, -, -⟩ := h.file
  rw [step, register, htask]
  exact if_neg (not_lt.mpr hall)

/-- A write fails, if there is anything left to write. -/
lemma Writing.step_writeFile {s : ChunkStorage} {op written : Nat} {chunkId path data : Bytes}
    (h : s.Writing op chunkId path data written) :
    s.step (.writeFile op none) = if written < data.length then s.storeFails op else s := by
  obtain ⟨file, htask, -, -⟩ := h.file
  rw [step, writeFile, htask]

lemma step_register_storeFails (s : ChunkStorage) (op : Nat) :
    (s.storeFails op).step (.register op) = s.storeFails op := by
  rw [step, register, storeFails, Map.get_erase, if_pos rfl]

/-- What a store leaves in its file. -/
def storeLeaves (data : Bytes) : StoreFault → Bytes
  | .openFails => []
  | .writeFails written => data.take written
  | .none => data

/-- **What a store does**: it leaves a file, and enters it in the registry if all of it was
written. -/
structure AfterStore (s s' : ChunkStorage) (fault : StoreFault) (epochUs : Int)
    (chunkId data : Bytes) : Prop where
  chunkRegistry : s'.chunkRegistry = if fault.writesAll data then
    s.chunkRegistry.insert chunkId (s.generateChunkPath chunkId epochUs) else s.chunkRegistry
  seq : s'.seq = s.nextSeq
  storagePath : s'.storagePath = s.storagePath
  files : ∀ name, s'.files.read? name =
    if fault.opens ∧ name = cString (s.generateChunkPath chunkId epochUs) then
      some (storeLeaves data fault) else s.files.read? name

/-- The file of a store that could be opened. -/
lemma WorksOn.read? {s s' : ChunkStorage} {op written : Nat} {chunkId path data : Bytes}
    (h : WorksOn (cString path) s s') (hwriting : s'.Writing op chunkId path data written)
    (name : Bytes) : s'.files.read? name =
      if name = cString path then some (data.take written) else s.files.read? name := by
  split_ifs with hname
  · rw [hname, hwriting.read?]
  · exact h.others name hname

theorem afterStore (s : ChunkStorage) (fault : StoreFault) (epochUs : Int) (chunkId data : Bytes) :
    AfterStore s (s.completedStore fault epochUs chunkId data) fault epochUs chunkId data := by
  cases fault with
  | openFails =>
      have hstate : s.completedStore .openFails epochUs chunkId data =
          (s.storeChunk chunkId data epochUs).storeFails s.nextOp := by
        simp only [completedStore, storeEvents, List.foldl_cons, List.foldl_nil, step]
        rw [openFile, storeChunk, Map.get_insert, if_pos rfl]
        rfl
      rw [hstate]
      exact ⟨rfl, rfl, rfl, fun name => (if_neg (by simp [StoreFault.opens])).symm⟩
  | none =>
      obtain ⟨hworks, hwriting⟩ := writing_storeChunk s epochUs chunkId data data.length
      rw [Nat.min_self] at hwriting
      have hstate : s.completedStore .none epochUs chunkId data = _ :=
        hwriting.step_register le_rfl
      rw [hstate]
      refine ⟨?_, hworks.seq, hworks.storagePath, fun name => ?_⟩
      · rw [StoreFault.writesAll, if_pos rfl, hworks.chunkRegistry]
        rfl
      · rw [hworks.read? hwriting name, List.take_of_length_le le_rfl]
        simp [StoreFault.opens, storeLeaves, storeChunk]
  | writeFails written =>
      obtain ⟨hworks, hwriting⟩ := writing_storeChunk s epochUs chunkId data written
      have hstate : s.completedStore (.writeFails written) epochUs chunkId data =
          (([.storeChunk chunkId data epochUs, .openFile s.nextOp true,
            .writeFile s.nextOp (some written)].foldl step s).step
              (.writeFile s.nextOp none)).step (.register s.nextOp) := rfl
      rw [hstate]
      generalize [.storeChunk chunkId data epochUs, .openFile s.nextOp true,
        .writeFile s.nextOp (some written)].foldl step s = s' at hworks hwriting ⊢
      have hfiles : ∀ name, s'.files.read? name =
          if StoreFault.opens (.writeFails written) ∧
              name = cString (s.generateChunkPath chunkId epochUs) then
            some (storeLeaves data (.writeFails written)) else s.files.read? name := by
        intro name
        rw [hworks.read? hwriting name, storeLeaves, ← List.take_eq_take_min]
        simp [StoreFault.opens, storeChunk]
      rw [hwriting.step_writeFile]
      by_cases hall : data.length ≤ written
      · -- there was no write left to fail
        rw [if_neg (by omega), hwriting.step_register (by omega)]
        refine ⟨?_, hworks.seq, hworks.storagePath, hfiles⟩
        rw [StoreFault.writesAll, if_pos (decide_eq_true hall), hworks.chunkRegistry]
        rfl
      · rw [if_pos (by omega), step_register_storeFails]
        refine ⟨?_, hworks.seq, hworks.storagePath, hfiles⟩
        rw [StoreFault.writesAll, if_neg (by simpa using hall)]
        exact hworks.chunkRegistry

/-! ## A deletion -/

/-- **What a deletion does**: it takes the entry out of the registry, and the file off the disk if
the file system lets it go. -/
structure AfterDelete (s s' : ChunkStorage) (removes : Bool) (chunkId : Bytes) : Prop where
  chunkRegistry : s'.chunkRegistry = s.chunkRegistry.erase chunkId
  seq : s'.seq = s.seq
  storagePath : s'.storagePath = s.storagePath
  files : ∀ name, s'.files.read? name =
    if removes = true ∧ (s.chunkRegistry[chunkId]?).map cString = some name then none
    else s.files.read? name

theorem afterDelete (s : ChunkStorage) (removes : Bool) (chunkId : Bytes) :
    AfterDelete s (s.completedDelete removes chunkId) removes chunkId := by
  rw [completedDelete]
  cases hreg : s.chunkRegistry[chunkId]? with
  | none =>
      have hstate : [StorageEvent.eraseChunk chunkId].foldl step s =
          { s with
            deleteResults := s.deleteResults.insert s.nextOp false
            nextOp := s.nextOp + 1 } := by
        rw [List.foldl_cons, step, eraseChunk, hreg]
        rfl
      rw [if_neg (by simp), hstate]
      refine ⟨?_, rfl, rfl, fun name => by simp [hreg]⟩
      refine Std.ExtTreeMap.ext_getElem? fun key => ?_
      rw [Map.get_erase]
      split_ifs with hkey
      · rw [hkey]
        exact hreg
      · rfl
  | some path =>
      have hstate : [.eraseChunk chunkId, .removeFile s.nextOp removes].foldl step s =
          { s with
            chunkRegistry := s.chunkRegistry.erase chunkId
            files := if removes then s.files.unlink (cString path) else s.files
            removals := (s.removals.insert s.nextOp path).erase s.nextOp
            deleteResults := s.deleteResults.insert s.nextOp removes
            nextOp := s.nextOp + 1 } := by
        rw [List.foldl_cons, step, eraseChunk, hreg, List.foldl_cons, step, removeFile,
          Map.get_insert, if_pos rfl]
        rfl
      rw [if_pos Option.isSome_some, hstate]
      refine ⟨rfl, rfl, rfl, fun name => ?_⟩
      rw [hreg, Option.map_some]
      cases removes with
      | false => simp
      | true =>
          dsimp only
          rw [if_pos rfl]
          by_cases hname : name = cString path
          · rw [if_pos ⟨rfl, by rw [hname]⟩, hname, FileSystem.read?, FileSystem.names_unlink,
              if_pos rfl, Option.map_none]
          · rw [if_neg (by simpa using Ne.symm hname)]
            exact (s.files.sameFile_unlink hname).read?

/-! ## A retrieval -/

/-- Nothing happens to a retrieval that has returned. -/
lemma step_of_returned {s : ChunkStorage} {op : Nat} (h : s.retrievals[op]? = none) (n : Nat) :
    s.step (.openChunk op) = s ∧ s.step (.seekEnd op) = s ∧ s.step (.readChunk op n) = s := by
  rw [step, openChunk, h, step, seekEnd, h, step, readChunk, h]
  exact ⟨rfl, rfl, rfl⟩

/-- The job of a retrieval, when its reads get as much as the file has. -/
lemma results_submitRetrieval (s : ChunkStorage) {n : Nat} (path : Bytes)
    (hn : ∀ name data, s.files.read? name = some data → data.length ≤ n) :
    ([.openChunk s.nextOp, .seekEnd s.nextOp, .readChunk s.nextOp n,
      .readChunk s.nextOp n].foldl step (s.submitRetrieval path)).retrieveResults[s.nextOp]? =
        some ((s.files.read? (cString path)).getD []) := by
  cases hname : s.files.names[cString path]? with
  | none =>
      simp [step, submitRetrieval, openChunk, seekEnd, readChunk, retrieveReturns, hname,
        FileSystem.read?]
  | some file =>
      have hlength := hn _ _ (FileSystem.read?_of_names hname)
      have htake : (s.files.content file).take (min (n + 1) (s.files.content file).length) =
          s.files.content file := List.take_of_length_le (by omega)
      rw [FileSystem.read?_of_names hname, Option.getD_some]
      -- the first read gets everything, and the second finds that there is no more
      by_cases hdata : s.files.content file = [] <;>
        simp [step, submitRetrieval, openChunk, seekEnd, readChunk, retrieveReturns, hname, hdata,
          htake]

/-! ## The node of single steps -/

/-- The node as the rest of the development has it. -/
def toNode (s : ChunkStorage) : Node where
  storagePath := s.storagePath
  chunkRegistry := s.chunkRegistry
  disk := Std.ExtTreeMap.map (fun _ file => s.files.content file) s.files.names
  seq := s.seq

@[simp] lemma disk_toNode (s : ChunkStorage) (name : Bytes) :
    s.toNode.disk[name]? = s.files.read? name :=
  Map.get_map _ _ _

lemma toNode_eq {s : ChunkStorage} {node : Node} (hrunning : node.running = true)
    (hpath : s.storagePath = node.storagePath) (hreg : s.chunkRegistry = node.chunkRegistry)
    (hdisk : ∀ name : Bytes, s.files.read? name = node.disk[name]?) (hseq : s.seq = node.seq) :
    s.toNode = node := by
  have hdisk' : s.toNode.disk = node.disk := by
    refine Std.ExtTreeMap.ext_getElem? fun name => ?_
    rw [disk_toNode, hdisk]
  cases node
  simp only [toNode] at *
  simp only [Node.mk.injEq]
  exact ⟨hrunning.symm, hpath, hreg, hdisk', hseq⟩

/-- **A store is one step of the node**, if there is no NUL byte in its path and, if a write fails,
there was something to write. -/
theorem toNode_completedStore {s : ChunkStorage} {fault : StoreFault} {epochUs : Int}
    {chunkId data : Bytes} (hdir : (0 : UInt8) ∉ s.storagePath) (hkey : (0 : UInt8) ∉ chunkId)
    (hfault : ∀ written, fault = .writeFails written → written < data.length) :
    (s.completedStore fault epochUs chunkId data).toNode =
      (s.toNode.storeChunk fault epochUs chunkId data).1 := by
  have hafter := s.afterStore fault epochUs chunkId data
  have hname : cString (s.generateChunkPath chunkId epochUs) =
      s.generateChunkPath chunkId epochUs :=
    cString_of_not_mem (zero_not_mem_chunkPath hdir hkey _ _)
  have hgen : s.toNode.generateChunkPath chunkId epochUs = s.generateChunkPath chunkId epochUs :=
    rfl
  refine toNode_eq ?_ ?_ ?_ (fun name => ?_) ?_
  · rw [Node.running_storeChunk]
    rfl
  · rw [Node.storagePath_storeChunk]
    exact hafter.storagePath
  · rw [hafter.chunkRegistry]
    cases fault with
    | openFails => rfl
    | writeFails written =>
        rw [StoreFault.writesAll, if_neg (by simpa using hfault written rfl)]
        rfl
    | none => rfl
  · rw [hafter.files, hname]
    cases fault with
    | openFails => simp [StoreFault.opens, Node.storeChunk]
    | writeFails written =>
        simp [StoreFault.opens, storeLeaves, Node.storeChunk, hgen]
    | none => simp [StoreFault.opens, storeLeaves, Node.storeChunk, hgen]
  · rw [hafter.seq]
    cases fault <;> rfl

/-- **A deletion is one step of the node**, if there is no NUL byte in the path it removes. -/
theorem toNode_completedDelete {s : ChunkStorage} {removes : Bool} {chunkId : Bytes}
    (hplain : ∀ path : Bytes, s.chunkRegistry[chunkId]? = some path → (0 : UInt8) ∉ path) :
    (s.completedDelete removes chunkId).toNode = (s.toNode.deleteChunk removes chunkId).1 := by
  have hafter := s.afterDelete removes chunkId
  have hreg : (s.toNode.deleteChunk removes chunkId).1.chunkRegistry =
      s.chunkRegistry.erase chunkId := by
    refine Std.ExtTreeMap.ext_getElem? fun key => ?_
    rw [Node.get_deleteChunk, Map.get_erase]
    rfl
  refine toNode_eq ?_ ?_ ?_ (fun name => ?_) ?_
  · rw [Node.running_deleteChunk]
    rfl
  · rw [hafter.storagePath, Node.deleteChunk]
    cases s.toNode.chunkRegistry[chunkId]? <;> cases removes <;> rfl
  · rw [hafter.chunkRegistry, hreg]
  · have hentry : s.toNode.chunkRegistry[chunkId]? = s.chunkRegistry[chunkId]? := rfl
    rw [hafter.files, Node.deleteChunk, hentry]
    cases hpath : s.chunkRegistry[chunkId]? with
    | none =>
        rw [if_neg (by simp)]
        exact (disk_toNode s name).symm
    | some path =>
        have hname : cString path = path := cString_of_not_mem (hplain path hpath)
        cases removes with
        | false =>
            rw [if_neg (by simp)]
            exact (disk_toNode s name).symm
        | true =>
            dsimp only
            rw [if_pos rfl, Map.get_erase, disk_toNode, Option.map_some, hname]
            simp only [true_and, Option.some.injEq, eq_comm]
  · rw [hafter.seq, Node.deleteChunk]
    cases s.toNode.chunkRegistry[chunkId]? <;> cases removes <;> rfl

/-- The steps of a retrieval on the pool do not show on the node. -/
lemma toNode_step_of_reader {s : ChunkStorage} {e : StorageEvent} {op : Nat}
    (he : e.reader = some op) : (s.step e).toNode = s.toNode := by
  have heffect := effect_step s e
  generalize s.step e = s' at heffect ⊢
  cases heffect with
  | fails he' => rcases he' with rfl | rfl <;> cases he
  | idle hidle => rfl
  | reads htask he' => rfl
  | returns data htask he' => rfl
  | _ => cases he

/-- A retrieval shows on the node what its critical section does. -/
lemma toNode_completedRetrieve_eq (s : ChunkStorage) (n : Nat) (chunkId fallbackPath : Bytes) :
    (s.completedRetrieve n chunkId fallbackPath).toNode =
      (s.retrieveChunk chunkId fallbackPath (s.pathExists fallbackPath)).toNode := by
  simp only [completedRetrieve, List.foldl_cons, List.foldl_nil]
  rw [toNode_step_of_reader rfl, toNode_step_of_reader rfl, toNode_step_of_reader rfl,
    toNode_step_of_reader rfl]
  rfl

/-- **A retrieval is one step of the node**, and returns the same, if there is no NUL byte in the
path it opens. -/
theorem toNode_completedRetrieve {s : ChunkStorage} {n : Nat} {chunkId fallbackPath : Bytes}
    (hunused : s.retrievals[s.nextOp]? = none)
    (hn : ∀ name data, s.files.read? name = some data → data.length ≤ n)
    (hplain : ∀ path : Bytes, s.chunkRegistry[chunkId]? = some path → (0 : UInt8) ∉ path)
    (hfallback : (0 : UInt8) ∉ fallbackPath) :
    (s.completedRetrieve n chunkId fallbackPath).toNode =
        (s.toNode.retrieveChunk chunkId fallbackPath).1 ∧
      (s.completedRetrieve n chunkId fallbackPath).retrieveResults[s.nextOp]? =
        some (s.toNode.retrieveChunk chunkId fallbackPath).2 := by
  have hrun : s.completedRetrieve n chunkId fallbackPath =
      [.openChunk s.nextOp, .seekEnd s.nextOp, .readChunk s.nextOp n, .readChunk s.nextOp n].foldl
        step (s.retrieveChunk chunkId fallbackPath (s.pathExists fallbackPath)) := rfl
  have hentry : s.toNode.chunkRegistry[chunkId]? = s.chunkRegistry[chunkId]? := rfl
  have hname : cString fallbackPath = fallbackPath := cString_of_not_mem hfallback
  rw [toNode_completedRetrieve_eq, hrun, retrieveChunk]
  cases hreg : s.chunkRegistry[chunkId]? with
  | some path =>
      have hnode : s.toNode.retrieveChunk chunkId fallbackPath =
          (s.toNode, (s.files.read? path).getD []) := by simp [Node.retrieveChunk, hentry, hreg]
      rw [hnode]
      refine ⟨rfl, (s.results_submitRetrieval path hn).trans ?_⟩
      rw [cString_of_not_mem (hplain path hreg)]
  | none =>
      have hexists : s.pathExists fallbackPath = (s.files.read? fallbackPath).isSome := by
        rw [pathExists, hname, FileSystem.read?, Option.isSome_map]
      dsimp only
      rw [hexists]
      by_cases hadopts : fallbackPath ≠ [] ∧ (s.files.read? fallbackPath).isSome = true
      · -- the path of the request is entered
        obtain ⟨data, hdata⟩ := Option.isSome_iff_exists.mp hadopts.2
        have hnode : s.toNode.retrieveChunk chunkId fallbackPath =
            ({ s.toNode with chunkRegistry := s.chunkRegistry.insert chunkId fallbackPath },
              data) := by
          simp only [Node.retrieveChunk, hentry, hreg, disk_toNode, hdata, if_pos hadopts.1]
          rfl
        rw [if_pos hadopts, hnode]
        refine ⟨rfl, (results_submitRetrieval { s with
          chunkRegistry := s.chunkRegistry.insert chunkId fallbackPath } fallbackPath hn).trans ?_⟩
        rw [hname, hdata, Option.getD_some]
      · -- there is nothing to read
        have hnode : s.toNode.retrieveChunk chunkId fallbackPath = (s.toNode, []) := by
          simp only [Node.retrieveChunk, hentry, hreg, disk_toNode]
          cases hdata : s.files.read? fallbackPath with
          | none => rfl
          | some data => exact if_neg fun hne => hadopts ⟨hne, by rw [hdata]; rfl⟩
        have hdone : ({ s with
            retrieveResults := s.retrieveResults.insert s.nextOp []
            nextOp := s.nextOp + 1 } : ChunkStorage).retrievals[s.nextOp]? = none := hunused
        obtain ⟨hopen, hseek, hread⟩ := step_of_returned hdone n
        rw [if_neg hadopts, hnode]
        simp only [List.foldl_cons, List.foldl_nil, hopen, hseek, hread]
        exact ⟨rfl, by simp⟩

end ChunkStorage

end FileGrid
