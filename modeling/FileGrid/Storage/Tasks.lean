import FileGrid.Core.FileSystem
import FileGrid.Core.Runs
import FileGrid.Storage.ChunkStorage

/-!
# The storage of a node, one system call at a time

`ChunkStorage` as its callers and the threads of the I/O pool see it.  A store chooses its path when
it is submitted, writes the file on a pool thread and enters it in the registry at the end; a
retrieval looks the path up when it is submitted and opens, measures and reads the file later; a
deletion takes the entry out of the registry and removes the file after that.  Between any two of
these steps the others may take theirs, so one event here is one system call, or one critical
section of `registry_mutex`, and a run is any list of events.

Paths are handed to the operating system as C strings, so a path ends there at its first NUL byte,
wherever the `std::string` ends; chunk identifiers come from the network and may have one.  Whether
a path exists that came from the network is an input: it may be a directory, or a file under another
spelling of its name.

What an event can do is said once, in `effect_step`; every invariant of the storage is proved from
it.  What a run has completed is read off the run by `completions`.
-/

namespace FileGrid

/-- What the operating system reads of a `std::string`. -/
def cString (s : Bytes) : Bytes := s.takeWhile (· ≠ 0)

lemma cString_of_not_mem {s : Bytes} (h : (0 : UInt8) ∉ s) : cString s = s := by
  rw [cString, List.takeWhile_eq_self_iff]
  intro b hb
  simpa using fun h' : b = 0 => h (h' ▸ hb)

lemma zero_not_mem_dec (n : Int) : (0 : UInt8) ∉ dec n := by
  intro h
  rcases mem_dec h with h | h
  · simp [isDigit] at h
  · simp at h

lemma zero_not_mem_chunkPath {dir key : Bytes} (hdir : (0 : UInt8) ∉ dir)
    (hkey : (0 : UInt8) ∉ key) (us : Int) (seq : Nat) : (0 : UInt8) ∉ chunkPath dir key us seq := by
  have hlit : ∀ s ∈ [ascii "chunk_", ascii "_", ascii ".dat"], (0 : UInt8) ∉ s := by decide
  intro h
  simp only [chunkPath, List.mem_append] at h
  rcases h with ((((((h | h) | h) | h) | h) | h) | h) | h
  · exact hdir h
  · exact hlit _ (by simp) h
  · exact hkey h
  · exact hlit _ (by simp) h
  · exact zero_not_mem_dec us h
  · exact hlit _ (by simp) h
  · exact zero_not_mem_dec seq (by rwa [dec_natCast])
  · exact hlit _ (by simp) h

inductive StorePhase
  | submitted
  /-- The file is open, and so many bytes are written. -/
  | writing (file written : Nat)
deriving DecidableEq

/-- A store on the pool. -/
structure StoreTask where
  chunkId : Bytes
  path : Bytes
  data : Bytes
  phase : StorePhase
deriving DecidableEq

inductive RetrievePhase
  | submitted
  | opened (file : Nat)
  /-- The file had this size, and these bytes of it are read. -/
  | reading (file fileSize : Nat) (data : Bytes)
deriving DecidableEq

/-- A retrieval on the pool. -/
structure RetrieveTask where
  chunkPath : Bytes
  phase : RetrievePhase
deriving DecidableEq

/-- The storage of a node with the operations under way, by number.  The results are the values of
the futures; `issued` remembers what `generate_chunk_path` was asked for, and nothing reads it. -/
structure ChunkStorage where
  storagePath : Bytes := ascii "/var/cluster_storage/"
  chunkRegistry : Map Bytes Bytes := ∅
  seq : Nat := 0
  files : FileSystem
  stores : Map Nat StoreTask := ∅
  retrievals : Map Nat RetrieveTask := ∅
  removals : Map Nat Bytes := ∅
  storeResults : Map Nat (Option Bytes) := ∅
  retrieveResults : Map Nat Bytes := ∅
  deleteResults : Map Nat Bool := ∅
  nextOp : Nat := 0
  issued : List (Bytes × Int × Nat) := []

inductive StorageEvent
  /-- `async_store_chunk` is called. -/
  | storeChunk (chunkId data : Bytes) (epochUs : Int)
  /-- A pool thread opens the file of a store, or fails to. -/
  | openFile (op : Nat) (opens : Bool)
  /-- It writes so many bytes, or fails to. -/
  | writeFile (op : Nat) (n : Option Nat)
  /-- It has written all and enters the file in the registry. -/
  | register (op : Nat)
  /-- `async_retrieve_chunk` is called, and `fs::exists(fallback_path)` says this if it is asked. -/
  | retrieveChunk (chunkId fallbackPath : Bytes) (pathExists : Bool)
  /-- A pool thread opens the file of a retrieval. -/
  | openChunk (op : Nat)
  | seekEnd (op : Nat)
  /-- It reads at most `n + 1` bytes, or is done. -/
  | readChunk (op n : Nat)
  /-- `open`, `lseek` or `read` fails. -/
  | readFails (op : Nat)
  /-- `delete_chunk` is called, up to the end of its critical section. -/
  | eraseChunk (chunkId : Bytes)
  /-- `fs::remove`, which may throw. -/
  | removeFile (op : Nat) (removes : Bool)
deriving DecidableEq

/-- The key that the storage is called with. -/
def StorageEvent.callKey : StorageEvent → Option Bytes
  | .storeChunk chunkId _ _ | .retrieveChunk chunkId _ _ | .eraseChunk chunkId => some chunkId
  | _ => none

/-- The retrieval that an event is a step of. -/
def StorageEvent.reader : StorageEvent → Option Nat
  | .openChunk op | .seekEnd op | .readChunk op _ | .readFails op => some op
  | _ => none

namespace ChunkStorage

/-! ## The operations -/

def nextSeq (s : ChunkStorage) : Nat := (s.seq + 1) % 2 ^ 64

def generateChunkPath (s : ChunkStorage) (chunkId : Bytes) (epochUs : Int) : Bytes :=
  chunkPath s.storagePath chunkId epochUs s.nextSeq

def storeChunk (s : ChunkStorage) (chunkId data : Bytes) (epochUs : Int) : ChunkStorage :=
  { s with
    seq := s.nextSeq
    stores := s.stores.insert s.nextOp
      { chunkId, path := s.generateChunkPath chunkId epochUs, data, phase := .submitted }
    nextOp := s.nextOp + 1
    issued := s.issued ++ [(chunkId, epochUs, s.nextSeq)] }

/-- The store returns `{false, ""}`. -/
def storeFails (s : ChunkStorage) (op : Nat) : ChunkStorage :=
  { s with stores := s.stores.erase op, storeResults := s.storeResults.insert op none }

def openFile (s : ChunkStorage) (op : Nat) (opens : Bool) : ChunkStorage :=
  match s.stores[op]? with
  | some { chunkId, path, data, phase := .submitted } =>
      if opens then
        { s with
          files := s.files.create (cString path)
          stores := s.stores.insert op
            { chunkId, path, data, phase := .writing (s.files.fileOf (cString path)) 0 } }
      else s.storeFails op
  | _ => s

def writeFile (s : ChunkStorage) (op : Nat) (n : Option Nat) : ChunkStorage :=
  match s.stores[op]? with
  | some { chunkId, path, data, phase := .writing file written } =>
      if written < data.length then
        match n with
        | none => s.storeFails op
        | some n =>
            let piece := (data.drop written).take n
            { s with
              files := s.files.writeAt file written piece
              stores := s.stores.insert op
                { chunkId, path, data, phase := .writing file (written + piece.length) } }
      else s
  | _ => s

def register (s : ChunkStorage) (op : Nat) : ChunkStorage :=
  match s.stores[op]? with
  | some { chunkId, path, data, phase := .writing _ written } =>
      if written < data.length then s
      else
        { s with
          chunkRegistry := s.chunkRegistry.insert chunkId path
          stores := s.stores.erase op
          storeResults := s.storeResults.insert op (some path) }
  | _ => s

/-- The job of a retrieval goes to the pool. -/
def submitRetrieval (s : ChunkStorage) (chunkPath : Bytes) : ChunkStorage :=
  { s with
    retrievals := s.retrievals.insert s.nextOp { chunkPath, phase := .submitted }
    nextOp := s.nextOp + 1 }

def retrieveChunk (s : ChunkStorage) (chunkId fallbackPath : Bytes) (pathExists : Bool) :
    ChunkStorage :=
  match s.chunkRegistry[chunkId]? with
  | some chunkPath => s.submitRetrieval chunkPath
  | none =>
      if fallbackPath ≠ [] ∧ pathExists then
        { s with chunkRegistry := s.chunkRegistry.insert chunkId fallbackPath }.submitRetrieval
          fallbackPath
      else
        { s with
          retrieveResults := s.retrieveResults.insert s.nextOp []
          nextOp := s.nextOp + 1 }

def retrieveReturns (s : ChunkStorage) (op : Nat) (data : Bytes) : ChunkStorage :=
  { s with
    retrievals := s.retrievals.erase op
    retrieveResults := s.retrieveResults.insert op data }

def openChunk (s : ChunkStorage) (op : Nat) : ChunkStorage :=
  match s.retrievals[op]? with
  | some { chunkPath, phase := .submitted } =>
      match s.files.names[cString chunkPath]? with
      | none => s.retrieveReturns op []
      | some file =>
          { s with
            retrievals := s.retrievals.insert op { chunkPath, phase := .opened file } }
  | _ => s

def seekEnd (s : ChunkStorage) (op : Nat) : ChunkStorage :=
  match s.retrievals[op]? with
  | some { chunkPath, phase := .opened file } =>
      { s with
        retrievals := s.retrievals.insert op
          { chunkPath, phase := .reading file (s.files.content file).length [] } }
  | _ => s

/-- One round of the loop that fills `data`, which has `file_size` zero bytes at first. -/
def readChunk (s : ChunkStorage) (op n : Nat) : ChunkStorage :=
  match s.retrievals[op]? with
  | some { chunkPath, phase := .reading file fileSize data } =>
      let piece := ((s.files.content file).drop data.length).take
        (min (n + 1) (fileSize - data.length))
      if piece = [] then
        s.retrieveReturns op (data ++ List.replicate (fileSize - data.length) 0)
      else
        { s with
          retrievals := s.retrievals.insert op
            { chunkPath, phase := .reading file fileSize (data ++ piece) } }
  | _ => s

def readFails (s : ChunkStorage) (op : Nat) : ChunkStorage :=
  match s.retrievals[op]? with
  | some _ => s.retrieveReturns op []
  | none => s

def eraseChunk (s : ChunkStorage) (chunkId : Bytes) : ChunkStorage :=
  match s.chunkRegistry[chunkId]? with
  | none =>
      { s with deleteResults := s.deleteResults.insert s.nextOp false, nextOp := s.nextOp + 1 }
  | some chunkPath =>
      { s with
        chunkRegistry := s.chunkRegistry.erase chunkId
        removals := s.removals.insert s.nextOp chunkPath
        nextOp := s.nextOp + 1 }

def removeFile (s : ChunkStorage) (op : Nat) (removes : Bool) : ChunkStorage :=
  match s.removals[op]? with
  | none => s
  | some chunkPath =>
      { s with
        files := if removes then s.files.unlink (cString chunkPath) else s.files
        removals := s.removals.erase op
        deleteResults := s.deleteResults.insert op removes }

def step (s : ChunkStorage) : StorageEvent → ChunkStorage
  | .storeChunk chunkId data epochUs => s.storeChunk chunkId data epochUs
  | .openFile op opens => s.openFile op opens
  | .writeFile op n => s.writeFile op n
  | .register op => s.register op
  | .retrieveChunk chunkId fallbackPath pathExists =>
      s.retrieveChunk chunkId fallbackPath pathExists
  | .openChunk op => s.openChunk op
  | .seekEnd op => s.seekEnd op
  | .readChunk op n => s.readChunk op n
  | .readFails op => s.readFails op
  | .eraseChunk chunkId => s.eraseChunk chunkId
  | .removeFile op removes => s.removeFile op removes

/-- Nothing is registered and nothing is under way, as when a process has just started.  The
directory may hold files, of an earlier process of the node for example. -/
structure Idle (s : ChunkStorage) : Prop where
  chunkRegistry : s.chunkRegistry = ∅
  stores : s.stores = ∅
  retrievals : s.retrievals = ∅
  removals : s.removals = ∅
  retrieveResults : s.retrieveResults = ∅

/-- And nothing was stored before. -/
structure Fresh (s : ChunkStorage) : Prop extends Idle s where
  seq : s.seq = 0
  issued : s.issued = []

/-! ## What completes -/

/-- What the event completes: a store, with the data of its chunk, or a deletion. -/
def completion (s : ChunkStorage) : StorageEvent → Option (Bytes × Option Bytes)
  | .register op =>
      match s.stores[op]? with
      | some { chunkId, data, phase := .writing _ written, .. } =>
          if written < data.length then none else some (chunkId, some data)
      | _ => none
  | .eraseChunk chunkId => some (chunkId, none)
  | _ => none

/-- What a run completes, in order. -/
def completions (s : ChunkStorage) : List StorageEvent → List (Bytes × Option Bytes)
  | [] => []
  | e :: events => (s.completion e).toList ++ completions (s.step e) events

/-! ## What an event can do -/

/-- The states that an event can lead to, by what it finds. -/
inductive Effect (s : ChunkStorage) : StorageEvent → ChunkStorage → Prop
  /-- There is no such operation, or it is not at this point. -/
  | idle {e} (h : s.completion e = none) : Effect s e s
  | submits (chunkId data epochUs) :
      Effect s (.storeChunk chunkId data epochUs) (s.storeChunk chunkId data epochUs)
  | opens {op chunkId path data}
      (h : s.stores[op]? = some { chunkId, path, data, phase := .submitted }) :
      Effect s (.openFile op true)
        { s with
          files := s.files.create (cString path)
          stores := s.stores.insert op
            { chunkId, path, data, phase := .writing (s.files.fileOf (cString path)) 0 } }
  | fails {e op} (he : e = .openFile op false ∨ e = .writeFile op none) :
      Effect s e (s.storeFails op)
  | writes {op chunkId path data file written n}
      (h : s.stores[op]? = some { chunkId, path, data, phase := .writing file written })
      (hlt : written < data.length) :
      Effect s (.writeFile op (some n))
        { s with
          files := s.files.writeAt file written ((data.drop written).take n)
          stores := s.stores.insert op
            { chunkId, path, data,
              phase := .writing file (written + ((data.drop written).take n).length) } }
  | registers {op chunkId path data file written}
      (h : s.stores[op]? = some { chunkId, path, data, phase := .writing file written })
      (hge : data.length ≤ written) :
      Effect s (.register op)
        { s with
          chunkRegistry := s.chunkRegistry.insert chunkId path
          stores := s.stores.erase op
          storeResults := s.storeResults.insert op (some path) }
  | finds {chunkId fallbackPath pathExists path} (h : s.chunkRegistry[chunkId]? = some path) :
      Effect s (.retrieveChunk chunkId fallbackPath pathExists) (s.submitRetrieval path)
  | adopts {chunkId fallbackPath} (h : s.chunkRegistry[chunkId]? = none)
      (hpath : fallbackPath ≠ []) :
      Effect s (.retrieveChunk chunkId fallbackPath true)
        ({ s with chunkRegistry := s.chunkRegistry.insert chunkId fallbackPath }.submitRetrieval
          fallbackPath)
  | misses {chunkId fallbackPath pathExists} (h : s.chunkRegistry[chunkId]? = none)
      (hpath : ¬ (fallbackPath ≠ [] ∧ pathExists = true)) :
      Effect s (.retrieveChunk chunkId fallbackPath pathExists)
        { s with
          retrieveResults := s.retrieveResults.insert s.nextOp []
          nextOp := s.nextOp + 1 }
  /-- A retrieval takes a step on the pool; nothing else changes. -/
  | reads {e op task phase} (h : s.retrievals[op]? = some task) (he : e.reader = some op) :
      Effect s e { s with retrievals := s.retrievals.insert op { task with phase } }
  | returns {e op task} (data) (h : s.retrievals[op]? = some task) (he : e.reader = some op) :
      Effect s e (s.retrieveReturns op data)
  | erases {chunkId path} (h : s.chunkRegistry[chunkId]? = some path) :
      Effect s (.eraseChunk chunkId)
        { s with
          chunkRegistry := s.chunkRegistry.erase chunkId
          removals := s.removals.insert s.nextOp path
          nextOp := s.nextOp + 1 }
  | unknown {chunkId} (h : s.chunkRegistry[chunkId]? = none) :
      Effect s (.eraseChunk chunkId)
        { s with deleteResults := s.deleteResults.insert s.nextOp false, nextOp := s.nextOp + 1 }
  | removes {op path} (removes : Bool) (h : s.removals[op]? = some path) :
      Effect s (.removeFile op removes)
        { s with
          files := if removes then s.files.unlink (cString path) else s.files
          removals := s.removals.erase op
          deleteResults := s.deleteResults.insert op removes }

/-- **What an event does**, whatever the state. -/
theorem effect_step (s : ChunkStorage) (e : StorageEvent) : Effect s e (s.step e) := by
  cases e with
  | storeChunk chunkId data epochUs => exact .submits chunkId data epochUs
  | openFile op opens =>
      rw [step, openFile]
      split
      · rename_i chunkId path data h
        cases opens with
        | true => exact .opens h
        | false => exact .fails (Or.inl rfl)
      · exact .idle rfl
  | writeFile op n =>
      rw [step, writeFile]
      split
      · rename_i chunkId path data file written h
        by_cases hlt : written < data.length
        · rw [if_pos hlt]
          cases n with
          | none => exact .fails (Or.inr rfl)
          | some n => exact .writes h hlt
        · rw [if_neg hlt]
          exact .idle rfl
      · exact .idle rfl
  | register op =>
      rw [step, register]
      split
      · rename_i chunkId path data file written h
        by_cases hlt : written < data.length
        · rw [if_pos hlt]
          exact .idle (by simp only [completion, h, if_pos hlt])
        · rw [if_neg hlt]
          exact .registers h (not_lt.mp hlt)
      · rename_i h
        refine .idle ?_
        rw [completion]
        split
        · rename_i hsome
          exact absurd hsome (h _ _ _ _ _)
        · rfl
  | retrieveChunk chunkId fallbackPath pathExists =>
      rw [step, retrieveChunk]
      cases h : s.chunkRegistry[chunkId]? with
      | some path => exact .finds h
      | none =>
          dsimp only
          by_cases hpath : fallbackPath ≠ [] ∧ pathExists = true
          · rw [if_pos hpath]
            obtain ⟨hne, rfl⟩ := hpath
            exact .adopts h hne
          · rw [if_neg hpath]
            exact .misses h hpath
  | openChunk op =>
      rw [step, openChunk]
      split
      · rename_i path h
        split
        · exact .returns [] h rfl
        · exact .reads h rfl
      · exact .idle rfl
  | seekEnd op =>
      rw [step, seekEnd]
      split
      · rename_i path file h
        exact .reads h rfl
      · exact .idle rfl
  | readChunk op n =>
      rw [step, readChunk]
      split
      · rename_i path file fileSize data h
        dsimp only
        split_ifs
        · exact .returns _ h rfl
        · exact .reads h rfl
      · exact .idle rfl
  | readFails op =>
      rw [step, readFails]
      split
      · rename_i task h
        exact .returns [] h rfl
      · exact .idle rfl
  | eraseChunk chunkId =>
      rw [step, eraseChunk]
      cases h : s.chunkRegistry[chunkId]? with
      | none => exact .unknown h
      | some path => exact .erases h
  | removeFile op removes =>
      rw [step, removeFile]
      split
      · exact .idle rfl
      · rename_i path h
        exact .removes removes h

/-! ## The loop that reads -/

/-- What a read of the file adds to what was read before. -/
lemma read_piece {data : Bytes} {total n : Nat} :
    data.take total ++ (data.drop (data.take total).length).take
      (min (n + 1) (data.length - (data.take total).length)) =
        data.take ((data.take total).length +
          min (n + 1) (data.length - (data.take total).length)) := by
  rw [List.take_add]
  congr 1
  rw [List.length_take, List.take_eq_take_iff]
  omega

/-- There is nothing to read exactly if all was read. -/
lemma read_piece_eq_nil {data : Bytes} {total n : Nat} :
    (data.drop (data.take total).length).take
      (min (n + 1) (data.length - (data.take total).length)) = [] ↔ data.length ≤ total := by
  rw [← List.length_eq_zero_iff, List.length_take, List.length_drop, List.length_take]
  omega

/-- **One round of the loop that reads**, in a file that holds the data. -/
lemma step_readChunk {s : ChunkStorage} {op file total : Nat} {path data : Bytes}
    (htask : s.retrievals[op]? =
      some { chunkPath := path, phase := .reading file data.length (data.take total) })
    (hcontent : s.files.content file = data) (n : Nat) :
    s.step (.readChunk op n) = if data.length ≤ total then s.retrieveReturns op data else
      { s with
        retrievals := s.retrievals.insert op
          { chunkPath := path
            phase := .reading file data.length (data.take ((data.take total).length +
              min (n + 1) (data.length - (data.take total).length))) } } := by
  rw [step, readChunk, htask]
  simp only [hcontent, read_piece_eq_nil, read_piece]
  split_ifs with hall
  · rw [List.take_of_length_le hall, Nat.sub_self, List.replicate_zero, List.append_nil]
  · rfl

/-- Every call takes a number, and nothing else does. -/
lemma nextOp_step (s : ChunkStorage) (e : StorageEvent) :
    (s.step e).nextOp = s.nextOp + e.callKey.toList.length := by
  cases hcall : e.callKey with
  | none =>
      have heffect := effect_step s e
      generalize s.step e = s' at heffect ⊢
      cases heffect with
      | submits | finds | adopts | misses | erases | unknown => cases hcall
      | _ => rfl
  | some key =>
      cases e with
      | storeChunk chunkId data epochUs => rfl
      | retrieveChunk chunkId fallbackPath pathExists =>
          rw [step, retrieveChunk]
          split
          · rfl
          · split_ifs <;> rfl
      | eraseChunk chunkId =>
          rw [step, eraseChunk]
          split <;> rfl
      | _ => cases hcall

end ChunkStorage

end FileGrid
