import FileGrid.Core.Map
import FileGrid.Common.Sha256

/-!
# A storage node

`ChunkStorage` of a cluster server and the requests the node answers: the framed messages of the
transfer port, `GET_CHUNK` on the public port and `DELETE_CHUNK` on the base port.

A node keeps chunks as files and remembers, in the in-memory `chunk_registry`, which file holds the
chunk of which key.  A restart loses the registry and keeps the files; the path that comes with a
fetch is then what finds the chunk again.  Three facts tie the two together.

* `chunkKey_injective` — a key determines the file name and the chunk identifier it is made of.
* `IsChunkFile.unique` — the path of a chunk file determines the key it was generated for, so
  storing one chunk never overwrites the file of another.
* `Node.Holds` — a node holds a chunk at a path when the file is there and whatever the registry
  says of the key leads to the same bytes.  Every request about *other* keys keeps it, and so do
  crashes and restarts; and a fetch of the chunk then returns those bytes.
-/

namespace FileGrid

/-- `unique_chunk_id`, the key of a chunk on every node. -/
def chunkKey (filename : Bytes) (chunkId : Int) : Bytes :=
  filename ++ ascii "_chunk_" ++ dec chunkId

/-- The state of a cluster server: its process and its disk. -/
structure Node where
  running : Bool := true
  storagePath : Bytes := ascii "/var/cluster_storage/"
  chunkRegistry : Map Bytes Bytes := ∅
  disk : Map Bytes Bytes := ∅
  seq : Nat := 0

/-- How the disk treats a store: the file cannot be created, or writing it fails half-way. -/
inductive StoreFault
  | none
  | openFails
  | writeFails (written : Nat)
deriving DecidableEq

/-- The name `generate_chunk_path` makes of its parts. -/
def chunkPath (storagePath chunkId : Bytes) (epochUs : Int) (seq : Nat) : Bytes :=
  storagePath ++ ascii "chunk_" ++ chunkId ++ ascii "_" ++ dec epochUs ++ ascii "_" ++ natDec seq ++
    ascii ".dat"

namespace Node

/-- `++seq`, a counter of 64 bits. -/
def nextSeq (node : Node) : Nat := (node.seq + 1) % 2 ^ 64

/-- `generate_chunk_path`. -/
def generateChunkPath (node : Node) (chunkId : Bytes) (epochUs : Int) : Bytes :=
  chunkPath node.storagePath chunkId epochUs node.nextSeq

/-- `async_store_chunk`: the path of the new file, if it was written. -/
def storeChunk (node : Node) (fault : StoreFault) (epochUs : Int) (chunkId data : Bytes) :
    Node × Option Bytes :=
  let path := node.generateChunkPath chunkId epochUs
  let node := { node with seq := node.nextSeq }
  match fault with
  | .openFails => (node, none)
  | .writeFails written => ({ node with disk := node.disk.insert path (data.take written) }, none)
  | .none =>
      ({ node with
          disk := node.disk.insert path data
          chunkRegistry := node.chunkRegistry.insert chunkId path }, some path)

/-- `async_retrieve_chunk`; the empty string is "not found". -/
def retrieveChunk (node : Node) (chunkId : Bytes) (fallbackPath : Bytes := []) : Node × Bytes :=
  match node.chunkRegistry[chunkId]? with
  | some path => (node, (node.disk[path]?).getD [])
  | none =>
      match node.disk[fallbackPath]? with
      | some data =>
          if fallbackPath ≠ [] then
            ({ node with chunkRegistry := node.chunkRegistry.insert chunkId fallbackPath }, data)
          else (node, [])
      | none => (node, [])

/-- `delete_chunk`; `removes` says whether the file system lets the file go. -/
def deleteChunk (node : Node) (removes : Bool) (chunkId : Bytes) : Node × Bool :=
  match node.chunkRegistry[chunkId]? with
  | none => (node, false)
  | some path =>
      let node := { node with chunkRegistry := node.chunkRegistry.erase chunkId }
      if removes then ({ node with disk := node.disk.erase path }, true) else (node, false)

def crash (node : Node) : Node := { node with running := false }

/-- A new process over the old disk. -/
def restart (node : Node) : Node :=
  { node with running := true, chunkRegistry := ∅, seq := 0 }

/-- `emergency_listener`: one message on the base port, and the reply, if the node sends one. -/
def emergencyMessage (node : Node) (removes : Bool) (msg : Bytes) : Node × Option Bytes :=
  if (find (ascii "DEAD") msg).isSome ∨ (find (ascii "KILL") msg).isSome then
    (node.crash, some (ascii "OK\n"))
  else if (find (ascii "RESTART") msg).isSome then (node.restart, some (ascii "OK\n"))
  else if (find (ascii "DELETE_CHUNK ") msg).isSome then
    let chunkId := ((readWord (msg.drop 13)).map (·.1)).getD []
    let (node, success) := node.deleteChunk removes chunkId
    (node, some (if success then ascii "SUCCESS\n" else ascii "ERROR\n"))
  else (node, none)

/-- `handle_public_connection`: the answer to one request line, of which 255 bytes are read. -/
def publicRequest (node : Node) (request : Bytes) : Bytes :=
  let req := (readLine (request.take 255)).1
  if ascii "GET_CHUNK " <+: req then
    let (chunkId, rest) := (readWord (req.drop 10)).getD ([], [])
    let fileName := ((readWord rest).map (·.1)).getD []
    let data := (node.retrieveChunk (fileName ++ ascii "_chunk_" ++ chunkId)).2
    if data ≠ [] then ascii "CHUNK_SIZE " ++ natDec data.length ++ ascii "\n" ++ data
    else ascii "ERROR: Chunk not found\n"
  else []

end Node

/-! ## Keys and paths -/

lemma underscore_not_mem_dec (n : Int) : (95 : UInt8) ∉ dec n := by
  intro h
  rcases mem_dec h with h | h
  · simp [isDigit] at h
  · simp at h

/-- **A key determines the file and the chunk.** -/
theorem chunkKey_injective {f g : Bytes} {i j : Int} (h : chunkKey f i = chunkKey g j) :
    f = g ∧ i = j := by
  have hform : ∀ (f : Bytes) (i : Int), chunkKey f i = (f ++ ascii "_chunk") ++ 95 :: dec i := by
    intro f i
    simp [chunkKey, ascii]
  rw [hform, hform] at h
  obtain ⟨hname, hid⟩ := splitLast (underscore_not_mem_dec i) (underscore_not_mem_dec j) h
  exact ⟨List.append_cancel_right hname, dec_injective hid⟩

lemma word_chunkKey {f : Bytes} (hf : Word f) (c : Int) : Word (chunkKey f c) :=
  (hf.append (noSpace_iff.mp (by decide))).append (word_dec c).2

/-- The path is one that a node storing under `storagePath` generates for this key. -/
def IsChunkFile (storagePath key path : Bytes) : Prop :=
  ∃ epochUs seq, path = chunkPath storagePath key epochUs seq

/-- The name of a chunk file determines the key and the time stamp it was made of. -/
lemma chunkPath_injective {dir k k' : Bytes} {us us' : Int} {seq seq' : Nat}
    (h : chunkPath dir k us seq = chunkPath dir k' us' seq') : k = k' ∧ us = us' := by
  have hform : ∀ (k : Bytes) (us : Int) (seq : Nat), chunkPath dir k us seq =
      (dir ++ ascii "chunk_") ++ ((k ++ 95 :: dec us) ++ 95 :: (natDec seq ++ ascii ".dat")) := by
    intro k us seq
    simp [chunkPath, ascii]
  have hlast : ∀ seq : Nat, (95 : UInt8) ∉ natDec seq ++ ascii ".dat" := by
    intro seq hmem
    rcases List.mem_append.mp hmem with hmem | hmem
    · have := isDigit_of_mem_natDec hmem
      simp [isDigit] at this
    · revert hmem
      decide
  rw [hform, hform] at h
  -- the sequence number comes off first, then the time stamp
  have hstamp := (splitLast (hlast seq) (hlast seq') (List.append_cancel_left h)).1
  obtain ⟨hkey, hus⟩ := splitLast (underscore_not_mem_dec us) (underscore_not_mem_dec us') hstamp
  exact ⟨hkey, dec_injective hus⟩

/-- **A chunk file belongs to one key.** -/
theorem IsChunkFile.unique {dir key key' path : Bytes} (h : IsChunkFile dir key path)
    (h' : IsChunkFile dir key' path) : key = key' := by
  obtain ⟨us, seq, rfl⟩ := h
  obtain ⟨us', seq', heq⟩ := h'
  exact (chunkPath_injective heq).1

lemma chunkPath_ne_nil (dir key : Bytes) (us : Int) (seq : Nat) :
    chunkPath dir key us seq ≠ [] := by
  simp [chunkPath, ascii]

lemma IsChunkFile.ne_nil {dir key path : Bytes} (h : IsChunkFile dir key path) : path ≠ [] := by
  obtain ⟨us, seq, rfl⟩ := h
  exact chunkPath_ne_nil dir key us seq

lemma IsChunkFile.word {dir key path : Bytes} (hdir : ∀ b ∈ dir, isSpace b = false)
    (hkey : ∀ b ∈ key, isSpace b = false) (h : IsChunkFile dir key path) : Word path := by
  refine ⟨h.ne_nil, ?_⟩
  obtain ⟨us, seq, rfl⟩ := h
  intro b hb
  have hlit : ∀ s ∈ [ascii "chunk_", ascii "_", ascii ".dat"], ∀ b ∈ s, isSpace b = false := by
    intro s hs
    refine noSpace_iff.mp ?_
    revert s
    decide
  simp only [chunkPath, List.mem_append] at hb
  rcases hb with ((((((hb | hb) | hb) | hb) | hb) | hb) | hb) | hb
  · exact hdir b hb
  · exact hlit _ (by simp) b hb
  · exact hkey b hb
  · exact hlit _ (by simp) b hb
  · exact (word_dec us).2 b hb
  · exact hlit _ (by simp) b hb
  · exact (word_natDec seq).2 b hb
  · exact hlit _ (by simp) b hb

/-! ## What a node does to the chunk of one key -/

namespace Node

/-- No other key of the registry leads to a file of `key`. -/
def Owns (node : Node) (key : Bytes) : Prop :=
  ∀ (k path : Bytes), node.chunkRegistry[k]? = some path →
    IsChunkFile node.storagePath key path → k = key

/-- The node holds these bytes for `key`: in the file `path`, and wherever the registry leads. -/
structure Holds (node : Node) (key path data : Bytes) : Prop where
  file : node.disk[path]? = some data
  own : IsChunkFile node.storagePath key path
  served : ∀ q : Bytes, node.chunkRegistry[key]? = some q →
    node.disk[q]? = some data ∧ IsChunkFile node.storagePath key q

/-- The change from `node` to `node'` leaves the chunk of `key` alone; it may make the registry
forget it. -/
structure Keeps (key : Bytes) (node node' : Node) : Prop where
  storagePath : node'.storagePath = node.storagePath
  disk : ∀ path, IsChunkFile node.storagePath key path → node'.disk[path]? = node.disk[path]?
  registry : ∀ q : Bytes, node'.chunkRegistry[key]? = some q → node.chunkRegistry[key]? = some q
  owns : node.Owns key → node'.Owns key

lemma Keeps.refl (key : Bytes) (node : Node) : Keeps key node node :=
  ⟨rfl, fun _ _ => rfl, fun _ h => h, id⟩

lemma Keeps.trans {key : Bytes} {a b c : Node} (h : Keeps key a b) (h' : Keeps key b c) :
    Keeps key a c where
  storagePath := h'.storagePath.trans h.storagePath
  disk := by
    intro path hpath
    rw [h'.disk path (h.storagePath ▸ hpath), h.disk path hpath]
  registry := fun q hq => h.registry q (h'.registry q hq)
  owns := fun hown => h'.owns (h.owns hown)

lemma Holds.keeps {node node' : Node} {key path data : Bytes} (h : node.Holds key path data)
    (hkeep : Keeps key node node') : node'.Holds key path data where
  file := by rw [hkeep.disk path h.own]; exact h.file
  own := hkeep.storagePath ▸ h.own
  served := by
    intro q hq
    obtain ⟨hdisk, hown⟩ := h.served q (hkeep.registry q hq)
    exact ⟨by rw [hkeep.disk q hown]; exact hdisk, hkeep.storagePath ▸ hown⟩

lemma isChunkFile_generateChunkPath (node : Node) (key : Bytes) (us : Int) :
    IsChunkFile node.storagePath key (node.generateChunkPath key us) := ⟨us, node.nextSeq, rfl⟩

lemma owns_storeChunk {node : Node} {key : Bytes} (hown : node.Owns key) (fault : StoreFault)
    (us : Int) (k data : Bytes) : (node.storeChunk fault us k data).1.Owns key := by
  cases fault with
  | openFails => exact hown
  | writeFails written => exact hown
  | none =>
      intro k' path hreg hfile
      simp only [storeChunk, Map.get_insert] at hreg
      split_ifs at hreg with hk
      · rw [hk]
        cases hreg
        exact (isChunkFile_generateChunkPath node k us).unique hfile
      · exact hown k' path hreg hfile

lemma keeps_storeChunk {key k : Bytes} (hk : k ≠ key) (node : Node) (fault : StoreFault)
    (us : Int) (data : Bytes) : Keeps key node (node.storeChunk fault us k data).1 := by
  have hpath : ∀ path, IsChunkFile node.storagePath key path →
      path ≠ node.generateChunkPath k us := by
    rintro path hfile rfl
    exact hk ((isChunkFile_generateChunkPath node k us).unique hfile)
  have howns := fun hown : node.Owns key => owns_storeChunk hown fault us k data
  cases fault with
  | openFails => exact ⟨rfl, fun _ _ => rfl, fun _ h => h, howns⟩
  | writeFails written =>
      refine ⟨rfl, fun path hfile => ?_, fun _ h => h, howns⟩
      simp only [storeChunk, Map.get_insert, if_neg (hpath path hfile)]
  | none =>
      refine ⟨rfl, fun path hfile => ?_, fun q hq => ?_, howns⟩
      · simp only [storeChunk, Map.get_insert, if_neg (hpath path hfile)]
      · simpa only [storeChunk, Map.get_insert, if_neg hk.symm] using hq

/-- **A store that reports a path has put the bytes there.** -/
theorem holds_storeChunk {node : Node} {fault : StoreFault} {us : Int} {key data path : Bytes}
    (h : (node.storeChunk fault us key data).2 = some path) :
    (node.storeChunk fault us key data).1.Holds key path data := by
  cases fault with
  | openFails => cases h
  | writeFails written => cases h
  | none =>
      have hpath : node.generateChunkPath key us = path := Option.some.inj h
      have hown : IsChunkFile node.storagePath key path :=
        hpath ▸ isChunkFile_generateChunkPath node key us
      have hfile : (node.storeChunk .none us key data).1.disk[path]? = some data := by
        simp only [storeChunk, Map.get_insert, hpath, if_true]
      refine ⟨hfile, hown, ?_⟩
      intro q hq
      have : q = path := by
        simp only [storeChunk, Map.get_insert, if_true, Option.some.injEq] at hq
        exact hq.symm.trans hpath
      exact this ▸ ⟨hfile, hown⟩

/-- The path, and the one the registry has for the key, bear none of these time stamps. -/
def Unstamped (stamps : Set Int) (node : Node) (key path : Bytes) : Prop :=
  ∀ us ∈ stamps, ∀ seq, path ≠ chunkPath node.storagePath key us seq ∧
    ∀ q : Bytes, node.chunkRegistry[key]? = some q → q ≠ chunkPath node.storagePath key us seq

lemma Unstamped.keeps {stamps : Set Int} {node node' : Node} {key path : Bytes}
    (h : node.Unstamped stamps key path) (hkeep : Keeps key node node') :
    node'.Unstamped stamps key path := by
  intro us hus seq
  rw [hkeep.storagePath]
  exact ⟨(h us hus seq).1, fun q hq => (h us hus seq).2 q (hkeep.registry q hq)⟩

/-- **Storing the same bytes again does no harm**, and a store that breaks off does none if its
time stamp is its own. -/
theorem Holds.storeChunk_again {stamps : Set Int} {node : Node} {key path data data' : Bytes}
    (h : node.Holds key path data) (hfree : node.Unstamped stamps key path) {fault : StoreFault}
    {us : Int} (hdata : fault = .none → data' = data ∧ us ∉ stamps)
    (hbreak : ∀ written, fault = .writeFails written → us ∈ stamps) :
    (node.storeChunk fault us key data').1.Holds key path data ∧
      (node.storeChunk fault us key data').1.Unstamped stamps key path := by
  cases fault with
  | openFails => exact ⟨⟨h.file, h.own, h.served⟩, hfree⟩
  | writeFails written =>
      -- the half-written file is neither the replica nor what the registry leads to
      have hus := hbreak written rfl
      have hne := hfree us hus node.nextSeq
      have hget : ∀ q : Bytes, q ≠ chunkPath node.storagePath key us node.nextSeq →
          (node.storeChunk (.writeFails written) us key data').1.disk[q]? = node.disk[q]? := by
        intro q hq
        simp only [storeChunk, generateChunkPath, Map.get_insert, if_neg hq]
      refine ⟨⟨?_, h.own, fun q hq => ?_⟩, hfree⟩
      · rw [hget path hne.1]
        exact h.file
      · rw [hget q (hne.2 q hq)]
        exact h.served q hq
  | none =>
      obtain ⟨rfl, hus⟩ := hdata rfl
      have hdisk : ∀ q : Bytes, node.disk[q]? = some data' →
          (node.storeChunk .none us key data').1.disk[q]? = some data' := by
        intro q hq
        simp only [storeChunk, Map.get_insert]
        split_ifs
        · rfl
        · exact hq
      refine ⟨⟨hdisk path h.file, h.own, fun q hq => ?_⟩, fun us' hus' seq => ?_⟩
      · have hq : node.generateChunkPath key us = q := by
          simpa only [storeChunk, Map.get_insert, if_true, Option.some.injEq] using hq
        subst hq
        refine ⟨?_, isChunkFile_generateChunkPath node key us⟩
        simp only [storeChunk, Map.get_insert, if_true]
      · refine ⟨(hfree us' hus' seq).1, fun q hq heq => hus ?_⟩
        have hq : node.generateChunkPath key us = q := by
          simpa only [storeChunk, Map.get_insert, if_true, Option.some.injEq] using hq
        rw [(chunkPath_injective (hq.trans heq)).2]
        exact hus'

lemma running_storeChunk (node : Node) (fault : StoreFault) (us : Int) (key data : Bytes) :
    (node.storeChunk fault us key data).1.running = node.running := by
  cases fault <;> rfl

lemma isChunkFile_of_storeChunk {node : Node} {fault : StoreFault} {us : Int}
    {key data path : Bytes} (h : (node.storeChunk fault us key data).2 = some path) :
    IsChunkFile node.storagePath key path := by
  cases fault with
  | openFails => cases h
  | writeFails written => cases h
  | none => exact Option.some.inj h ▸ isChunkFile_generateChunkPath node key us

@[simp] lemma storagePath_storeChunk (node : Node) (fault : StoreFault) (us : Int)
    (key data : Bytes) :
    (node.storeChunk fault us key data).1.storagePath = node.storagePath := by
  cases fault <;> rfl

/-- A retrieval changes nothing, or makes the registry remember a missing key. -/
lemma retrieveChunk_cases (node : Node) (k fallback : Bytes) :
    (node.retrieveChunk k fallback).1 = node ∨
      (node.chunkRegistry[k]? = none ∧ (node.retrieveChunk k fallback).1 =
        { node with chunkRegistry := node.chunkRegistry.insert k fallback }) := by
  unfold retrieveChunk
  cases hreg : node.chunkRegistry[k]? with
  | some path => exact Or.inl rfl
  | none =>
      cases node.disk[fallback]? with
      | none => exact Or.inl rfl
      | some data =>
          by_cases hne : fallback ≠ []
          · exact Or.inr ⟨rfl, congrArg Prod.fst (if_pos hne)⟩
          · exact Or.inl (congrArg Prod.fst (if_neg hne))

@[simp] lemma storagePath_retrieveChunk (node : Node) (k fallback : Bytes) :
    (node.retrieveChunk k fallback).1.storagePath = node.storagePath := by
  rcases retrieveChunk_cases node k fallback with h | ⟨-, h⟩ <;> rw [h]

@[simp] lemma disk_retrieveChunk (node : Node) (k fallback : Bytes) :
    (node.retrieveChunk k fallback).1.disk = node.disk := by
  rcases retrieveChunk_cases node k fallback with h | ⟨-, h⟩ <;> rw [h]

@[simp] lemma running_retrieveChunk (node : Node) (k fallback : Bytes) :
    (node.retrieveChunk k fallback).1.running = node.running := by
  rcases retrieveChunk_cases node k fallback with h | ⟨-, h⟩ <;> rw [h]

/-- A retrieval forgets nothing. -/
lemma registry_retrieveChunk {node : Node} {key q : Bytes} (k fallback : Bytes)
    (h : node.chunkRegistry[key]? = some q) :
    (node.retrieveChunk k fallback).1.chunkRegistry[key]? = some q := by
  rcases retrieveChunk_cases node k fallback with heq | ⟨hnone, heq⟩
  · rw [heq]; exact h
  · have hne : key ≠ k := by
      rintro rfl
      rw [hnone] at h
      cases h
    rw [heq]
    simpa only [Map.get_insert, if_neg hne] using h

lemma owns_retrieveChunk {node : Node} {key : Bytes} (hown : node.Owns key) {k fallback : Bytes}
    (hpath : IsChunkFile node.storagePath key fallback → k = key) :
    (node.retrieveChunk k fallback).1.Owns key := by
  rcases retrieveChunk_cases node k fallback with heq | ⟨-, heq⟩
  · rw [heq]; exact hown
  · rw [heq]
    intro k' path hreg hfile
    simp only [Map.get_insert] at hreg
    split_ifs at hreg with hk
    · cases hreg
      exact hk.trans (hpath hfile)
    · exact hown k' path hreg hfile

/-- Retrieving another chunk, from a path that is not one of this chunk's. -/
lemma keeps_retrieveChunk {key k fallback : Bytes} (hk : k ≠ key) (node : Node)
    (hpath : ¬ IsChunkFile node.storagePath key fallback) :
    Keeps key node (node.retrieveChunk k fallback).1 where
  storagePath := storagePath_retrieveChunk node k fallback
  disk := fun path _ => by rw [disk_retrieveChunk]
  registry := by
    intro q hq
    rcases retrieveChunk_cases node k fallback with heq | ⟨-, heq⟩
    · rwa [heq] at hq
    · rw [heq] at hq
      simpa only [Map.get_insert, if_neg hk.symm] using hq
  owns := fun hown => owns_retrieveChunk hown fun h => absurd h hpath

/-- **A chunk that is held is found**, by way of the registry or of its path. -/
theorem Holds.retrieveChunk_eq {node : Node} {key path data : Bytes}
    (h : node.Holds key path data) : (node.retrieveChunk key path).2 = data := by
  unfold retrieveChunk
  cases hreg : node.chunkRegistry[key]? with
  | some q => simp only [(h.served q hreg).1, Option.getD_some]
  | none => simp only [h.file, h.own.ne_nil, ne_eq, not_false_eq_true, if_true]

/-- After a retrieval the registry knows the chunk, so no path is needed to find it. -/
lemma Holds.registered {node : Node} {key path data : Bytes} (h : node.Holds key path data) :
    ∃ q : Bytes, (node.retrieveChunk key path).1.chunkRegistry[key]? = some q := by
  cases hreg : node.chunkRegistry[key]? with
  | some q => exact ⟨q, registry_retrieveChunk key path hreg⟩
  | none =>
      refine ⟨path, ?_⟩
      simp only [retrieveChunk, hreg, h.file, h.own.ne_nil, ne_eq, not_false_eq_true, if_true,
        Map.get_insert]

/-- A retrieval by a path that holds the chunk keeps every replica of it. -/
lemma Holds.retrieveChunk {node : Node} {key path path' data : Bytes}
    (h : node.Holds key path data) (h' : node.Holds key path' data) :
    (node.retrieveChunk key path).1.Holds key path' data where
  file := by rw [disk_retrieveChunk]; exact h'.file
  own := by rw [storagePath_retrieveChunk]; exact h'.own
  served := by
    intro q hq
    rw [disk_retrieveChunk, storagePath_retrieveChunk]
    rcases retrieveChunk_cases node key path with heq | ⟨-, heq⟩
    · rw [heq] at hq
      exact h.served q hq
    · rw [heq] at hq
      simp only [Map.get_insert, if_true, Option.some.injEq] at hq
      exact hq ▸ ⟨h.file, h.own⟩

lemma owns_deleteChunk {node : Node} {key : Bytes} (hown : node.Owns key) (removes : Bool)
    (k : Bytes) : (node.deleteChunk removes k).1.Owns key := by
  unfold deleteChunk
  cases hreg : node.chunkRegistry[k]? with
  | none => exact hown
  | some path =>
      have howns : ∀ k' p : Bytes, (node.chunkRegistry.erase k)[k']? = some p →
          IsChunkFile node.storagePath key p → k' = key := by
        intro k' p hget hfile
        rw [Map.get_erase] at hget
        split_ifs at hget with hk'
        exact hown k' p hget hfile
      cases removes with
      | false => exact howns
      | true => exact howns

lemma keeps_deleteChunk {key k : Bytes} (hk : k ≠ key) {node : Node} (hown : node.Owns key)
    (removes : Bool) : Keeps key node (node.deleteChunk removes k).1 := by
  have howns := owns_deleteChunk hown removes k
  unfold deleteChunk at howns ⊢
  cases hreg : node.chunkRegistry[k]? with
  | none => exact Keeps.refl key node
  | some path =>
      rw [hreg] at howns
      have hregistry : ∀ q : Bytes, (node.chunkRegistry.erase k)[key]? = some q →
          node.chunkRegistry[key]? = some q := by
        intro q hq
        rwa [Map.get_erase, if_neg hk.symm] at hq
      cases removes with
      | false => exact ⟨rfl, fun _ _ => rfl, hregistry, fun _ => howns⟩
      | true =>
          refine ⟨rfl, fun p hfile => ?_, hregistry, fun _ => howns⟩
          have hne : p ≠ path := by
            rintro rfl
            exact hk (hown k p hreg hfile)
          simp only [if_true, Map.get_erase, if_neg hne]

lemma keeps_crash (key : Bytes) (node : Node) : Keeps key node node.crash :=
  ⟨rfl, fun _ _ => rfl, fun _ h => h, id⟩

lemma keeps_restart (key : Bytes) (node : Node) : Keeps key node node.restart := by
  refine ⟨rfl, fun _ _ => rfl, fun q hq => ?_, fun _ k path hreg => ?_⟩
  · simp [restart] at hq
  · simp [restart] at hreg

/-! ## What a node does to all the other chunks -/

/-- The change from `node` to `node'` leaves every chunk alone but those of the given keys, and no
registry entry for a chunk file is under a wrong key because of it. -/
structure Spares (keys : Set Bytes) (node node' : Node) : Prop where
  storagePath : node'.storagePath = node.storagePath
  owns : ∀ f c, node.Owns (chunkKey f c) → node'.Owns (chunkKey f c)
  keeps : ∀ f c, chunkKey f c ∉ keys → node.Owns (chunkKey f c) → Keeps (chunkKey f c) node node'

lemma spares_of_keeps {keys : Set Bytes} {node node' : Node}
    (h : ∀ key, Keeps key node node') : Spares keys node node' :=
  ⟨(h []).storagePath, fun f c => (h (chunkKey f c)).owns, fun f c _ _ => h (chunkKey f c)⟩

lemma spares_storeChunk (node : Node) (fault : StoreFault) (us : Int) (k data : Bytes) :
    Spares {k} node (node.storeChunk fault us k data).1 where
  storagePath := storagePath_storeChunk node fault us k data
  owns := fun _ _ hown => owns_storeChunk hown fault us k data
  keeps := fun _ _ hk _ => keeps_storeChunk (Ne.symm hk) node fault us data

lemma spares_retrieveChunk {node : Node} {k fallback : Bytes}
    (h : ∀ f c, IsChunkFile node.storagePath (chunkKey f c) fallback → k = chunkKey f c) :
    Spares {k} node (node.retrieveChunk k fallback).1 where
  storagePath := storagePath_retrieveChunk node k fallback
  owns := fun f c hown => owns_retrieveChunk hown (h f c)
  keeps := fun f c hk _ =>
    keeps_retrieveChunk (Ne.symm hk) node fun hfile => hk (h f c hfile).symm

/-- Whatever arrives on the base port, a chunk it does not name is left alone. -/
lemma spares_emergencyMessage (node : Node) (removes : Bool) (msg : Bytes) :
    Spares {((readWord (msg.drop 13)).map (·.1)).getD []} node
      (node.emergencyMessage removes msg).1 := by
  unfold emergencyMessage
  split_ifs
  · exact spares_of_keeps fun key => keeps_crash key node
  · exact spares_of_keeps fun key => keeps_restart key node
  · refine ⟨?_, fun _ _ hown => owns_deleteChunk hown removes _,
      fun _ _ hk hown => keeps_deleteChunk (Ne.symm hk) hown removes⟩
    -- the directory is not touched
    simp only [deleteChunk]
    split
    · rfl
    · split_ifs <;> rfl
  · exact spares_of_keeps fun key => Keeps.refl key node

/-! ## What a node remembers -/

/-- The node keeps running, or stopped, and its registry changes for the given keys only. -/
structure Undisturbed (keys : Set Bytes) (node node' : Node) : Prop where
  running : node'.running = node.running
  entry : ∀ k ∉ keys, node'.chunkRegistry[k]? = node.chunkRegistry[k]?

lemma Undisturbed.refl (keys : Set Bytes) (node : Node) : Undisturbed keys node node :=
  ⟨rfl, fun _ _ => rfl⟩

lemma Undisturbed.trans {keys : Set Bytes} {a b c : Node} (h : Undisturbed keys a b)
    (h' : Undisturbed keys b c) : Undisturbed keys a c :=
  ⟨h'.running.trans h.running, fun k hk => (h'.entry k hk).trans (h.entry k hk)⟩

lemma Undisturbed.mono {keys keys' : Set Bytes} {node node' : Node}
    (h : Undisturbed keys node node') (hsub : keys ⊆ keys') : Undisturbed keys' node node' :=
  ⟨h.running, fun k hk => h.entry k fun hmem => hk (hsub hmem)⟩

lemma undisturbed_storeChunk (node : Node) (fault : StoreFault) (us : Int) (key data : Bytes) :
    Undisturbed {key} node (node.storeChunk fault us key data).1 := by
  refine ⟨running_storeChunk node fault us key data, fun k hk => ?_⟩
  cases fault with
  | openFails => rfl
  | writeFails written => rfl
  | none => exact (Map.get_insert _ _ _ _).trans (if_neg hk)

lemma isSome_storeChunk {node : Node} {fault : StoreFault} {us : Int} {key data path : Bytes}
    (h : (node.storeChunk fault us key data).2 = some path) :
    ((node.storeChunk fault us key data).1.chunkRegistry[key]?).isSome = true := by
  cases fault with
  | openFails => cases h
  | writeFails written => cases h
  | none => simp [storeChunk]

lemma isSome_of_storeChunk {node : Node} {k : Bytes}
    (h : (node.chunkRegistry[k]?).isSome = true) (fault : StoreFault) (us : Int)
    (key data : Bytes) :
    ((node.storeChunk fault us key data).1.chunkRegistry[k]?).isSome = true := by
  cases fault with
  | openFails => exact h
  | writeFails written => exact h
  | none =>
      rw [storeChunk, Map.get_insert]
      split_ifs
      · rfl
      · exact h

lemma undisturbed_retrieveChunk (node : Node) (key fallback : Bytes) :
    Undisturbed {key} node (node.retrieveChunk key fallback).1 := by
  refine ⟨running_retrieveChunk node key fallback, fun k hk => ?_⟩
  rcases retrieveChunk_cases node key fallback with h | ⟨-, h⟩
  · rw [h]
  · rw [h]
    exact (Map.get_insert _ _ _ _).trans (if_neg hk)

/-- **After a deletion the node does not know the key**, and the others are as they were. -/
lemma get_deleteChunk (node : Node) (removes : Bool) (key k : Bytes) :
    (node.deleteChunk removes key).1.chunkRegistry[k]? =
      if k = key then none else node.chunkRegistry[k]? := by
  unfold deleteChunk
  cases hreg : node.chunkRegistry[key]? with
  | none =>
      by_cases hk : k = key
      · rw [if_pos hk, hk]
        exact hreg
      · rw [if_neg hk]
  | some path =>
      cases removes with
      | true => exact Map.get_erase _ _ _
      | false => exact Map.get_erase _ _ _

lemma running_deleteChunk (node : Node) (removes : Bool) (key : Bytes) :
    (node.deleteChunk removes key).1.running = node.running := by
  unfold deleteChunk
  cases node.chunkRegistry[key]? with
  | none => rfl
  | some path => cases removes <;> rfl

lemma undisturbed_deleteChunk (node : Node) (removes : Bool) (key : Bytes) :
    Undisturbed {key} node (node.deleteChunk removes key).1 :=
  ⟨running_deleteChunk node removes key,
    fun k hk => (get_deleteChunk node removes key k).trans (if_neg hk)⟩

/-- The node deletes a chunk it knows, and no other. -/
lemma deleteChunk_succeeds {node : Node} {removes : Bool} {key : Bytes} :
    (node.deleteChunk removes key).2 = true ↔
      removes = true ∧ (node.chunkRegistry[key]?).isSome = true := by
  unfold deleteChunk
  cases node.chunkRegistry[key]? with
  | none => simp
  | some path => cases removes <;> simp

end Node

end FileGrid
