import FileGrid.Storage.KeyValue
import FileGrid.Storage.OwnFiles

/-!
# One chunk at a time

Everything a node does is done for one key: a store, a retrieval or a deletion is called with it,
and the steps that the operation later takes on the pool are taken for the same key.  The keys of
two chunks are never the same (`chunkKey_injective`), whatever is in the names; the question here is
whether that is enough to keep the chunks apart on a node.

**Whose step an event is.**  The operations are numbered in the order of their calls, so the key of
an operation can be looked up in the list of the calls (`keyOf`), and `opKey` is the key of the
operation that an event is a step of.

**What keeps the files apart.**  A path is made of the key it is generated for, and the key can be
read off it, numbers and time stamps apart; so operations on different keys work on different paths.
Two things can undo that: the operating system reads a path up to a NUL byte, which loses the rest
of the key, and a retrieval takes any path it is given.  `KeyGuard` excludes the two.  It does not
ask for numbers that are new: two stores of one key may share a file and disturb each other, but no
third.

* `usesPath_step` — an operation works on the path that it was called with.
* `apart_step` — an event leaves the entry, the file and the value of every other key alone.
* **`chunks_apart`** — the same along whole runs, for the chunks of files.
-/

namespace FileGrid

/-! ## Whose step an event is -/

/-- The operation that an event is a later step of. -/
def StorageEvent.op : StorageEvent → Option Nat
  | .openFile op _ | .writeFile op _ | .register op | .openChunk op | .seekEnd op
  | .readChunk op _ | .readFails op | .removeFile op _ => some op
  | _ => none

/-- The key of an operation, by the calls so far, of which the first had the number `base`. -/
def keyOf (base : Nat) (calls : List Bytes) (op : Nat) : Option Bytes :=
  if base ≤ op then calls[op - base]? else none

/-- The key of the operation that an event is a step of. -/
def opKey (base : Nat) (calls : List Bytes) (e : StorageEvent) : Option Bytes :=
  match e.callKey with
  | some key => some key
  | none => e.op.bind (keyOf base calls)

/-- A call does not change what the earlier ones were for. -/
lemma keyOf_append {base op : Nat} {calls : List Bytes} {key : Bytes}
    (h : keyOf base calls op = some key) (later : List Bytes) :
    keyOf base (calls ++ later) op = some key := by
  rw [keyOf] at h ⊢
  split_ifs at h ⊢
  rw [List.getElem?_append_left (List.getElem?_eq_some_iff.mp h).1, h]

lemma keyOf_concat (base : Nat) (calls : List Bytes) (key : Bytes) :
    keyOf base (calls ++ [key]) (base + calls.length) = some key := by
  simp [keyOf]

namespace ChunkStorage

/-! ## Paths -/

/-- The operation works on the file of this path. -/
inductive UsesPath (s : ChunkStorage) (op : Nat) : Bytes → Prop
  | store {task} (h : s.stores[op]? = some task) : UsesPath s op task.path
  | retrieval {task} (h : s.retrievals[op]? = some task) : UsesPath s op task.chunkPath
  | removal {path} (h : s.removals[op]? = some path) : UsesPath s op path

/-- The name of the file that an event creates, writes, opens or removes. -/
def fileName (s : ChunkStorage) : StorageEvent → Option Bytes
  | .openFile op _ | .writeFile op _ => (s.stores[op]?).map fun task => cString task.path
  | .openChunk op => (s.retrievals[op]?).map fun task => cString task.chunkPath
  | .removeFile op _ => (s.removals[op]?).map cString
  | _ => none

lemma usesPath_of_fileName {s : ChunkStorage} {e : StorageEvent} {name : Bytes}
    (h : s.fileName e = some name) :
    ∃ op path, e.callKey = none ∧ e.op = some op ∧ s.UsesPath op path ∧ name = cString path := by
  cases e with
  | openFile op opens | writeFile op n =>
      obtain ⟨task, htask, rfl⟩ := Option.map_eq_some_iff.mp h
      exact ⟨op, task.path, rfl, rfl, .store htask, rfl⟩
  | openChunk op =>
      obtain ⟨task, htask, rfl⟩ := Option.map_eq_some_iff.mp h
      exact ⟨op, task.chunkPath, rfl, rfl, .retrieval htask, rfl⟩
  | removeFile op removes =>
      obtain ⟨path, hpath, rfl⟩ := Option.map_eq_some_iff.mp h
      exact ⟨op, path, rfl, rfl, .removal hpath, rfl⟩
  | _ => cases h

/-- The call of an operation, which gives it a path of its key. -/
def CalledWith (s : ChunkStorage) (e : StorageEvent) (op : Nat) (path : Bytes) : Prop :=
  op = s.nextOp ∧ ∃ key, e.callKey = some key ∧ (s.step e).Generated key path

lemma usesPath_store {s : ChunkStorage} {e : StorageEvent} {op : Nat} {task : StoreTask}
    (h : (s.step e).stores[op]? = some task) :
    s.UsesPath op task.path ∨ s.CalledWith e op task.path := by
  rw [CalledWith]
  have heffect := effect_step s e
  generalize s.step e = s' at heffect h ⊢
  cases heffect with
  | submits chunkId data epochUs =>
      simp only [storeChunk, Map.get_insert] at h
      split_ifs at h with hop
      · cases h
        exact Or.inr ⟨hop, chunkId, rfl, epochUs, s.nextSeq, by simp [storeChunk], rfl⟩
      · exact Or.inl (.store h)
  | opens htask | writes htask hlt =>
      simp only [Map.get_insert] at h
      split_ifs at h with hop
      · have hpath := UsesPath.store htask
        cases h
        exact Or.inl (hop ▸ hpath)
      · exact Or.inl (.store h)
  | fails he | registers htask hge =>
      simp only [storeFails, Map.get_erase] at h
      split_ifs at h
      exact Or.inl (.store h)
  | _ => exact Or.inl (.store h)

lemma usesPath_retrieval {s : ChunkStorage} (hreg : s.OwnRegistry) {e : StorageEvent}
    (hguard : s.PathGuard e) {op : Nat} {task : RetrieveTask}
    (h : (s.step e).retrievals[op]? = some task) :
    s.UsesPath op task.chunkPath ∨ s.CalledWith e op task.chunkPath := by
  have hkeep : ∀ {key path : Bytes}, s.Generated key path → (s.step e).Generated key path :=
    fun hgenerated => hgenerated.step e
  rw [CalledWith]
  have heffect := effect_step s e
  generalize s.step e = s' at heffect hkeep h ⊢
  cases heffect with
  | finds hfound =>
      simp only [submitRetrieval, Map.get_insert] at h
      split_ifs at h with hop
      · cases h
        exact Or.inr ⟨hop, _, rfl, hkeep (hreg _ _ hfound)⟩
      · exact Or.inl (.retrieval h)
  | adopts hnone hpath =>
      simp only [submitRetrieval, Map.get_insert] at h
      split_ifs at h with hop
      · cases h
        exact Or.inr ⟨hop, _, rfl, hkeep (hguard hnone hpath rfl)⟩
      · exact Or.inl (.retrieval h)
  | reads htask he =>
      simp only [Map.get_insert] at h
      split_ifs at h with hop
      · have hpath := UsesPath.retrieval htask
        cases h
        exact Or.inl (hop ▸ hpath)
      · exact Or.inl (.retrieval h)
  | returns data htask he =>
      simp only [retrieveReturns, Map.get_erase] at h
      split_ifs at h
      exact Or.inl (.retrieval h)
  | _ => exact Or.inl (.retrieval h)

lemma usesPath_removal {s : ChunkStorage} (hreg : s.OwnRegistry) {e : StorageEvent} {op : Nat}
    {path : Bytes} (h : (s.step e).removals[op]? = some path) :
    s.UsesPath op path ∨ s.CalledWith e op path := by
  have hkeep : ∀ {key path : Bytes}, s.Generated key path → (s.step e).Generated key path :=
    fun hgenerated => hgenerated.step e
  rw [CalledWith]
  have heffect := effect_step s e
  generalize s.step e = s' at heffect hkeep h ⊢
  cases heffect with
  | erases hfound =>
      simp only [Map.get_insert] at h
      split_ifs at h with hop
      · cases h
        exact Or.inr ⟨hop, _, rfl, hkeep (hreg _ _ hfound)⟩
      · exact Or.inl (.removal h)
  | removes removes hfound =>
      simp only [Map.get_erase] at h
      split_ifs at h
      exact Or.inl (.removal h)
  | _ => exact Or.inl (.removal h)

/-- **An operation works on a path of its key** from its call on. -/
theorem usesPath_step {s : ChunkStorage} (hreg : s.OwnRegistry) {e : StorageEvent}
    (hguard : s.PathGuard e) {op : Nat} {path : Bytes} (h : (s.step e).UsesPath op path) :
    s.UsesPath op path ∨ s.CalledWith e op path := by
  cases h with
  | store h => exact usesPath_store h
  | retrieval h => exact usesPath_retrieval hreg hguard h
  | removal h => exact usesPath_removal hreg h

/-! ## Open files -/

/-- A file that a store has open has no name but its own. -/
def OwnOpen (s : ChunkStorage) : Prop :=
  ∀ {op file written : Nat} {chunkId path data : Bytes},
    s.stores[op]? = some { chunkId, path, data, phase := .writing file written } →
      file < s.files.next ∧ ∀ name : Bytes, s.files.names[name]? = some file → name = cString path

theorem ownOpen_step {s : ChunkStorage} (h : s.OwnOpen) (e : StorageEvent) :
    (s.step e).OwnOpen := by
  intro op file written chunkId path data htask
  have heffect := effect_step s e
  generalize s.step e = s' at heffect htask ⊢
  cases heffect with
  | submits chunkId' data' epochUs =>
      simp only [storeChunk, Map.get_insert] at htask
      split_ifs at htask
      · cases htask
      · exact h htask
  | @opens op' chunkId' path' data' hopen =>
      simp only [Map.get_insert] at htask
      split_ifs at htask
      · cases htask
        refine ⟨by simp [FileSystem.create], fun name hname => ?_⟩
        exact (s.files.create (cString path)).injective hname (by simp)
      · obtain ⟨hlt, hown⟩ := h htask
        exact ⟨lt_max_of_lt_left hlt, fun name hname => FileSystem.names_create_eq hlt hown hname⟩
  | writes hwrite hlt =>
      simp only [Map.get_insert] at htask
      split_ifs at htask
      · cases htask
        exact h hwrite
      · exact h htask
  | fails he | registers hregister hge =>
      simp only [storeFails, Map.get_erase] at htask
      split_ifs at htask
      exact h htask
  | removes removes hfound =>
      obtain ⟨hlt, hown⟩ := h htask
      cases removes with
      | false => exact ⟨hlt, hown⟩
      | true =>
          refine ⟨hlt, fun name hname => hown name ?_⟩
          simp only [if_true, FileSystem.names_unlink] at hname
          split_ifs at hname
          exact hname
  | _ => exact h htask

/-! ## The files of different keys -/

/-- What an event needs for the chunks to stay apart: a store has no NUL byte in its key, and a path
that comes with the request for an unknown identifier, and exists, was generated for that
identifier. -/
def KeyGuard (s : ChunkStorage) : StorageEvent → Prop
  | .storeChunk chunkId _ _ => (0 : UInt8) ∉ chunkId
  | .retrieveChunk chunkId fallbackPath pathExists =>
      s.PathGuard (.retrieveChunk chunkId fallbackPath pathExists)
  | _ => True

instance (s : ChunkStorage) : ∀ e, Decidable (s.KeyGuard e)
  | .storeChunk _ _ _ => inferInstanceAs (Decidable (_ ∉ _))
  | .retrieveChunk chunkId path pathExists =>
      inferInstanceAs (Decidable (s.PathGuard (.retrieveChunk chunkId path pathExists)))
  | .openFile _ _ | .writeFile _ _ | .register _ | .openChunk _ | .seekEnd _ | .readChunk _ _
  | .readFails _ | .eraseChunk _ | .removeFile _ _ => isTrue trivial

lemma pathGuard_of_keyGuard {s : ChunkStorage} {e : StorageEvent} (h : s.KeyGuard e) :
    s.PathGuard e := by
  cases e with
  | retrieveChunk chunkId fallbackPath pathExists => exact h
  | _ => trivial

/-- Every path that is in use, or in the registry, is a path of the key that it is used for, and has
no NUL byte. -/
structure Keyed (base : Nat) (calls : List Bytes) (s : ChunkStorage) : Prop where
  dir : (0 : UInt8) ∉ s.storagePath
  plain : ∀ issue ∈ s.issued, (0 : UInt8) ∉ issue.1
  nextOp : s.nextOp = base + calls.length
  stores : s.OwnStores
  registry : s.OwnRegistry
  paths : ∀ {op : Nat} {path : Bytes}, s.UsesPath op path →
    ∃ key, keyOf base calls op = some key ∧ s.Generated key path
  opened : s.OwnOpen

lemma Idle.keyed {s : ChunkStorage} (h : s.Idle) (hdir : (0 : UInt8) ∉ s.storagePath)
    (hplain : ∀ issue ∈ s.issued, (0 : UInt8) ∉ issue.1) : s.Keyed s.nextOp [] where
  dir := hdir
  plain := hplain
  nextOp := rfl
  stores := h.own.stores
  registry := h.own.registry
  paths := by
    intro op path hpath
    cases hpath with
    | store htask => simp [h.stores] at htask
    | retrieval htask => simp [h.retrievals] at htask
    | removal hremoval => simp [h.removals] at hremoval
  opened := by
    intro op file written chunkId path data htask
    simp [h.stores] at htask

lemma noNul_step {s : ChunkStorage} (h : ∀ issue ∈ s.issued, (0 : UInt8) ∉ issue.1)
    {e : StorageEvent} (hguard : s.KeyGuard e) :
    ∀ issue ∈ (s.step e).issued, (0 : UInt8) ∉ issue.1 := by
  intro issue hissue
  rcases issued_step s e with hissued | ⟨chunkId, data, epochUs, rfl, hissued⟩
  · exact h issue (hissued ▸ hissue)
  · rw [hissued] at hissue
    rcases List.mem_append.mp hissue with hissue | hissue
    · exact h issue hissue
    · rw [List.mem_singleton.mp hissue]
      exact hguard

/-- **Every operation keeps to the files of its key.** -/
theorem keyed_step {base : Nat} {calls : List Bytes} {s : ChunkStorage} (h : s.Keyed base calls)
    {e : StorageEvent} (hguard : s.KeyGuard e) :
    (s.step e).Keyed base (calls ++ e.callKey.toList) := by
  have hpaths := pathGuard_of_keyGuard hguard
  refine ⟨?_, noNul_step h.plain hguard, ?_, ownStores_step h.stores e,
    (ownRegistry_step h.stores h.registry e).mpr hpaths, ?_, ownOpen_step h.opened e⟩
  · rw [storagePath_step]
    exact h.dir
  · rw [nextOp_step, h.nextOp, List.length_append]
    omega
  · intro op path hpath
    rcases usesPath_step h.registry hpaths hpath with hpath | ⟨hop, key, hcall, hgenerated⟩
    · obtain ⟨key, hkey, hgenerated⟩ := h.paths hpath
      exact ⟨key, keyOf_append hkey _, hgenerated.step e⟩
    · refine ⟨key, ?_, hgenerated⟩
      rw [hcall, hop, h.nextOp]
      exact keyOf_concat base calls key

section

variable {base : Nat} {calls : List Bytes} {s : ChunkStorage} (h : s.Keyed base calls)

include h

/-- A path of a key is read by the operating system as it is, and its key can be read off it. -/
lemma Keyed.cString_eq {key path : Bytes} (hgenerated : s.Generated key path) :
    cString path = path := by
  obtain ⟨us, seq, hmem, rfl⟩ := hgenerated
  exact cString_of_not_mem (zero_not_mem_chunkPath h.dir (h.plain _ hmem) us seq)

lemma Keyed.eq_of_cString {key key' path path' : Bytes} (hkey : s.Generated key path)
    (hkey' : s.Generated key' path') (heq : cString path = cString path') : key = key' := by
  rw [h.cString_eq hkey, h.cString_eq hkey'] at heq
  obtain ⟨us, seq, -, rfl⟩ := hkey
  obtain ⟨us', seq', -, rfl⟩ := hkey'
  exact (chunkPath_inj heq).1

/-- **The file of an event is none of another key.** -/
lemma Keyed.fileName_ne {e : StorageEvent} {key path : Bytes} (hne : opKey base calls e ≠ some key)
    (hreg : s.chunkRegistry[key]? = some path) : s.fileName e ≠ some (cString path) := by
  intro hname
  obtain ⟨op, path', hcall, hop, huses, heq⟩ := usesPath_of_fileName hname
  obtain ⟨key', hkey', hgenerated⟩ := h.paths huses
  refine hne ?_
  rw [opKey, hcall, hop, h.eq_of_cString (h.registry key path hreg) hgenerated heq]
  exact hkey'

/-- The key of a store is the one that it was called with. -/
lemma Keyed.keyOf_store {op : Nat} {task : StoreTask} (htask : s.stores[op]? = some task) :
    keyOf base calls op = some task.chunkId := by
  obtain ⟨key, hkey, hgenerated⟩ := h.paths (.store htask)
  rw [hkey, h.eq_of_cString hgenerated (h.stores op task htask) rfl]

end

section

variable {base : Nat} {calls : List Bytes} {s : ChunkStorage} (h : s.Keyed base calls)
  {e : StorageEvent} {key : Bytes} (hne : opKey base calls e ≠ some key)

include h hne

lemma Keyed.registry_step : (s.step e).chunkRegistry[key]? = s.chunkRegistry[key]? := by
  have heffect := effect_step s e
  generalize s.step e = s' at heffect ⊢
  cases heffect with
  | registers htask hge =>
      have hkey : opKey base calls (.register _) = some _ := h.keyOf_store htask
      rw [Map.get_insert, if_neg]
      rintro rfl
      exact hne hkey
  | adopts hnone hpath =>
      rw [submitRetrieval, Map.get_insert, if_neg]
      rintro rfl
      exact hne rfl
  | erases hfound =>
      rw [Map.get_erase, if_neg]
      rintro rfl
      exact hne rfl
  | _ => rfl

/-- What the registry leads to for another key stays as it is. -/
lemma Keyed.sameFile_step {path : Bytes} (hreg : s.chunkRegistry[key]? = some path) :
    s.files.SameFile (s.step e).files (cString path) := by
  have hname := h.fileName_ne hne hreg
  have heffect := effect_step s e
  generalize s.step e = s' at heffect ⊢
  cases heffect with
  | opens htask =>
      refine s.files.sameFile_create fun heq => hname ?_
      rw [fileName, htask, heq, Option.map_some]
  | writes htask hlt =>
      -- the file that is open may have lost its name, but it has no other
      refine FileSystem.sameFile_writeAt_of_ne (fun hfile => hname ?_) _ _
      rw [fileName, htask, (h.opened htask).2 _ hfile, Option.map_some]
  | removes removes hremoval =>
      cases removes with
      | false => exact .refl _ _
      | true =>
          refine s.files.sameFile_unlink fun heq => hname ?_
          rw [fileName, hremoval, heq, Option.map_some]
  | _ => exact .refl _ _

/-- **An event leaves the other keys alone**: what they hold, and the files that hold it. -/
theorem Keyed.apart_step :
    (s.step e).value key = s.value key ∧
      ∀ path : Bytes, s.chunkRegistry[key]? = some path → s.fileName e ≠ some (cString path) :=
  ⟨value_congr (h.registry_step hne) fun _ hreg => h.sameFile_step hne hreg,
    fun _ hreg => h.fileName_ne hne hreg⟩

end

/-! ## Runs -/

/-- The keys that the storage is called with, in order. -/
def calls (events : List StorageEvent) : List Bytes := events.filterMap (·.callKey)

lemma keyed_foldl {s : ChunkStorage} {base : Nat} {before : List Bytes} (h : s.Keyed base before)
    {events : List StorageEvent} (hrun : AlongRun step KeyGuard s events) :
    (events.foldl step s).Keyed base (before ++ calls events) := by
  induction events generalizing s before with
  | nil => simpa [calls] using h
  | cons e events ih =>
      have hrest := ih (keyed_step h hrun.1) hrun.2
      have hcalls : before ++ calls (e :: events) =
          before ++ e.callKey.toList ++ calls events := by
        rw [calls, List.filterMap_cons]
        cases e.callKey <;> simp [calls]
      rw [hcalls]
      exact hrest

/-- **The chunks of a node are kept apart.**  The key of a chunk determines its file and its number,
whatever is in the names.  And in a run of a storage in whose paths there is no NUL byte, and whose
retrievals bring no path that was generated for another key, a step of an operation on one chunk
changes nothing of another one, and it neither creates, writes, opens nor removes its file. -/
theorem chunks_apart (f g : Bytes) (i j : Int) :
    (chunkKey f i = chunkKey g j ↔ f = g ∧ i = j) ∧
    ∀ s : ChunkStorage, s.Idle → (0 : UInt8) ∉ s.storagePath →
      (∀ issue ∈ s.issued, (0 : UInt8) ∉ issue.1) →
      ∀ events : List StorageEvent, AlongRun step KeyGuard s events →
      ∀ (before : List StorageEvent) (e : StorageEvent), before ++ [e] <+: events →
        opKey s.nextOp (calls before) e = some (chunkKey f i) → (f ≠ g ∨ i ≠ j) →
        let reached := before.foldl step s
        (reached.step e).value (chunkKey g j) = reached.value (chunkKey g j) ∧
          ∀ path : Bytes, reached.chunkRegistry[chunkKey g j]? = some path →
            reached.fileName e ≠ some (cString path) := by
  have hinjective : chunkKey f i = chunkKey g j ↔ f = g ∧ i = j := by
    refine ⟨chunkKey_injective, ?_⟩
    rintro ⟨rfl, rfl⟩
    rfl
  refine ⟨hinjective, ?_⟩
  rintro s hidle hdir hplain events hrun before e ⟨rest, rfl⟩ hkey hother
  have hkeyed := keyed_foldl (hidle.keyed hdir hplain)
    (alongRun_append.mp (alongRun_append.mp hrun).1).1
  refine hkeyed.apart_step ?_
  rw [List.nil_append, hkey, Ne, Option.some.injEq, hinjective, not_and_or]
  exact hother

/-- Chunk 0 of a file with the name of a key is stored and fetched, then chunk 0 of the file that
the key is of is stored and deleted. -/
def nestedNames : List StorageEvent :=
  let outer := chunkKey (ascii "a_chunk_0") 0
  let inner := chunkKey (ascii "a") 0
  [.storeChunk outer (ascii "x") 7, .openFile 0 true, .writeFile 0 (some 1), .register 0,
   .retrieveChunk outer [] false, .openChunk 1, .storeChunk inner (ascii "y") 7, .openFile 2 true,
   .writeFile 2 (some 1), .register 2, .eraseChunk inner]

theorem chunks_apart_nested :
    let s : ChunkStorage := { files := .empty }
    let reached := nestedNames.foldl step s
    reached.value (chunkKey (ascii "a_chunk_0") 0) = ascii "x" ∧
      reached.fileName (.removeFile 3 true) =
        some (ascii "/var/cluster_storage/chunk_a_chunk_0_7_2.dat") ∧
      (reached.step (.removeFile 3 true)).value (chunkKey (ascii "a_chunk_0") 0) =
        reached.value (chunkKey (ascii "a_chunk_0") 0) := by
  intro s reached
  have hidle : s.Idle := ⟨rfl, rfl, rfl, rfl, rfl⟩
  have hrun : AlongRun step KeyGuard s (nestedNames ++ [.removeFile 3 true]) := by decide +kernel
  have hkey : opKey s.nextOp (calls nestedNames) (.removeFile 3 true) =
      some (chunkKey (ascii "a") 0) := by decide +kernel
  have hname : ascii "a" ≠ ascii "a_chunk_0" := by decide
  exact ⟨by decide +kernel, by decide +kernel,
    ((chunks_apart _ _ 0 0).2 s hidle (by decide) (by simp [s]) _ hrun nestedNames
      (.removeFile 3 true) (List.prefix_refl _) hkey (Or.inl hname)).1⟩

/-- The byte `x` is stored under this key, before anything else. -/
def storeAlone (key : Bytes) : List StorageEvent :=
  [.storeChunk key (ascii "x") 7, .openFile 0 true, .writeFile 0 (some 1), .register 0]

/-- **Two chunks that are not kept apart.**  The names `a` NUL `b` and `a` NUL `c` differ, and so do
the keys; but the store of the one empties the file of the other.  And a retrieval of chunk 0 of `f`
that brings the path of chunk 0 of `g` makes that the file of both, so that the deletion of the one
removes the other. -/
theorem chunks_not_apart :
    let s : ChunkStorage := { files := .empty }
    let b := chunkKey [97, 0, 98] 0
    let c := chunkKey [97, 0, 99] 0
    let f := chunkKey (ascii "f") 0
    let g := chunkKey (ascii "g") 0
    let twoStores := storeAlone b ++ [.storeChunk c (ascii "y") 8]
    let fetched := storeAlone g ++
      [.retrieveChunk f (ascii "/var/cluster_storage/chunk_g_chunk_0_7_1.dat") true, .eraseChunk f]
    (b ≠ c ∧ opKey s.nextOp (calls twoStores) (.openFile 1 true) = some c ∧
      (twoStores.foldl step s).value b = ascii "x" ∧
      ((twoStores.foldl step s).step (.openFile 1 true)).value b = []) ∧
    (f ≠ g ∧ opKey s.nextOp (calls fetched) (.removeFile 2 true) = some f ∧
      (fetched.foldl step s).value g = ascii "x" ∧
      ((fetched.foldl step s).step (.removeFile 2 true)).value g = []) := by
  decide +kernel

end ChunkStorage

end FileGrid
