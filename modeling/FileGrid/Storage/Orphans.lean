import FileGrid.Storage.Sequential

/-!
# Files that nobody remembers

A node's chunk files and its registry should tell the same story: every file that the node created
and that is still on the disk is the file of some chunk.  Three things come between them.

* A store of a chunk that the node has already writes a new file and enters that; the old one stays.
* A store whose write fails leaves the file it opened.
* A deletion forgets the chunk before it removes the file, and the removal may fail.

In each case the file is still in order if the registry names it for another chunk, which takes a
NUL byte in the identifiers; and for such files a deletion that succeeds is the one that does harm.
The condition of `no_orphans_iff` is exactly this.
-/

namespace FileGrid

/-- A completed operation of the storage, with what the file system did. -/
inductive StorageOp
  | store (chunkId data : Bytes) (epochUs : Int) (fault : StoreFault)
  | delete (chunkId : Bytes) (removes : Bool)
deriving DecidableEq

/-- The storage, with the names of the files that its stores created. -/
structure Ledger where
  storage : ChunkStorage
  created : List Bytes := []

namespace Ledger

def step (l : Ledger) : StorageOp → Ledger
  | .store chunkId data epochUs fault =>
      { storage := l.storage.completedStore fault epochUs chunkId data
        created := if fault.opens then
          l.created ++ [cString (l.storage.generateChunkPath chunkId epochUs)] else l.created }
  | .delete chunkId removes =>
      { l with storage := l.storage.completedDelete removes chunkId }

/-- The file that the registry has for the chunk. -/
def entry (l : Ledger) (chunkId : Bytes) : Option Bytes :=
  (l.storage.chunkRegistry[chunkId]?).map cString

/-- The file is one of the node's, and still exists. -/
def OnDisk (l : Ledger) (name : Bytes) : Prop :=
  name ∈ l.created ∧ (l.storage.files.read? name).isSome = true

/-- The registry has the file. -/
def Named (l : Ledger) (name : Bytes) : Prop := ∃ chunkId, l.entry chunkId = some name

/-- Another chunk has the file. -/
def Shared (l : Ledger) (chunkId name : Bytes) : Prop :=
  ∃ other, other ≠ chunkId ∧ l.entry other = some name

/-- **The files on the disk are the files of the registry.** -/
def NoOrphans (l : Ledger) : Prop := ∀ name, l.OnDisk name ↔ l.Named name

/-- What an operation needs.  A store that gets its file open but not written: the file is one of
the registry already.  A store that is completed: the file the chunk had is the new one, or another
chunk's.  A deletion: the file goes exactly if no other chunk has it. -/
def TidyGuard (l : Ledger) : StorageOp → Prop
  | .store chunkId data epochUs fault =>
      (fault.opens = true → fault.writesAll data = false →
        l.Named (cString (l.storage.generateChunkPath chunkId epochUs))) ∧
      (fault.writesAll data = true → ∀ old ∈ l.entry chunkId,
        old = cString (l.storage.generateChunkPath chunkId epochUs) ∨ l.Shared chunkId old)
  | .delete chunkId removes =>
      ∀ name ∈ l.entry chunkId, (removes = true ↔ ¬ l.Shared chunkId name)

lemma shared_iff {l : Ledger} {chunkId name : Bytes} :
    (∃ e ∈ l.storage.chunkRegistry.toList, e.1 ≠ chunkId ∧ cString e.2 = name) ↔
      l.Shared chunkId name := by
  constructor
  · rintro ⟨⟨other, path⟩, hmem, hne, rfl⟩
    exact ⟨other, hne, by rw [entry, Map.mem_toList.mp hmem, Option.map_some]⟩
  · rintro ⟨other, hne, hentry⟩
    obtain ⟨path, hreg, rfl⟩ := Option.map_eq_some_iff.mp hentry
    exact ⟨(other, path), Map.mem_toList.mpr hreg, hne, rfl⟩

lemma named_iff_shared (l : Ledger) (chunkId name : Bytes) :
    l.Named name ↔ l.entry chunkId = some name ∨ l.Shared chunkId name := by
  constructor
  · rintro ⟨other, hother⟩
    by_cases heq : other = chunkId
    · exact Or.inl (heq ▸ hother)
    · exact Or.inr ⟨other, heq, hother⟩
  · rintro (hentry | ⟨other, -, hother⟩)
    · exact ⟨chunkId, hentry⟩
    · exact ⟨other, hother⟩

instance (l : Ledger) (chunkId name : Bytes) : Decidable (l.Shared chunkId name) :=
  decidable_of_iff _ shared_iff

instance (l : Ledger) (name : Bytes) : Decidable (l.Named name) :=
  decidable_of_iff _ (l.named_iff_shared [] name).symm

instance (l : Ledger) (name : Bytes) : Decidable (l.OnDisk name) :=
  inferInstanceAs (Decidable (_ ∧ _))

instance (l : Ledger) : ∀ op, Decidable (l.TidyGuard op)
  | .store _ _ _ _ => inferInstanceAs (Decidable (_ ∧ _))
  | .delete chunkId removes =>
      inferInstanceAs (Decidable (∀ name ∈ l.entry chunkId,
        (removes = true ↔ ¬ l.Shared chunkId name)))

/-! ## Steps -/

lemma opens_of_writesAll {fault : StoreFault} {data : Bytes} (h : fault.writesAll data = true) :
    fault.opens = true := by
  cases fault <;> first | rfl | cases h

/-- A store adds the file it opens. -/
lemma onDisk_store (l : Ledger) (chunkId data : Bytes) (epochUs : Int) (fault : StoreFault)
    (name : Bytes) : (l.step (.store chunkId data epochUs fault)).OnDisk name ↔
      (fault.opens = true ∧ name = cString (l.storage.generateChunkPath chunkId epochUs)) ∨
        l.OnDisk name := by
  have hfiles := (l.storage.afterStore fault epochUs chunkId data).files name
  rw [OnDisk, OnDisk, step]
  dsimp only
  rw [hfiles]
  cases fault.opens with
  | false => simp
  | true =>
      by_cases hname : name = cString (l.storage.generateChunkPath chunkId epochUs)
      · simp [hname]
      · simp [hname]

/-- What the registry names after a store. -/
lemma named_store (l : Ledger) (chunkId data : Bytes) (epochUs : Int) (fault : StoreFault)
    (name : Bytes) :
    (l.step (.store chunkId data epochUs fault)).Named name ↔
      if fault.writesAll data = true then
        name = cString (l.storage.generateChunkPath chunkId epochUs) ∨ l.Shared chunkId name
      else l.Named name := by
  have hreg := (l.storage.afterStore fault epochUs chunkId data).chunkRegistry
  have hentry : ∀ other, (l.step (.store chunkId data epochUs fault)).entry other =
      if fault.writesAll data = true ∧ other = chunkId then
        some (cString (l.storage.generateChunkPath chunkId epochUs)) else l.entry other := by
    intro other
    rw [entry, step]
    dsimp only
    rw [hreg]
    cases fault.writesAll data with
    | false => simp [entry]
    | true =>
        by_cases heq : other = chunkId
        · simp [heq]
        · simp [heq, entry]
  cases hall : fault.writesAll data with
  | false => simp [Named, hentry, hall]
  | true =>
      rw [named_iff_shared _ chunkId, if_pos rfl, hentry, if_pos ⟨hall, rfl⟩, Option.some.injEq,
        eq_comm]
      refine or_congr_right (exists_congr fun other => and_congr_right fun hne => ?_)
      rw [hentry, if_neg (by simp [hne])]

/-- A deletion takes away the file of the chunk, if it can be removed. -/
lemma onDisk_delete (l : Ledger) (chunkId : Bytes) (removes : Bool) (name : Bytes) :
    (l.step (.delete chunkId removes)).OnDisk name ↔
      l.OnDisk name ∧ ¬ (removes = true ∧ l.entry chunkId = some name) := by
  have hfiles := (l.storage.afterDelete removes chunkId).files name
  rw [OnDisk, OnDisk, step, entry]
  dsimp only
  rw [hfiles]
  by_cases hgone : removes = true ∧ (l.storage.chunkRegistry[chunkId]?).map cString = some name
  · simp [hgone]
  · rw [if_neg hgone]
    tauto

/-- And the chunk. -/
lemma named_delete (l : Ledger) (chunkId : Bytes) (removes : Bool) (name : Bytes) :
    (l.step (.delete chunkId removes)).Named name ↔ l.Shared chunkId name := by
  have hreg := (l.storage.afterDelete removes chunkId).chunkRegistry
  have hentry : ∀ other, (l.step (.delete chunkId removes)).entry other =
      if other = chunkId then none else l.entry other := by
    intro other
    rw [entry, step]
    dsimp only
    rw [hreg, Map.get_erase]
    split_ifs <;> rfl
  refine exists_congr fun other => ?_
  rw [hentry]
  by_cases heq : other = chunkId <;> simp [heq]

/-- **What an operation does to the files and the registry**, if they told the same story before. -/
theorem noOrphans_step {l : Ledger} (h : l.NoOrphans) (op : StorageOp) :
    (l.step op).NoOrphans ↔ l.TidyGuard op := by
  cases op with
  | store chunkId data epochUs fault =>
      have hstep : (l.step (.store chunkId data epochUs fault)).NoOrphans ↔ ∀ name,
          ((fault.opens = true ∧ name = cString (l.storage.generateChunkPath chunkId epochUs)) ∨
            l.Named name) ↔
          if fault.writesAll data = true then
            name = cString (l.storage.generateChunkPath chunkId epochUs) ∨ l.Shared chunkId name
          else l.Named name := by
        refine forall_congr' fun name => ?_
        rw [onDisk_store, named_store, h name]
      rw [hstep, TidyGuard]
      cases hall : fault.writesAll data with
      | true =>
          -- the file that the chunk had must still be somebody's
          simp only [opens_of_writesAll hall, if_true, true_and, true_implies,
            named_iff_shared l chunkId, reduceCtorEq, false_implies, Option.mem_def]
          refine forall_congr' fun name => ?_
          tauto
      | false =>
          cases hopens : fault.opens with
          | true =>
              -- the file that was opened must be somebody's
              simp only [Bool.false_eq_true, if_false, true_and, true_implies, false_implies,
                and_true]
              refine ⟨fun hname => (hname _).mp (Or.inl rfl), fun hentry name => ?_⟩
              refine ⟨?_, Or.inr⟩
              rintro (rfl | hother)
              · exact hentry
              · exact hother
          | false => simp
  | delete chunkId removes =>
      have hstep : (l.step (.delete chunkId removes)).NoOrphans ↔ ∀ name,
          ((l.entry chunkId = some name ∨ l.Shared chunkId name) ∧
            ¬ (removes = true ∧ l.entry chunkId = some name)) ↔ l.Shared chunkId name := by
        refine forall_congr' fun name => ?_
        rw [onDisk_delete, named_delete, h name, named_iff_shared l chunkId]
      rw [hstep, TidyGuard]
      refine forall_congr' fun name => ?_
      rw [Option.mem_def]
      tauto

/-! ## Runs -/

/-- **When no chunk file is forgotten**: after every operation of a sequence, the files that the
node created and that are still on the disk are the files of its registry, exactly if each operation
finds what it needs. -/
theorem no_orphans_iff {s : ChunkStorage} (hempty : s.chunkRegistry = ∅) (ops : List StorageOp) :
    (∀ before, before <+: ops → (before.foldl step { storage := s }).NoOrphans) ↔
      AlongRun step TidyGuard { storage := s } ops := by
  refine forall_reached_iff (fun _ => True) NoOrphans (fun _ _ _ => trivial)
    (fun l op _ h => noOrphans_step h op) trivial ?_
  intro name
  simp [OnDisk, Named, entry, hempty]

/-- A chunk is stored, deleted and stored again. -/
def storedAgain : List StorageOp :=
  [.store (ascii "k") (ascii "ab") 1 .none, .delete (ascii "k") true,
   .store (ascii "k") (ascii "ab") 2 .none]

theorem no_orphans_stored_again :
    let s : ChunkStorage := { files := .empty }
    ∀ before, before <+: storedAgain → (before.foldl step { storage := s }).NoOrphans := by
  intro s
  refine (no_orphans_iff (s := s) rfl storedAgain).mpr ?_
  decide +kernel

/-- **A file is forgotten.**  The same chunk is stored twice, as an upload of the file again does,
and the first file stays without an entry; a store whose write fails leaves one too. -/
theorem chunk_file_orphaned :
    let l : Ledger := { storage := { files := .empty } }
    let twice := [.store (ascii "k") (ascii "a") 1 .none,
      .store (ascii "k") (ascii "b") 2 .none].foldl step l
    let failed := [.store (ascii "k") (ascii "ab") 1 (.writeFails 1)].foldl step l
    let first := ascii "/var/cluster_storage/chunk_k_1_1.dat"
    (twice.OnDisk first ∧ twice.storage.files.read? first = some (ascii "a") ∧
      ¬ twice.NoOrphans) ∧
    (failed.OnDisk first ∧ failed.storage.files.read? first = some (ascii "a") ∧
      ¬ failed.NoOrphans) := by
  intro l twice failed first
  have htwice : twice.OnDisk first ∧ ¬ twice.Named first := by decide +kernel
  have hfailed : failed.OnDisk first ∧ ¬ failed.Named first := by decide +kernel
  refine ⟨⟨htwice.1, by decide +kernel, fun h => ?_⟩, hfailed.1, by decide +kernel, fun h => ?_⟩
  · exact htwice.2 ((h first).mp htwice.1)
  · exact hfailed.2 ((h first).mp hfailed.1)

end Ledger

end FileGrid
