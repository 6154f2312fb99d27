import FileGrid.Storage.Tasks

/-!
# The storage of a node is a map

What the storage is for: a map from chunk identifiers to bytes, which a store that completes changes
at one key and a deletion that completes clears at one key.  `value` is what the registry and the
files make of a key, and the question is whether it is that map at every moment, with any number of
stores, retrievals and deletions half-way.

**Who holds which file.**  A file name is used by a store that is under way, or by an entry of the
registry, or by a deletion that has not removed the file yet, and never by two of them.  Entering a
file in the registry hands its name on, from the store to the entry, and so does a deletion; a
store takes a name that nobody had.  `sound_step` is this discipline, with what follows from it for
the files: a file that is being written holds what was written so far, and a file of the registry is
there.

**What the names rest on.**  That a store takes a new name is where the numbers in the paths come
in, and where it fails: the operating system reads the path up to a NUL byte, so the name of a chunk
whose identifier has one ends before the numbers, and other stores get the same file.

* `value_step` — an event changes what the keys hold by what it completes, and by nothing else.
* `answering_step` — a retrieval that is under way will return what its key held when it was
  submitted, as long as nothing completes for that key.
-/

namespace FileGrid

/-- What a key holds by what was completed, in order: the data of the last store, if no deletion
came after it. -/
def lastStored (completed : List (Bytes × Option Bytes)) (key : Bytes) : Bytes :=
  (((completed.filter (·.1 = key)).getLast?).bind (·.2)).getD []

lemma lastStored_concat (completed : List (Bytes × Option Bytes)) (c : Bytes × Option Bytes)
    (key : Bytes) : lastStored (completed ++ [c]) key =
      if key = c.1 then c.2.getD [] else lastStored completed key := by
  rw [lastStored, List.filter_append]
  by_cases hkey : key = c.1
  · simp [hkey]
  · simp [hkey, Ne.symm hkey, lastStored]

namespace ChunkStorage

/-- What a retrieval of the key finds, when nothing else happens. -/
def value (s : ChunkStorage) (key : Bytes) : Bytes :=
  match s.chunkRegistry[key]? with
  | some path => (s.files.read? (cString path)).getD []
  | none => []

/-- What uses a file name. -/
inductive Holder
  | store (op : Nat)
  | entry (key : Bytes)
  | removal (op : Nat)
deriving DecidableEq

def holds (s : ChunkStorage) : Holder → Option Bytes
  | .store op => (s.stores[op]?).map fun task => cString task.path
  | .entry key => (s.chunkRegistry[key]?).map cString
  | .removal op => (s.removals[op]?).map cString

/-- The holder whose file an event changes. -/
def actor : StorageEvent → Option Holder
  | .openFile op _ | .writeFile op _ => some (.store op)
  | .removeFile op _ => some (.removal op)
  | _ => none

/-! ## Names -/

/-- The parts of a path can be read off it. -/
lemma chunkPath_inj {dir k k' : Bytes} {us us' : Int} {seq seq' : Nat}
    (h : chunkPath dir k us seq = chunkPath dir k' us' seq') : k = k' ∧ us = us' ∧ seq = seq' := by
  obtain ⟨rfl, rfl⟩ := chunkPath_injective h
  refine ⟨rfl, rfl, ?_⟩
  have hnum : natDec seq = natDec seq' := by
    simpa only [chunkPath, List.append_cancel_left_eq, List.append_cancel_right_eq] using h
  have hdec : dec (seq : Int) = dec (seq' : Int) := by rw [dec_natCast, dec_natCast, hnum]
  exact Int.ofNat_inj.mp (dec_injective hdec)

/-! ## The discipline -/

/-- The events under which the storage is a map: a store whose key has no NUL byte, and whose key,
time stamp and number are not all those of an earlier one; and retrievals without a path to fall
back on. -/
def MapGuard (s : ChunkStorage) : StorageEvent → Prop
  | .storeChunk chunkId _ epochUs =>
      (0 : UInt8) ∉ chunkId ∧ (chunkId, epochUs, s.nextSeq) ∉ s.issued
  | .retrieveChunk _ fallbackPath _ => fallbackPath = []
  | _ => True

instance (s : ChunkStorage) : ∀ e, Decidable (s.MapGuard e)
  | .storeChunk _ _ _ => inferInstanceAs (Decidable (_ ∧ _))
  | .retrieveChunk _ _ _ => inferInstanceAs (Decidable (_ = _))
  | .openFile _ _ | .writeFile _ _ | .register _ | .openChunk _ | .seekEnd _ | .readChunk _ _
  | .readFails _ | .eraseChunk _ | .removeFile _ _ => isTrue trivial

/-- There is no operation of this number yet. -/
structure Unused (s : ChunkStorage) (op : Nat) : Prop where
  stores : s.stores[op]? = none
  retrievals : s.retrievals[op]? = none
  removals : s.removals[op]? = none
  retrieveResults : s.retrieveResults[op]? = none

/-- Every name has one holder, was generated for a key without a NUL byte, and has the file its
holder expects. -/
structure Sound (s : ChunkStorage) : Prop where
  dir : (0 : UInt8) ∉ s.storagePath
  plain : ∀ {key : Bytes} {us : Int} {seq : Nat}, (key, us, seq) ∈ s.issued → (0 : UInt8) ∉ key
  exclusive : Exclusive s.holds
  generated : ∀ {holder name}, s.holds holder = some name → ∃ key us seq,
    (key, us, seq) ∈ s.issued ∧ name = chunkPath s.storagePath key us seq
  unused : ∀ op, s.nextOp ≤ op → s.Unused op
  written : ∀ {op file written : Nat} {chunkId path data : Bytes},
    s.stores[op]? = some { chunkId, path, data, phase := .writing file written } →
      written ≤ data.length ∧ s.files.names[cString path]? = some file ∧
        s.files.content file = data.take written
  present : ∀ {key path : Bytes}, s.chunkRegistry[key]? = some path →
    ∃ file : Nat, s.files.names[cString path]? = some file

lemma Fresh.sound {s : ChunkStorage} (h : s.Fresh) (hdir : (0 : UInt8) ∉ s.storagePath) :
    s.Sound := by
  have hholds : ∀ holder, s.holds holder = none := by
    intro holder
    cases holder <;> simp [holds, h.stores, h.chunkRegistry, h.removals]
  refine ⟨hdir, ?_, ?_, ?_, ?_, ?_, ?_⟩
  · simp [h.issued]
  · intro holder holder' name hname
    simp [hholds] at hname
  · intro holder name hname
    simp [hholds] at hname
  · intro op _
    constructor <;> simp [h.stores, h.retrievals, h.removals, h.retrieveResults]
  · simp [h.stores]
  · simp [h.chunkRegistry]

lemma actor_of_reader {e : StorageEvent} {op : Nat} (h : e.reader = some op) : actor e = none := by
  cases e <;> first | rfl | cases h

lemma holds_store {s : ChunkStorage} {op : Nat} {task : StoreTask}
    (h : s.stores[op]? = some task) : s.holds (.store op) = some (cString task.path) := by
  rw [holds, h, Option.map_some]

lemma holds_entry {s : ChunkStorage} {key path : Bytes} (h : s.chunkRegistry[key]? = some path) :
    s.holds (.entry key) = some (cString path) := by
  rw [holds, h, Option.map_some]

lemma holds_removal {s : ChunkStorage} {op : Nat} {path : Bytes}
    (h : s.removals[op]? = some path) : s.holds (.removal op) = some (cString path) := by
  rw [holds, h, Option.map_some]

/-- **An event changes no file but that of its actor.** -/
theorem sameFile_step {s : ChunkStorage} (h : s.Sound) {e : StorageEvent} {holder : Holder}
    {name : Bytes} (hname : s.holds holder = some name) (hactor : actor e ≠ some holder) :
    s.files.SameFile (s.step e).files name := by
  have heffect := effect_step s e
  generalize s.step e = s' at heffect ⊢
  -- the name of the actor is another
  have hother : ∀ acting name', actor e = some acting → s.holds acting = some name' →
      name ≠ name' := by
    rintro acting name' he hname' rfl
    rw [h.exclusive hname hname'] at hactor
    exact hactor he
  cases heffect with
  | opens htask => exact s.files.sameFile_create (hother _ _ rfl (holds_store htask))
  | writes htask hlt =>
      exact FileSystem.sameFile_writeAt (h.written htask).2.1
        (hother _ _ rfl (holds_store htask)) _ _
  | removes removes hremoval =>
      cases removes with
      | false => exact .refl _ _
      | true => exact s.files.sameFile_unlink (hother _ _ rfl (holds_removal hremoval))
  | _ => exact .refl _ _

/-- A file of the registry is nobody's to change. -/
lemma Sound.sameFile_entry {s : ChunkStorage} (h : s.Sound) {key path : Bytes}
    (hreg : s.chunkRegistry[key]? = some path) (e : StorageEvent) :
    s.files.SameFile (s.step e).files (cString path) := by
  refine sameFile_step h (holds_entry hreg) ?_
  cases e <;> simp [actor]

/-- What a store that is under way has written stays. -/
lemma Sound.written_step {s : ChunkStorage} (h : s.Sound) {e : StorageEvent}
    {op file written : Nat} {chunkId path data : Bytes}
    (htask : s.stores[op]? = some { chunkId, path, data, phase := .writing file written })
    (hactor : actor e ≠ some (.store op)) :
    written ≤ data.length ∧ (s.step e).files.names[cString path]? = some file ∧
      (s.step e).files.content file = data.take written := by
  obtain ⟨hle, hname, hcontent⟩ := h.written htask
  have hsame := sameFile_step h (holds_store htask) hactor
  exact ⟨hle, hsame.names.trans hname, (hsame.content hname).trans hcontent⟩

/-- Every name has one holder, and was generated. -/
def NamesOk (s : ChunkStorage) : Prop :=
  Exclusive s.holds ∧ ∀ {holder name}, s.holds holder = some name →
    ∃ key us seq, (key, us, seq) ∈ s.issued ∧ name = chunkPath s.storagePath key us seq

/-- Names that are given up or handed over. -/
lemma Sound.namesOk_of_handed {s s' : ChunkStorage} (h : s.Sound) {f : Holder → Holder}
    (hf : f.Injective) (hfrom : ∀ x name, s'.holds x = some name → s.holds (f x) = some name)
    (hissued : s'.issued = s.issued) (hdir : s'.storagePath = s.storagePath) : s'.NamesOk := by
  refine ⟨h.exclusive.of_injective hf hfrom, ?_⟩
  intro holder name hname
  rw [hissued, hdir]
  exact h.generated (hfrom holder name hname)

/-- A store takes a name that nobody has. -/
lemma namesOk_storeChunk {s : ChunkStorage} (h : s.Sound) {chunkId data : Bytes} {epochUs : Int}
    (hguard : s.MapGuard (.storeChunk chunkId data epochUs)) :
    (s.storeChunk chunkId data epochUs).NamesOk := by
  obtain ⟨hnul, hnew⟩ := hguard
  have hpath : cString (s.generateChunkPath chunkId epochUs) =
      s.generateChunkPath chunkId epochUs :=
    cString_of_not_mem (zero_not_mem_chunkPath h.dir hnul _ _)
  have hholds : ∀ holder, (s.storeChunk chunkId data epochUs).holds holder =
      if holder = .store s.nextOp then some (s.generateChunkPath chunkId epochUs)
      else s.holds holder := by
    intro holder
    cases holder with
    | store op =>
        simp only [holds, storeChunk, Map.get_insert, Holder.store.injEq]
        split_ifs <;> simp [hpath]
    | entry key => simp [holds, storeChunk]
    | removal op => simp [holds, storeChunk]
  refine ⟨h.exclusive.take ?_ hholds, ?_⟩
  · intro holder hname
    obtain ⟨key, us, seq, hmem, hname⟩ := h.generated hname
    obtain ⟨rfl, rfl, rfl⟩ := chunkPath_inj hname
    exact hnew hmem
  · intro holder name hname
    rw [hholds] at hname
    split_ifs at hname
    · cases hname
      exact ⟨chunkId, epochUs, s.nextSeq, by simp [storeChunk], rfl⟩
    · obtain ⟨key, us, seq, hmem, rfl⟩ := h.generated hname
      exact ⟨key, us, seq, by simp [storeChunk, hmem], rfl⟩

/-- **Who holds which name after an event.** -/
theorem namesOk_step {s : ChunkStorage} (h : s.Sound) {e : StorageEvent} (hguard : s.MapGuard e) :
    (s.step e).NamesOk := by
  have heffect := effect_step s e
  generalize s.step e = s' at heffect ⊢
  cases heffect with
  | submits chunkId data epochUs => exact namesOk_storeChunk h hguard
  | adopts hreg hpath => exact absurd hguard hpath
  | opens htask | writes htask hlt =>
      refine h.namesOk_of_handed Function.injective_id ?_ rfl rfl
      intro holder name hname
      cases holder with
      | store op' =>
          simp only [holds, Map.get_insert] at hname
          split_ifs at hname with hop
          · rw [id, hop, holds_store htask]
            exact hname
          · exact hname
      | entry key => exact hname
      | removal op' => exact hname
  | @fails e op he =>
      refine h.namesOk_of_handed Function.injective_id ?_ rfl rfl
      intro holder name hname
      cases holder with
      | store op' =>
          simp only [holds, storeFails, Map.get_erase] at hname
          split_ifs at hname with hop
          · cases hname
          · exact hname
      | entry key => exact hname
      | removal op' => exact hname
  | @registers op chunkId path data file written htask hge =>
      -- the name goes from the store to the entry
      refine h.namesOk_of_handed
        (Equiv.swap (Holder.entry chunkId) (.store op)).injective ?_ rfl rfl
      intro holder name hname
      cases holder with
      | store op' =>
          simp only [holds, Map.get_erase] at hname
          split_ifs at hname with hop
          · cases hname
          · rw [Equiv.swap_apply_of_ne_of_ne (by simp) (by simpa using hop)]
            exact hname
      | entry key =>
          simp only [holds, Map.get_insert] at hname
          split_ifs at hname with hkey
          · rw [hkey, Equiv.swap_apply_left, holds_store htask]
            exact hname
          · rw [Equiv.swap_apply_of_ne_of_ne (by simpa using hkey) (by simp)]
            exact hname
      | removal op' =>
          rw [Equiv.swap_apply_of_ne_of_ne (by simp) (by simp)]
          exact hname
  | @erases chunkId path hreg =>
      -- the name goes from the entry to the deletion
      refine h.namesOk_of_handed
        (Equiv.swap (Holder.removal s.nextOp) (.entry chunkId)).injective ?_ rfl rfl
      intro holder name hname
      cases holder with
      | store op' =>
          rw [Equiv.swap_apply_of_ne_of_ne (by simp) (by simp)]
          exact hname
      | entry key =>
          simp only [holds, Map.get_erase] at hname
          split_ifs at hname with hkey
          · cases hname
          · rw [Equiv.swap_apply_of_ne_of_ne (by simp) (by simpa using hkey)]
            exact hname
      | removal op' =>
          simp only [holds, Map.get_insert] at hname
          split_ifs at hname with hop
          · rw [hop, Equiv.swap_apply_left, holds_entry hreg]
            exact hname
          · rw [Equiv.swap_apply_of_ne_of_ne (by simpa using hop) (by simp)]
            exact hname
  | removes removes hremoval =>
      refine h.namesOk_of_handed Function.injective_id ?_ rfl rfl
      intro holder name hname
      cases holder with
      | store op' => exact hname
      | entry key => exact hname
      | removal op' =>
          simp only [holds, Map.get_erase] at hname
          split_ifs at hname with hop
          · cases hname
          · exact hname
  | _ => exact h.namesOk_of_handed Function.injective_id (fun _ _ hname => hname) rfl rfl

@[simp] lemma storagePath_step (s : ChunkStorage) (e : StorageEvent) :
    (s.step e).storagePath = s.storagePath := by
  have heffect := effect_step s e
  generalize s.step e = s' at heffect ⊢
  cases heffect <;> rfl

/-- Only a store is entered among what was issued. -/
lemma issued_step (s : ChunkStorage) (e : StorageEvent) :
    (s.step e).issued = s.issued ∨ ∃ chunkId data epochUs, e = .storeChunk chunkId data epochUs ∧
      (s.step e).issued = s.issued ++ [(chunkId, epochUs, s.nextSeq)] := by
  have heffect := effect_step s e
  generalize s.step e = s' at heffect ⊢
  cases heffect with
  | submits chunkId data epochUs => exact Or.inr ⟨chunkId, data, epochUs, rfl, rfl⟩
  | _ => exact Or.inl rfl

lemma plain_step {s : ChunkStorage} (h : s.Sound) {e : StorageEvent} (hguard : s.MapGuard e)
    {key : Bytes} {us : Int} {seq : Nat} (hmem : (key, us, seq) ∈ (s.step e).issued) :
    (0 : UInt8) ∉ key := by
  rcases issued_step s e with hissued | ⟨chunkId, data, epochUs, rfl, hissued⟩
  · rw [hissued] at hmem
    exact h.plain hmem
  · rw [hissued, List.mem_append, List.mem_singleton] at hmem
    rcases hmem with hmem | hmem
    · exact h.plain hmem
    · cases hmem
      exact hguard.1

/-- The numbers that are given out are below the next one. -/
lemma unused_step {s : ChunkStorage} (h : ∀ op, s.nextOp ≤ op → s.Unused op) (e : StorageEvent) :
    ∀ op, (s.step e).nextOp ≤ op → (s.step e).Unused op := by
  intro op hop
  have hold : s.Unused op := h op (by rw [nextOp_step] at hop; omega)
  have heffect := effect_step s e
  generalize s.step e = s' at heffect hop ⊢
  -- a call takes the next number, and only what there is changes
  have hnew : s.nextOp < s'.nextOp → op ≠ s.nextOp := fun hlt => (hlt.trans_le hop).ne'
  have hother : ∀ {α : Type} {m : Map Nat α} {op' : Nat} {task : α}, m[op']? = some task →
      m[op]? = none → op ≠ op' := by
    rintro α m op' task htask hnone rfl
    cases hnone.symm.trans htask
  cases heffect with
  | submits chunkId data epochUs =>
      refine { hold with stores := ?_ }
      rw [storeChunk, Map.get_insert, if_neg (hnew (Nat.lt_succ_self _)), hold.stores]
  | opens htask | writes htask hlt =>
      refine { hold with stores := ?_ }
      rw [Map.get_insert, if_neg (hother htask hold.stores), hold.stores]
  | fails he | registers htask hge =>
      refine { hold with stores := ?_ }
      simp only [storeFails, Map.get_erase, hold.stores, ite_self]
  | finds hfound | adopts hnone hpath =>
      refine { hold with retrievals := ?_ }
      rw [submitRetrieval, Map.get_insert, if_neg (hnew (Nat.lt_succ_self _)), hold.retrievals]
  | misses hnone hpath =>
      refine { hold with retrieveResults := ?_ }
      rw [Map.get_insert, if_neg (hnew (Nat.lt_succ_self _)), hold.retrieveResults]
  | reads htask he =>
      refine { hold with retrievals := ?_ }
      rw [Map.get_insert, if_neg (hother htask hold.retrievals), hold.retrievals]
  | returns data htask he =>
      refine { hold with retrievals := ?_, retrieveResults := ?_ }
      · simp only [retrieveReturns, Map.get_erase, hold.retrievals, ite_self]
      · rw [retrieveReturns, Map.get_insert, if_neg (hother htask hold.retrievals),
          hold.retrieveResults]
  | erases hfound =>
      refine { hold with removals := ?_ }
      rw [Map.get_insert, if_neg (hnew (Nat.lt_succ_self _)), hold.removals]
  | removes removes hremoval =>
      refine { hold with removals := ?_ }
      simp only [Map.get_erase, hold.removals, ite_self]
  | idle hidle => exact hold
  | unknown hnone => exact { hold with }

/-- What the stores under way have written, after an event. -/
lemma written_after {s : ChunkStorage} (h : s.Sound) {e : StorageEvent} {op file written : Nat}
    {chunkId path data : Bytes} (htask : (s.step e).stores[op]? =
      some { chunkId, path, data, phase := .writing file written }) :
    written ≤ data.length ∧ (s.step e).files.names[cString path]? = some file ∧
      (s.step e).files.content file = data.take written := by
  have hkeep : actor e ≠ some (.store op) →
      s.stores[op]? = some { chunkId, path, data, phase := .writing file written } →
      written ≤ data.length ∧ (s.step e).files.names[cString path]? = some file ∧
        (s.step e).files.content file = data.take written :=
    fun hactor htask => h.written_step htask hactor
  have heffect := effect_step s e
  generalize s.step e = s' at heffect hkeep htask ⊢
  cases heffect with
  | idle hidle => exact h.written htask
  | submits chunkId' data' epochUs =>
      simp only [storeChunk, Map.get_insert] at htask
      split_ifs at htask with hop
      · cases htask
      · exact hkeep (by simp [actor]) htask
  | @opens op' chunkId' path' data' hopen =>
      simp only [Map.get_insert] at htask
      split_ifs at htask with hop
      · -- the file is empty, and nothing is written
        cases htask
        refine ⟨Nat.zero_le _, ?_, ?_⟩
        · rw [FileSystem.names_create, if_pos rfl]
        · rw [FileSystem.content_create, if_pos rfl, List.take_zero]
      · exact hkeep (by simpa [actor] using Ne.symm hop) htask
  | @fails e op' he =>
      simp only [storeFails, Map.get_erase] at htask
      split_ifs at htask with hop
      refine hkeep ?_ htask
      rcases he with rfl | rfl <;> simpa [actor] using Ne.symm hop
  | @writes op' chunkId' path' data' file' written' n hwrite hlt =>
      simp only [Map.get_insert] at htask
      split_ifs at htask with hop
      · -- one more piece is written
        cases htask
        obtain ⟨hle, hname, hcontent⟩ := h.written hwrite
        refine ⟨?_, hname, ?_⟩
        · rw [List.length_take, List.length_drop]
          omega
        · rw [FileSystem.content_writeAt, if_pos rfl, hcontent, overwrite_take hle]
      · exact hkeep (by simpa [actor] using Ne.symm hop) htask
  | registers hregister hge =>
      simp only [Map.get_erase] at htask
      split_ifs at htask with hop
      exact hkeep (by simp [actor]) htask
  | reads hread he | returns data' hread he =>
      refine hkeep ?_ htask
      rw [actor_of_reader he]
      simp
  | _ => exact hkeep (by simp [actor]) htask

/-- The files of the registry are there, after an event. -/
lemma present_after {s : ChunkStorage} (h : s.Sound) {e : StorageEvent} (hguard : s.MapGuard e)
    {key path : Bytes} (hreg : (s.step e).chunkRegistry[key]? = some path) :
    ∃ file : Nat, (s.step e).files.names[cString path]? = some file := by
  have hkeep : s.chunkRegistry[key]? = some path →
      ∃ file : Nat, (s.step e).files.names[cString path]? = some file := by
    intro hreg
    obtain ⟨file, hfile⟩ := h.present hreg
    exact ⟨file, (h.sameFile_entry hreg e).names.trans hfile⟩
  have heffect := effect_step s e
  generalize s.step e = s' at heffect hkeep hreg ⊢
  cases heffect with
  | adopts hnone hpath => exact absurd hguard hpath
  | registers htask hge =>
      simp only [Map.get_insert] at hreg
      split_ifs at hreg with hkey
      · cases hreg
        exact ⟨_, (h.written htask).2.1⟩
      · exact hkeep hreg
  | erases hfound =>
      simp only [Map.get_erase] at hreg
      split_ifs at hreg with hkey
      exact hkeep hreg
  | _ => exact hkeep hreg

/-- **The discipline is kept.** -/
theorem sound_step {s : ChunkStorage} (h : s.Sound) {e : StorageEvent} (hguard : s.MapGuard e) :
    (s.step e).Sound where
  dir := by
    rw [storagePath_step]
    exact h.dir
  plain := plain_step h hguard
  exclusive := (namesOk_step h hguard).1
  generated := (namesOk_step h hguard).2
  unused := unused_step h.unused e
  written := written_after h
  present := present_after h hguard

/-! ## What the keys hold -/

lemma value_congr {s s' : ChunkStorage} {key : Bytes}
    (hreg : s'.chunkRegistry[key]? = s.chunkRegistry[key]?)
    (hsame : ∀ path : Bytes, s.chunkRegistry[key]? = some path →
      s.files.SameFile s'.files (cString path)) : s'.value key = s.value key := by
  rw [value, value, hreg]
  cases hentry : s.chunkRegistry[key]? with
  | none => rfl
  | some path => exact congrArg (·.getD []) (hsame path hentry).read?

lemma completion_of_reader {s : ChunkStorage} {e : StorageEvent} {op : Nat}
    (h : e.reader = some op) : s.completion e = none := by
  cases e <;> first | rfl | cases h

/-- **An event changes what the keys hold by what it completes.** -/
theorem value_step {s : ChunkStorage} (h : s.Sound) {e : StorageEvent} (hguard : s.MapGuard e)
    (key : Bytes) : (s.step e).value key = match s.completion e with
      | some c => if key = c.1 then c.2.getD [] else s.value key
      | none => s.value key := by
  have hsame : ∀ path : Bytes, s.chunkRegistry[key]? = some path →
      s.files.SameFile (s.step e).files (cString path) := fun path hreg => h.sameFile_entry hreg e
  have heffect := effect_step s e
  generalize s.step e = s' at heffect hsame ⊢
  cases heffect with
  | idle hidle => rw [hidle]
  | adopts hnone hpath => exact absurd hguard hpath
  | fails he =>
      have hnone : s.completion e = none := by rcases he with rfl | rfl <;> rfl
      rw [hnone]
      exact value_congr rfl hsame
  | reads htask he | returns data htask he =>
      rw [completion_of_reader he]
      exact value_congr rfl hsame
  | @registers op chunkId path data file written htask hge =>
      have hcompletes : s.completion (.register op) = some (chunkId, some data) := by
        simp only [completion, htask, if_neg (not_lt.mpr hge)]
      rw [hcompletes]
      dsimp only
      by_cases hkey : key = chunkId
      · -- the file that is entered holds the whole data
        obtain ⟨-, hname, hcontent⟩ := h.written htask
        rw [if_pos hkey, value, Map.get_insert, if_pos hkey]
        dsimp only
        rw [FileSystem.read?_of_names hname, hcontent, List.take_of_length_le hge]
      · rw [if_neg hkey]
        exact value_congr (by rw [Map.get_insert, if_neg hkey]) hsame
  | @erases chunkId path hfound =>
      rw [completion]
      dsimp only
      by_cases hkey : key = chunkId
      · rw [if_pos hkey, value, Map.get_erase, if_pos hkey, Option.getD_none]
      · rw [if_neg hkey]
        exact value_congr (by rw [Map.get_erase, if_neg hkey]) hsame
  | @unknown chunkId hnone =>
      rw [completion]
      dsimp only
      by_cases hkey : key = chunkId
      · rw [if_pos hkey, value, hkey, hnone, Option.getD_none]
      · rw [if_neg hkey]
        exact value_congr rfl hsame
  | _ => exact value_congr rfl hsame

/-- **What the keys hold after a run** is what the run completed. -/
theorem value_foldl {s : ChunkStorage} (h : s.Sound) {events : List StorageEvent}
    (hrun : AlongRun step MapGuard s events) {completed : List (Bytes × Option Bytes)}
    (hvalue : ∀ key, s.value key = lastStored completed key) (key : Bytes) :
    (events.foldl step s).value key = lastStored (completed ++ s.completions events) key := by
  induction events generalizing s completed with
  | nil => simpa [completions] using hvalue key
  | cons e events ih =>
      rw [List.foldl_cons, completions, ← List.append_assoc]
      refine ih (sound_step h hrun.1) hrun.2 fun key => ?_
      rw [value_step h hrun.1]
      cases s.completion e with
      | none => simpa using hvalue key
      | some c =>
          dsimp only [Option.toList]
          rw [lastStored_concat, hvalue]

/-! ## What a retrieval returns -/

/-- How far a retrieval of this content has come. -/
inductive OnTheWay (file : Nat) (data : Bytes) : RetrievePhase → Prop
  | submitted : OnTheWay file data .submitted
  | opened : OnTheWay file data (.opened file)
  | reading (total : Nat) : OnTheWay file data (.reading file data.length (data.take total))

/-- The retrieval has returned the data, or is on the way to it by an entry of the registry. -/
inductive Answering (s : ChunkStorage) (op : Nat) (key data : Bytes) : Prop
  | answered (hresult : s.retrieveResults[op]? = some data) (hdone : s.retrievals[op]? = none)
  | pending {path : Bytes} {file : Nat} {phase : RetrievePhase}
      (hreg : s.chunkRegistry[key]? = some path)
      (hname : s.files.names[cString path]? = some file) (hcontent : s.files.content file = data)
      (htask : s.retrievals[op]? = some { chunkPath := path, phase })
      (hphase : OnTheWay file data phase) (hresult : s.retrieveResults[op]? = none)

/-- A retrieval is submitted. -/
lemma answering_retrieveChunk {s : ChunkStorage} (h : s.Sound) (key : Bytes) (pathExists : Bool) :
    (s.step (.retrieveChunk key [] pathExists)).Answering s.nextOp key (s.value key) := by
  have hunused := h.unused s.nextOp le_rfl
  rw [step, retrieveChunk, value]
  cases hreg : s.chunkRegistry[key]? with
  | none => exact .answered (by simp) hunused.retrievals
  | some path =>
      obtain ⟨file, hname⟩ := h.present hreg
      refine .pending hreg hname ?_ (by simp [submitRetrieval]) .submitted hunused.retrieveResults
      dsimp only
      rw [FileSystem.read?_of_names hname, Option.getD_some]
      rfl

/-- A step of the retrieval itself, if no system call of it fails. -/
lemma Answering.own {s : ChunkStorage} {op : Nat} {key data : Bytes} (h : s.Answering op key data)
    {e : StorageEvent} (he : e.reader = some op) (hfail : e ≠ .readFails op) :
    (s.step e).Answering op key data := by
  cases h with
  | answered hresult hdone =>
      have hidle : s.step e = s := by
        cases e <;> cases he
        · rw [step, openChunk, hdone]
        · rw [step, seekEnd, hdone]
        · rw [step, readChunk, hdone]
        · exact absurd rfl hfail
      rw [hidle]
      exact .answered hresult hdone
  | @pending path file phase hreg hname hcontent htask hphase hresult =>
      cases e <;> cases he
      · rw [step, openChunk, htask]
        cases hphase with
        | submitted =>
            simp only [hname]
            exact .pending hreg hname hcontent (by simp) .opened hresult
        | opened => exact .pending hreg hname hcontent htask .opened hresult
        | reading total => exact .pending hreg hname hcontent htask (.reading total) hresult
      · rw [step, seekEnd, htask]
        cases hphase with
        | submitted => exact .pending hreg hname hcontent htask .submitted hresult
        | opened =>
            simp only [hcontent]
            exact .pending hreg hname hcontent (by simp) (.reading 0) hresult
        | reading total => exact .pending hreg hname hcontent htask (.reading total) hresult
      · cases hphase with
        | submitted =>
            rw [step, readChunk, htask]
            exact .pending hreg hname hcontent htask .submitted hresult
        | opened =>
            rw [step, readChunk, htask]
            exact .pending hreg hname hcontent htask .opened hresult
        | reading total =>
            rw [step_readChunk htask hcontent]
            split_ifs
            · exact .answered (by simp [retrieveReturns]) (by simp [retrieveReturns])
            · exact .pending hreg hname hcontent (by rw [Map.get_insert, if_pos rfl])
                (.reading _) hresult
      · exact absurd rfl hfail

/-- Steps of others do not touch a retrieval. -/
lemma retrieval_step {s : ChunkStorage} {op : Nat} (hop : op < s.nextOp) {e : StorageEvent}
    (he : e.reader ≠ some op) : (s.step e).retrievals[op]? = s.retrievals[op]? ∧
      (s.step e).retrieveResults[op]? = s.retrieveResults[op]? := by
  have heffect := effect_step s e
  generalize s.step e = s' at heffect ⊢
  cases heffect with
  | finds hfound | adopts hnone hpath =>
      exact ⟨by rw [submitRetrieval, Map.get_insert, if_neg hop.ne], rfl⟩
  | misses hnone hpath => exact ⟨rfl, by rw [Map.get_insert, if_neg hop.ne]⟩
  | reads htask he' =>
      refine ⟨?_, rfl⟩
      rw [Map.get_insert, if_neg]
      rintro rfl
      exact he he'
  | @returns e op' task data htask he' =>
      have hne : op ≠ op' := by
        rintro rfl
        exact he he'
      simp only [retrieveReturns, Map.get_erase, Map.get_insert, if_neg hne, and_self]
  | _ => exact ⟨rfl, rfl⟩

/-- An entry of the registry stays until something completes for its key. -/
lemma registry_step {s : ChunkStorage} {e : StorageEvent} (hguard : s.MapGuard e) {key : Bytes}
    (hquiet : ∀ c ∈ s.completion e, c.1 ≠ key) :
    (s.step e).chunkRegistry[key]? = s.chunkRegistry[key]? := by
  have heffect := effect_step s e
  generalize s.step e = s' at heffect ⊢
  cases heffect with
  | adopts hnone hpath => exact absurd hguard hpath
  | @registers op chunkId path data file written htask hge =>
      have hkey : chunkId ≠ key := hquiet (chunkId, some data) (by
        simp only [completion, htask, if_neg (not_lt.mpr hge), Option.mem_def])
      rw [Map.get_insert, if_neg hkey.symm]
  | @erases chunkId path hfound =>
      have hkey : chunkId ≠ key := hquiet (chunkId, none) rfl
      rw [Map.get_erase, if_neg hkey.symm]
  | _ => rfl

/-- **A retrieval on its way stays on it**, as long as nothing completes for its key and no system
call of its own fails. -/
theorem answering_step {s : ChunkStorage} (h : s.Sound) {e : StorageEvent} (hguard : s.MapGuard e)
    {op : Nat} {key data : Bytes} (hop : op < s.nextOp)
    (hquiet : ∀ c ∈ s.completion e, c.1 ≠ key) (hfail : e ≠ .readFails op)
    (hanswer : s.Answering op key data) : (s.step e).Answering op key data := by
  by_cases he : e.reader = some op
  · exact hanswer.own he hfail
  · obtain ⟨htasks, hresults⟩ := retrieval_step hop he
    cases hanswer with
    | answered hresult hdone => exact .answered (hresults.trans hresult) (htasks.trans hdone)
    | pending hreg hname hcontent htask hphase hresult =>
        have hsame := h.sameFile_entry hreg e
        exact .pending ((registry_step hguard hquiet).trans hreg) (hsame.names.trans hname)
          ((hsame.content hname).trans hcontent) (htasks.trans htask) hphase
          (hresults.trans hresult)

lemma answering_foldl {s : ChunkStorage} (h : s.Sound) {events : List StorageEvent}
    (hrun : AlongRun step MapGuard s events) {op : Nat} {key data : Bytes} (hop : op < s.nextOp)
    (hquiet : ∀ c ∈ s.completions events, c.1 ≠ key) (hfail : .readFails op ∉ events)
    (hanswer : s.Answering op key data) : (events.foldl step s).Answering op key data := by
  induction events generalizing s with
  | nil => exact hanswer
  | cons e events ih =>
      simp only [completions, List.mem_append, Option.mem_toList] at hquiet
      rw [List.mem_cons, not_or] at hfail
      refine ih (sound_step h hrun.1) hrun.2 (hop.trans_le (by rw [nextOp_step]; omega))
        (fun c hc => hquiet c (Or.inr hc)) hfail.2 ?_
      exact answering_step h hrun.1 hop (fun c hc => hquiet c (Or.inl hc)) (Ne.symm hfail.1) hanswer

/-- The retrieval returns this when it is given its turns. -/
def Finishes (s : ChunkStorage) (op : Nat) (data : Bytes) : Prop :=
  ∃ turns : List StorageEvent, (∀ e ∈ turns, e.reader = some op) ∧
    (turns.foldl step s).retrieveResults[op]? = some data

lemma Finishes.of_step {s : ChunkStorage} {op : Nat} {data : Bytes} {e : StorageEvent}
    (he : e.reader = some op) (h : (s.step e).Finishes op data) : s.Finishes op data := by
  obtain ⟨turns, hturns, hdone⟩ := h
  exact ⟨e :: turns, List.forall_mem_cons.mpr ⟨he, hturns⟩, hdone⟩

lemma finishes_of_result {s : ChunkStorage} {op : Nat} {data : Bytes}
    (h : s.retrieveResults[op]? = some data) : s.Finishes op data :=
  ⟨[], List.forall_mem_nil _, h⟩

/-- All is read, and one more read finds that there is no more. -/
lemma finishes_read {s : ChunkStorage} {op file total : Nat} {path data : Bytes}
    (htask : s.retrievals[op]? =
      some { chunkPath := path, phase := .reading file data.length (data.take total) })
    (hcontent : s.files.content file = data) (hall : data.length ≤ total) : s.Finishes op data := by
  refine Finishes.of_step (e := .readChunk op 0) rfl (finishes_of_result ?_)
  rw [step_readChunk htask hcontent, if_pos hall]
  simp [retrieveReturns]

/-- The file is open and measured: one read gets the rest. -/
lemma finishes_reading {s : ChunkStorage} {op file total : Nat} {path data : Bytes}
    (htask : s.retrievals[op]? =
      some { chunkPath := path, phase := .reading file data.length (data.take total) })
    (hcontent : s.files.content file = data) : s.Finishes op data := by
  by_cases hall : data.length ≤ total
  · exact finishes_read htask hcontent hall
  · refine Finishes.of_step (e := .readChunk op data.length) rfl ?_
    rw [step_readChunk htask hcontent, if_neg hall]
    refine finishes_read (by rw [Map.get_insert, if_pos rfl]) hcontent ?_
    rw [List.length_take]
    omega

/-- **A retrieval on its way comes to its end** when it is given its turns. -/
theorem Answering.finishes {s : ChunkStorage} {op : Nat} {key data : Bytes}
    (h : s.Answering op key data) : s.Finishes op data := by
  cases h with
  | answered hresult hdone => exact finishes_of_result hresult
  | @pending path file phase hreg hname hcontent htask hphase hresult =>
      have hopened : ∀ {s : ChunkStorage}, s.files.content file = data →
          s.retrievals[op]? = some { chunkPath := path, phase := .opened file } →
          s.Finishes op data := by
        intro s hcontent htask
        have hnext : (s.step (.seekEnd op)).retrievals[op]? =
            some { chunkPath := path, phase := .reading file data.length (data.take 0) } := by
          rw [step, seekEnd, htask]
          simp [hcontent]
        have hfile : (s.step (.seekEnd op)).files.content file = data := by
          rw [step, seekEnd, htask]
          exact hcontent
        exact Finishes.of_step (e := .seekEnd op) rfl (finishes_reading hnext hfile)
      cases hphase with
      | reading total => exact finishes_reading htask hcontent
      | opened => exact hopened hcontent htask
      | submitted =>
          refine Finishes.of_step (e := .openChunk op) rfl ?_
          rw [step, openChunk, htask]
          simp only [hname]
          exact hopened hcontent (by rw [Map.get_insert, if_pos rfl])

/-! ## The storage and the map -/

/-- **The storage of a node is a map**, in every run whose stores have keys without a NUL byte and
whose key, time stamp and number are not all those of an earlier store.  In every state that is
reached,

* each key holds the data of the store that completed last, if no deletion completed after it;
* an event that completes nothing, such as any event of a store that fails, leaves what every key
  holds;
* and a retrieval for whose key nothing completes while it is under way, and none of whose system
  calls fails, returns what the key held when it was submitted, and returns. -/
theorem storage_is_map {s : ChunkStorage} (hfresh : s.Fresh) (hdir : (0 : UInt8) ∉ s.storagePath)
    {events : List StorageEvent} (hrun : AlongRun step MapGuard s events) :
    (∀ before, before <+: events → ∀ key,
      (before.foldl step s).value key = lastStored (s.completions before) key) ∧
    (∀ before e, before ++ [e] <+: events → (∀ op, e ≠ .register op) →
      (∀ key, e ≠ .eraseChunk key) →
        ∀ key, ((before ++ [e]).foldl step s).value key = (before.foldl step s).value key) ∧
    (∀ before during key pathExists op, op = (before.foldl step s).nextOp →
      before ++ .retrieveChunk key [] pathExists :: during <+: events →
      (∀ c ∈ ((before ++ [.retrieveChunk key [] pathExists]).foldl step s).completions during,
        c.1 ≠ key) →
      .readFails op ∉ during →
        let reached := (before ++ .retrieveChunk key [] pathExists :: during).foldl step s
        (∀ data, reached.retrieveResults[op]? = some data →
          data = lastStored (s.completions before) key) ∧
        reached.Finishes op (lastStored (s.completions before) key)) := by
  have hsound := hfresh.sound hdir
  have hreach : ∀ before, before <+: events → (before.foldl step s).Sound := by
    rintro before ⟨rest, rfl⟩
    exact foldl_invariant Sound (fun s e h hguard => sound_step h hguard) hsound
      (alongRun_append.mp hrun).1
  have hvalue : ∀ before, before <+: events → ∀ key,
      (before.foldl step s).value key = lastStored (s.completions before) key := by
    rintro before ⟨rest, rfl⟩ key
    have hempty : ∀ key, s.value key = lastStored [] key := by
      intro key
      simp [value, hfresh.chunkRegistry, lastStored]
    exact value_foldl hsound (alongRun_append.mp hrun).1 hempty key
  refine ⟨hvalue, ?_, ?_⟩
  · rintro before e ⟨rest, rfl⟩ hregister herase key
    have hcompletes : (before.foldl step s).completion e = none := by
      cases e with
      | register op => exact absurd rfl (hregister op)
      | eraseChunk chunkId => exact absurd rfl (herase chunkId)
      | _ => rfl
    have hguard := (alongRun_append.mp (alongRun_append.mp hrun).1).2.1
    have hstep := value_step (hreach before ⟨[e] ++ rest, by simp⟩) hguard key
    rw [hcompletes] at hstep
    rw [List.foldl_append]
    exact hstep
  · rintro before during key pathExists op rfl ⟨rest, rfl⟩ hquiet hfail
    have hreached := hreach before ⟨_, (List.append_assoc _ _ _).symm⟩
    have hafter := (alongRun_append.mp (alongRun_append.mp hrun).1).2
    rw [List.foldl_append] at hquiet
    have hanswer := answering_foldl (sound_step hreached hafter.1) hafter.2
      (by rw [nextOp_step]; exact Nat.lt_succ_self _) hquiet hfail
      (answering_retrieveChunk hreached key pathExists)
    rw [hvalue before ⟨_, (List.append_assoc _ _ _).symm⟩] at hanswer
    dsimp only
    rw [List.foldl_append, List.foldl_cons]
    refine ⟨fun data hdata => ?_, hanswer.finishes⟩
    cases hanswer with
    | answered hresult hdone =>
        rw [hresult] at hdata
        exact (Option.some.inj hdata).symm
    | pending hreg hname hcontent htask hphase hresult =>
        rw [hresult] at hdata
        cases hdata

/-- Two stores of one key whose events alternate, then a retrieval: the store that was submitted
first completes last. -/
def overlappingStores : List StorageEvent :=
  [.storeChunk (ascii "k") (ascii "ab") 1, .storeChunk (ascii "k") (ascii "c") 2, .openFile 1 true,
   .openFile 0 true, .writeFile 1 (some 1), .writeFile 0 (some 1), .register 1,
   .writeFile 0 (some 1), .register 0, .retrieveChunk (ascii "k") [] false, .openChunk 2,
   .seekEnd 2, .readChunk 2 1, .readChunk 2 0]

theorem storage_is_map_overlapping :
    let s : ChunkStorage := { files := .empty }
    let reached := overlappingStores.foldl step s
    reached.retrieveResults[2]? = some (ascii "ab") ∧
      reached.value (ascii "k") = lastStored (s.completions overlappingStores) (ascii "k") ∧
      s.completions overlappingStores =
        [(ascii "k", some (ascii "c")), (ascii "k", some (ascii "ab"))] := by
  intro s reached
  have hfresh : s.Fresh := ⟨⟨rfl, rfl, rfl, rfl, rfl⟩, rfl, rfl⟩
  have hrun : AlongRun step MapGuard s overlappingStores := by decide +kernel
  refine ⟨by decide +kernel, ?_, by decide +kernel⟩
  exact (storage_is_map hfresh (by decide) hrun).1 _ (List.prefix_refl _) _

/-- **A store changes what another key holds.**  The identifiers differ after a NUL byte, so both
chunks are written to `chunk_a`.  And **a store that fails empties the chunk** whose file it opened:
the third store is of the first key again, and its write fails. -/
theorem stores_share_file :
    let s : ChunkStorage := { files := .empty }
    let key : Bytes := [97, 0, 98]
    let both : List StorageEvent :=
      [.storeChunk key (ascii "x") 1, .openFile 0 true, .writeFile 0 (some 1), .register 0,
       .storeChunk [97, 0, 99] (ascii "y") 2, .openFile 1 true, .writeFile 1 (some 1), .register 1]
    let failing : List StorageEvent :=
      [.storeChunk key (ascii "z") 3, .openFile 2 true, .writeFile 2 none]
    let read : List StorageEvent :=
      [.retrieveChunk key [] false, .openChunk 2, .seekEnd 2, .readChunk 2 0, .readChunk 2 0]
    lastStored (s.completions both) key = ascii "x" ∧
      ((both ++ read).foldl step s).retrieveResults[2]? = some (ascii "y") ∧
      (both.foldl step s).value key = ascii "y" ∧
      ((both ++ failing).foldl step s).storeResults[2]? = some none ∧
      ((both ++ failing).foldl step s).value key = [] := by
  decide +kernel

end ChunkStorage

end FileGrid
