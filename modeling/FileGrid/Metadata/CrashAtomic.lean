import FileGrid.Metadata.Persistence

/-!
# A crash while the metadata file is written

`persist_locked` opens its file with `std::ios::trunc` and writes the whole store into it.  A head
that dies in between leaves some prefix of the new text and nothing of the old one, and the next
head reads what is there.

The prefix may be empty, so the first thing a crash can lose is everything.  **`crash_atomic_iff`**:
an operation is atomic with respect to crashes exactly when it leaves the store empty, or when it
makes the first file of an empty store and that file has no hash, no chunks and at most one digit of
a replica count.  No upload makes such a file, so in practice the first alternative is all there is.
`crash_loses_file` shows the damage to a file that the operation does not even touch: it is lost, or
it comes back with the path of a replica cut short.
-/

namespace FileGrid

/-- Whatever part of the new text is on disk after a crash, the head that reads it has the store
before the operation or the store after it.  An operation that writes nothing cannot be cut. -/
def CrashAtomic (order : Schedule) (m : MetadataMap) (op : MetadataOp) : Prop :=
  op.persists = true → ∀ written, written <+: persistLocked order (op.apply m) →
    loadFromDisk written = m ∨ loadFromDisk written = op.apply m

/-! ## Texts of one line -/

@[simp] lemma loadFromDisk_nil : loadFromDisk [] = ∅ := onDisk_empty.loads

lemma loadFromDisk_line {line : Bytes} (h : (10 : UInt8) ∉ line) :
    loadFromDisk line = Std.ExtTreeMap.map (fun _ r => settleCounts r) (loadLine ∅ line) ∧
      loadFromDisk (line ++ [10]) =
        Std.ExtTreeMap.map (fun _ r => settleCounts r) (loadLine ∅ line) := by
  have hend : lines (line ++ [10]) = [line] := lines_append [] h
  have hsingle : (lines line).foldl loadLine ∅ = loadLine ∅ line := by
    cases line with
    | nil => rfl
    | cons c line => rw [lines_single h (by simp), List.foldl_cons, List.foldl_nil]
  exact ⟨by rw [loadFromDisk, hsingle], by rw [loadFromDisk, hend]; rfl⟩

lemma map_settleCounts_empty :
    Std.ExtTreeMap.map (fun (_ : Bytes) r => settleCounts r) (∅ : MetadataMap) = ∅ := by
  refine Std.ExtTreeMap.ext_getElem? fun f => ?_
  simp

lemma map_settleCounts_insert (f : Bytes) (record : FileRecord) :
    Std.ExtTreeMap.map (fun _ r => settleCounts r) ((∅ : MetadataMap).insert f record) =
      (∅ : MetadataMap).insert f (settleCounts record) := by
  refine Std.ExtTreeMap.ext_getElem? fun g => ?_
  rw [Map.get_map, Map.get_insert, Map.get_insert]
  split_ifs <;> simp

lemma loadLine_word {w : Bytes} (hw : w = [] ∨ Word w) (m : MetadataMap) : loadLine m w = m := by
  rcases hw with rfl | hw
  · rfl
  · simp only [loadLine, readWord_last hw]
    rfl

/-- A hash line that ends before the hash makes an entry all the same. -/
lemma loadFromDisk_hash_tag {f : Bytes} (hf : Word f) :
    loadFromDisk (f ++ 32 :: ascii "HASH=") = (∅ : MetadataMap).insert f {} := by
  have htag : Word (ascii "HASH=") := by decide
  have hload : loadLine ∅ (f ++ 32 :: ascii "HASH=") = (∅ : MetadataMap).insert f {} := by
    simp only [loadLine, readWord_field hf, readWord_blank, readWord_last htag, List.prefix_refl,
      if_true]
    rfl
  rw [(loadFromDisk_line (hf.append_not_mem_newline htag.not_mem_newline)).1, hload,
    map_settleCounts_insert]
  rfl

lemma replicasLine_not_mem_newline {f : Bytes} (hf : Word f) (n : Int) :
    (10 : UInt8) ∉ replicasLine f n :=
  hf.append_not_mem_newline (Word.append (by decide) (word_dec n).2).not_mem_newline

/-- A replica line alone makes a file without hash and chunks. -/
lemma loadFromDisk_replicas {f : Bytes} (hf : Word f) {n : Int} (hlo : -2 ^ 31 ≤ n)
    (hhi : n ≤ 2 ^ 31 - 1) :
    loadFromDisk (replicasLine f n) = (∅ : MetadataMap).insert f { replicaCount := n } ∧
      loadFromDisk (replicasLine f n ++ [10]) =
        (∅ : MetadataMap).insert f { replicaCount := n } := by
  have hload : loadLine ∅ (replicasLine f n) =
      (∅ : MetadataMap).insert f { replicaCount := n } := by
    rw [loadLine_replicas hf hlo hhi]
    simp [MetadataMap.getChunks]
  have hsettle : settleCounts { replicaCount := n } = { replicaCount := n } := by
    simp [settleCounts, fillFileCount]
  obtain ⟨hline, hend⟩ := loadFromDisk_line (replicasLine_not_mem_newline hf n)
  rw [hline, hend, hload, map_settleCounts_insert, hsettle]
  exact ⟨rfl, rfl⟩

/-- The tag of a replica line, cut anywhere: it is not the other tag, it is not a number, and no
number follows it. -/
lemma replicas_tag_cut : ∀ i < 10, ¬ ascii "HASH=" <+: (ascii "REPLICAS=").take i ∧
    stoi (((ascii "REPLICAS=").take i).drop 9) = none ∧
    stoll ((ascii "REPLICAS=").take i) = none := by
  decide

/-- A replica line that ends within its tag is ignored. -/
lemma loadFromDisk_replicas_cut {f : Bytes} (hf : Word f) {i : Nat} (hi : i < 10) :
    loadFromDisk (f ++ 32 :: (ascii "REPLICAS=").take i) = ∅ := by
  obtain ⟨hhash, hstoi, hstoll⟩ := replicas_tag_cut i hi
  have hsp : ∀ b ∈ (ascii "REPLICAS=").take i, isSpace b = false := fun b hb =>
    noSpace_iff.mp (by decide : (ascii "REPLICAS=").all (! isSpace ·) = true) b
      (List.mem_of_mem_take hb)
  have hload : loadLine ∅ (f ++ 32 :: (ascii "REPLICAS=").take i) = ∅ := by
    simp only [loadLine, readWord_field hf, readWord_blank]
    by_cases hnil : (ascii "REPLICAS=").take i = []
    · rw [hnil]
      rfl
    · simp only [readWord_last ⟨hnil, hsp⟩, hhash, if_false, hstoi, hstoll, Option.bind_none]
      split_ifs <;> rfl
  have hnl : (10 : UInt8) ∉ (ascii "REPLICAS=").take i := fun h => by
    have := hsp 10 h
    simp [isSpace] at this
  rw [(loadFromDisk_line (hf.append_not_mem_newline hnl)).1, hload, map_settleCounts_empty]

/-- A part of a name is ignored. -/
lemma loadFromDisk_name_cut {f : Bytes} (hf : Word f) (k : Nat) : loadFromDisk (f.take k) = ∅ := by
  have hcut : f.take k = [] ∨ Word (f.take k) := by
    rcases Nat.eq_zero_or_pos k with rfl | hk
    · exact Or.inl rfl
    · exact Or.inr (hf.take hk)
  have hnl : (10 : UInt8) ∉ f.take k := fun h => hf.not_mem_newline (List.mem_of_mem_take h)
  rw [(loadFromDisk_line hnl).1, loadLine_word hcut, map_settleCounts_empty]

/-! ## Texts of one file -/

lemma persistLocked_empty (order : Schedule) : persistLocked order ∅ = [] := by
  have hnil : iteration order ∅ = [] := by
    rw [List.eq_nil_iff_forall_not_mem]
    intro p hp
    simpa using mem_iteration.mp hp
  rw [persistLocked, hnil]
  rfl

lemma persistLocked_single (order : Schedule) (f : Bytes) (record : FileRecord) :
    persistLocked order ((∅ : MetadataMap).insert f record) =
      (fileLines f record).flatMap (· ++ [10]) := by
  have hmem : ∀ p, p ∈ iteration order ((∅ : MetadataMap).insert f record) ↔ p = (f, record) := by
    rintro ⟨g, r⟩
    rw [mem_iteration, Map.get_insert, Prod.mk.injEq]
    by_cases hg : g = f
    · simp [hg, eq_comm]
    · simp [hg]
  have hnodup : (iteration order ((∅ : MetadataMap).insert f record)).Nodup :=
    (iteration_perm order _).nodup_iff.mpr (List.Nodup.of_map _ (Map.nodup_keys_toList _))
  have hperm := (List.perm_ext_iff_of_nodup hnodup (List.nodup_singleton (f, record))).mpr
    fun p => by rw [hmem, List.mem_singleton]
  rw [persistLocked, List.perm_singleton.mp hperm, List.flatMap_singleton]

/-- The first digit of a number, as a number of its own. -/
lemma natDec_first (n : Nat) : ∃ d ds, d ≤ 9 ∧ natDec n = natDec d ++ ds := by
  obtain ⟨c, ds, hcs⟩ := List.exists_cons_of_ne_nil (natDec_ne_nil n)
  have hc : isDigit c = true := isDigit_of_mem_natDec (n := n) (by rw [hcs]; simp)
  simp only [isDigit, Bool.and_eq_true, decide_eq_true_eq] at hc
  have hdigit : digitByte (c.toNat - 48) = c := by
    rw [← UInt8.toNat_inj, digitByte_toNat (by omega)]
    omega
  refine ⟨c.toNat - 48, ds, by omega, ?_⟩
  rw [natDec_of_lt (d := c.toNat - 48) (by omega), hdigit, hcs]
  rfl

/-! ## What the reader takes for an entry -/

/-- A line adds nothing to the store, or it makes or changes the entry of one word, and which of the
two it is does not depend on the store. -/
lemma loadLine_cases (line : Bytes) : (∀ m, loadLine m line = m) ∨
    ∃ f, Word f ∧ ∀ m, ∃ record, loadLine m line = m.insert f record := by
  cases hname : readWord line with
  | none => exact Or.inl fun m => by simp only [loadLine, hname]
  | some p =>
      obtain ⟨f, rest⟩ := p
      cases htoken : readWord rest with
      | none => exact Or.inl fun m => by simp only [loadLine, hname, htoken]
      | some q =>
          obtain ⟨token2, rest'⟩ := q
          have hf := readWord_word hname
          simp only [loadLine, hname, htoken]
          by_cases hhash : ascii "HASH=" <+: token2
          · exact Or.inr ⟨f, hf, fun m => ⟨_, if_pos hhash⟩⟩
          simp only [hhash, if_false]
          by_cases hreplicas : ascii "REPLICAS=" <+: token2
          · simp only [hreplicas, if_true]
            cases stoi (token2.drop 9) with
            | none => exact Or.inl fun m => rfl
            | some n => exact Or.inr ⟨f, hf, fun m => ⟨_, rfl⟩⟩
          simp only [hreplicas, if_false]
          cases (stoll token2).bind fun chunkId => loadRecord chunkId rest' with
          | none => exact Or.inl fun m => rfl
          | some cr => exact Or.inr ⟨f, hf, fun m => ⟨_, rfl⟩⟩

lemma isSome_foldl_loadLine (ls : List Bytes) (m : MetadataMap) (f : Bytes) :
    ((m[f]?).isSome = true → ((ls.foldl loadLine m)[f]?).isSome = true) ∧
      (((ls.foldl loadLine m)[f]?).isSome = true → (m[f]?).isSome = true ∨ Word f) := by
  induction ls generalizing m with
  | nil => exact ⟨id, Or.inl⟩
  | cons l ls ih =>
      rw [List.foldl_cons]
      obtain ⟨hkeep, hnew⟩ := ih (loadLine m l)
      rcases loadLine_cases l with hsame | ⟨g, hg, hins⟩
      · rw [hsame] at hkeep hnew ⊢
        exact ⟨hkeep, hnew⟩
      · obtain ⟨record, hrecord⟩ := hins m
        rw [hrecord] at hkeep hnew ⊢
        rw [Map.get_insert] at hkeep hnew
        by_cases hfg : f = g
        · simp only [hfg, if_true, Option.isSome_some, forall_const] at hkeep ⊢
          exact ⟨fun _ => hkeep, fun _ => Or.inr hg⟩
        · simp only [hfg, if_false] at hkeep hnew
          exact ⟨hkeep, hnew⟩

lemma isSome_loadFromDisk (text f : Bytes) : ((loadFromDisk text)[f]?).isSome =
    (((lines text).foldl loadLine ∅)[f]?).isSome := by
  rw [loadFromDisk, Map.get_map, Option.isSome_map]

lemma word_of_loadFromDisk {text f : Bytes} (h : ((loadFromDisk text)[f]?).isSome = true) :
    Word f := by
  rw [isSome_loadFromDisk] at h
  exact ((isSome_foldl_loadLine _ _ f).2 h).resolve_left (by simp)

/-- A text gives the empty store when each of its lines adds nothing. -/
lemma loadFromDisk_eq_empty_iff {text : Bytes} :
    loadFromDisk text = ∅ ↔ ∀ l ∈ lines text, loadLine ∅ l = ∅ := by
  constructor
  · intro hempty l hl
    rcases loadLine_cases l with hsame | ⟨f, -, hins⟩
    · exact hsame ∅
    -- A line that makes an entry leaves it in the store, whatever is read before and after it.
    exfalso
    obtain ⟨before, after, hsplit⟩ := List.append_of_mem hl
    obtain ⟨record, hrecord⟩ := hins (before.foldl loadLine ∅)
    have hkeep := (isSome_foldl_loadLine after (loadLine (before.foldl loadLine ∅) l) f).1
      (by rw [hrecord, Map.get_insert, if_pos rfl]; rfl)
    have hsome := isSome_loadFromDisk text f
    rw [hsplit, List.foldl_append, List.foldl_cons, hkeep, hempty] at hsome
    simp at hsome
  · intro hall
    have hfold : ∀ ls : List Bytes, (∀ l ∈ ls, loadLine ∅ l = ∅) → ls.foldl loadLine ∅ = ∅ := by
      intro ls
      induction ls with
      | nil => exact fun _ => rfl
      | cons l ls ih =>
          intro h
          rw [List.foldl_cons, h l (by simp)]
          exact ih fun l' hl' => h l' (by simp [hl'])
    rw [loadFromDisk, hfold _ hall, map_settleCounts_empty]

/-! ## When a crash does no harm -/

/-- A first file that a crash cannot leave half written.  It has nothing but a count of one digit;
or its name is not a single word, so that it is never read back, and nothing that is written for it
reads as an entry of another file. -/
def WrittenAtOnce (f : Bytes) (record : FileRecord) : Prop :=
  (Word f ∧ ∃ n ≤ 9, record = { replicaCount := n }) ∨
    (¬ Word f ∧ ∀ written, written <+: (fileLines f record).flatMap (· ++ [10]) →
      ∀ l ∈ lines written, loadLine ∅ l = ∅)

/-- A file that `replace_file_chunks` makes has a count, or it has no records. -/
lemma replaceFileChunks_cases (m : MetadataMap) (file fileHash : Bytes) (chunks : List ChunkRecord)
    (n : Int) : ∃ f record, m.replaceFileChunks file fileHash chunks n = m.insert f record ∧
      (record.replicaCount ≤ 0 → record.chunks = []) := by
  refine ⟨_, _, rfl, fun hle => ?_⟩
  by_contra hne
  have hchunks : chunks ≠ [] := by
    rintro rfl
    exact hne rfl
  exact absurd ((fillFileCount_pos hchunks n).trans hle) (by decide)

/-- Every other operation leaves an empty store empty. -/
lemma apply_empty {op : MetadataOp} (h : op.apply ∅ ≠ ∅) :
    ∃ request, op = .createEntry request := by
  have hext : ∀ m : MetadataMap, (∀ f : Bytes, m[f]? = none) → m = ∅ := fun m hm =>
    Std.ExtTreeMap.ext_getElem? fun f => by rw [hm]; simp
  cases op with
  | createEntry request => exact ⟨request, rfl⟩
  | deleteEntry fileName =>
      refine absurd (hext _ fun f => ?_) h
      simp only [MetadataOp.apply, MetadataMap.deleteEntry, MetadataMap.removeFile]
      split_ifs
      · simp
      · rw [Map.get_erase]
        simp
  | atomicReplaceServerChunks dead updates =>
      refine absurd (hext _ fun f => ?_) h
      simp [MetadataOp.apply, MetadataMap.atomicReplaceServerChunks, Map.get_foldl_modify_toList]
  | deleteServerMetadata server =>
      refine absurd (hext _ fun f => ?_) h
      simp [MetadataOp.apply, MetadataMap.deleteServerMetadata]

lemma insert_empty_inj {f : Bytes} {r r' : FileRecord}
    (h : (∅ : MetadataMap).insert f r = (∅ : MetadataMap).insert f r') : r = r' := by
  have hget := congrArg (fun m : MetadataMap => m[f]?) h
  simpa using hget

lemma insert_empty_ne (f : Bytes) (r : FileRecord) : (∅ : MetadataMap).insert f r ≠ ∅ := fun h => by
  have hget := congrArg (fun m : MetadataMap => m[f]?) h
  simp at hget

/-- The first file with a word for a name: the text is cut after the tag of the hash, or after the
first digit of the count. -/
lemma writtenAtOnce_of_word {f : Bytes} (hf : Word f) {record : FileRecord}
    (hcount : record.replicaCount ≤ 0 → record.chunks = [])
    (hcut : ∀ written, written <+: (fileLines f record).flatMap (· ++ [10]) →
      loadFromDisk written = ∅ ∨ loadFromDisk written = (∅ : MetadataMap).insert f record) :
    ∃ n ≤ 9, record = { replicaCount := n } := by
  have hread : ∀ written r, written <+: (fileLines f record).flatMap (· ++ [10]) →
      loadFromDisk written = (∅ : MetadataMap).insert f r → record = r := by
    intro written r hpre hload
    rcases hcut written hpre with h | h
    · exact absurd (hload.symm.trans h) (insert_empty_ne f r)
    · exact (insert_empty_inj (hload.symm.trans h)).symm
  obtain ⟨fileHash, replicaCount, chunks⟩ := record
  have hhash : fileHash = [] := by
    by_contra hne
    have hpre : f ++ 32 :: ascii "HASH=" <+:
        (fileLines f ⟨fileHash, replicaCount, chunks⟩).flatMap (· ++ [10]) := by
      simp only [fileLines, hne, ne_eq, not_false_eq_true, if_true, hashLine, List.cons_append,
        List.nil_append, List.flatMap_cons, List.append_assoc]
      exact List.prefix_append_right_inj f |>.mpr (List.cons_prefix_cons.mpr
        ⟨rfl, List.prefix_append _ _⟩)
    exact hne (congrArg FileRecord.fileHash (hread _ _ hpre (loadFromDisk_hash_tag hf)))
  by_cases hpos : 0 < replicaCount
  · obtain ⟨d, ds, hd, hfirst⟩ := natDec_first replicaCount.natAbs
    have hdec : dec replicaCount = dec (d : Int) ++ ds := by
      rw [dec_natCast, ← hfirst, dec, if_neg (by omega)]
    have hpre : replicasLine f (d : Int) <+:
        (fileLines f ⟨fileHash, replicaCount, chunks⟩).flatMap (· ++ [10]) := by
      simp only [fileLines, hhash, ne_eq, not_true_eq_false, if_false, hpos, if_true, replicasLine,
        hdec, List.cons_append, List.nil_append, List.flatMap_cons, List.append_assoc]
      exact List.prefix_append_right_inj f |>.mpr (List.cons_prefix_cons.mpr
        ⟨rfl, List.prefix_append_right_inj _ |>.mpr (List.prefix_append _ _)⟩)
    exact ⟨d, by omega, hread _ _ hpre (loadFromDisk_replicas hf (by omega) (by omega)).1⟩
  · have hnil := hcount (by simpa using hpos)
    dsimp only at hnil
    exact ⟨replicaCount, by omega, by rw [hhash, hnil]⟩

/-- A file with nothing but a count of one digit: a cut within the line is ignored. -/
lemma loadFromDisk_of_digit {f : Bytes} (hf : Word f) {n : Int} (hn : n ≤ 9) {written : Bytes}
    (hpre : written <+: (fileLines f { replicaCount := n }).flatMap (· ++ [10])) :
    loadFromDisk written = ∅ ∨
      loadFromDisk written = (∅ : MetadataMap).insert f { replicaCount := n } := by
  by_cases hpos : 0 < n
  · have hdec : dec n = [digitByte n.natAbs] := by
      rw [dec, if_neg (by omega), natDec_of_lt (by omega)]
    have htext : (fileLines f { replicaCount := n }).flatMap (· ++ [10]) =
        f ++ ((32 :: ascii "REPLICAS=") ++ ([digitByte n.natAbs] ++ [10])) := by
      simp [fileLines, hpos, replicasLine, hdec]
    have hline : replicasLine f n = f ++ ((32 :: ascii "REPLICAS=") ++ [digitByte n.natAbs]) := by
      simp [replicasLine, hdec]
    obtain ⟨hline₁, hline₂⟩ := loadFromDisk_replicas hf (n := n) (by omega) (by omega)
    rw [htext] at hpre
    rw [List.prefix_iff_eq_take.mp hpre]
    generalize written.length = k
    by_cases hk : k ≤ f.length
    · rw [List.take_append_of_le_length hk]
      exact Or.inl (loadFromDisk_name_cut hf k)
    obtain ⟨i, rfl⟩ : ∃ i, k = f.length + (i + 1) := ⟨k - f.length - 1, by omega⟩
    rw [List.take_length_add_append]
    rcases Nat.lt_trichotomy i 10 with hi | rfl | hi
    · rw [List.take_append_of_le_length (by simp [ascii]; omega), List.take_succ_cons]
      exact Or.inl (loadFromDisk_replicas_cut hf hi)
    · rw [hline] at hline₁
      exact Or.inr hline₁
    · rw [hline, List.append_assoc, List.append_assoc] at hline₂
      rw [List.take_of_length_le (by simp [ascii]; omega)]
      exact Or.inr hline₂
  · have hnil : (fileLines f { replicaCount := n }).flatMap (· ++ [10]) = [] := by
      simp [fileLines, hpos]
    rw [hnil, List.prefix_nil] at hpre
    rw [hpre]
    exact Or.inl loadFromDisk_nil

/-- **What a crash spares.**  An operation that is cut while it writes leaves the old store or the
new one exactly when the new store is empty, or the store was empty and the one file the operation
makes is written at once. -/
theorem crash_atomic_iff (order : Schedule) (m : MetadataMap) (op : MetadataOp) :
    CrashAtomic order m op ↔ op.persists = false ∨ op.apply m = ∅ ∨
      (m = ∅ ∧ ∃ f record, op.apply m = (∅ : MetadataMap).insert f record ∧
        WrittenAtOnce f record) := by
  constructor
  · intro hatomic
    by_cases hp : op.persists = true
    swap
    · exact Or.inl (by simpa using hp)
    by_cases hempty : op.apply m = ∅
    · exact Or.inr (Or.inl hempty)
    -- A crash before the first byte leaves an empty file.
    have hm : m = ∅ := by
      rcases hatomic hp [] List.nil_prefix with h | h
      · exact h.symm.trans loadFromDisk_nil
      · exact absurd (h.symm.trans loadFromDisk_nil) hempty
    subst hm
    obtain ⟨request, rfl⟩ := apply_empty hempty
    obtain ⟨f, record, hins, hcount⟩ : ∃ f record, createEntry ∅ request =
        (∅ : MetadataMap).insert f record ∧ (record.replicaCount ≤ 0 → record.chunks = []) :=
      replaceFileChunks_cases ∅ _ _ _ _
    refine Or.inr (Or.inr ⟨rfl, f, record, hins, ?_⟩)
    have hcut : ∀ written, written <+: (fileLines f record).flatMap (· ++ [10]) →
        loadFromDisk written = ∅ ∨ loadFromDisk written = (∅ : MetadataMap).insert f record := by
      intro written hpre
      have happly : MetadataOp.apply ∅ (.createEntry request) =
        (∅ : MetadataMap).insert f record := hins
      rw [← happly]
      refine hatomic hp written ?_
      rw [happly, persistLocked_single]
      exact hpre
    by_cases hf : Word f
    · exact Or.inl ⟨hf, writtenAtOnce_of_word hf hcount hcut⟩
    · refine Or.inr ⟨hf, fun written hpre => loadFromDisk_eq_empty_iff.mp ?_⟩
      refine (hcut written hpre).resolve_right fun h => hf (@word_of_loadFromDisk written f ?_)
      rw [h, Map.get_insert, if_pos rfl]
      rfl
  · rintro (hp | hempty | ⟨rfl, f, record, hins, hat⟩) hpersists written hpre
    · rw [hp] at hpersists
      exact absurd hpersists (by simp)
    · rw [hempty, persistLocked_empty, List.prefix_nil] at hpre
      rw [hpre, hempty]
      exact Or.inr loadFromDisk_nil
    · rw [hins] at hpre ⊢
      rw [persistLocked_single] at hpre
      rcases hat with ⟨hf, n, hn, rfl⟩ | ⟨-, hignored⟩
      · exact loadFromDisk_of_digit hf hn hpre
      · exact Or.inl (loadFromDisk_eq_empty_iff.mpr (hignored written hpre))

/-! ## A store with a file in it -/

/-- The store after one upload. -/
def oneFile : MetadataMap := createEntry ∅ smallCommit.request

/-- The entry of another, empty file. -/
def anotherFile : MetadataOp := .createEntry (metadataRequest (ascii "g") [] (ascii "e3b0") 2)

/-- Making a second file and dying on the way.  A crash before the first byte loses the first file;
one after 47 bytes leaves it with a single replica, at a path that was never its own. -/
theorem crash_loses_file : ¬ CrashAtomic .inOrder oneFile anotherFile ∧
    oneFile.listAllFiles = [ascii "f"] ∧
    (anotherFile.apply oneFile).listAllFiles = [ascii "f", ascii "g"] ∧
    (loadFromDisk []).listAllFiles = [] ∧
    (loadFromDisk ((persistLocked .inOrder (anotherFile.apply oneFile)).take 47)).placementsOf
      (ascii "f") = [⟨0, ascii "10.0.0.1:8080", ascii "/c/1", []⟩] := by
  have hold : oneFile.listAllFiles = [ascii "f"] := by decide +kernel
  have hnew : (anotherFile.apply oneFile).listAllFiles = [ascii "f", ascii "g"] := by
    decide +kernel
  have hnone : (loadFromDisk []).listAllFiles = [] := by decide +kernel
  refine ⟨fun hatomic => ?_, hold, hnew, hnone, by decide +kernel⟩
  rcases hatomic rfl [] List.nil_prefix with h | h
  · rw [h, hold] at hnone
    exact absurd hnone (by decide)
  · rw [h, hnew] at hnone
    exact absurd hnone (by decide)

end FileGrid
