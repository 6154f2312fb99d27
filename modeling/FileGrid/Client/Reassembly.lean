import FileGrid.Client.Client

/-!
# Putting a downloaded file together

`file_download` fetches the chunks that the head announces in one thread each, keeps what the
threads verified in a map by chunk identifier, and then writes the file by *counting*: the entry
of 0, of 1, and so on, as many as there were announcements, where a missing entry is created
empty.  What it writes is thus read from the identifiers below the number of announcements, whatever
identifiers were announced.

Here the head may send anything, and each thread gets whatever answer a node likes to give.

* `downloadFrom` — `file_download` against such peers.
* `written_eq` — counting from zero reads the entries of the identifiers in range, in their order.
* `flatten_filter_eq_iff` — leaving out entries changes the file unless they are empty.

The two together say when a download that returns 0 has dropped a chunk: when a chunk that is not
empty was announced under a negative identifier, or under one that is not below the number of
announcements.  No check of the client stands in the way unless the head sends the hash of the file.
-/

namespace FileGrid

/-! ## A download from any peers -/

/-- `file_download`, with what each thread is sent. -/
def downloadFrom (answers : Nat → Option Bytes) (schedule : Schedule) (text : Bytes) :
    Option Bytes :=
  downloadWith (fun i => fetchFrom (answers i)) schedule text

lemma mapM_eq_some_iff_map {α β : Type} {f : α → Option β} {l : List α} {l' : List β} :
    l.mapM f = some l' ↔ l.map f = l'.map some := by
  induction l generalizing l' with
  | nil => cases l' <;> simp
  | cons a l ih =>
      cases hfa : f a with
      | none => cases l' <;> simp [hfa]
      | some b =>
          cases l' with
          | nil => cases hl : l.mapM f <;> simp [hfa, hl]
          | cons b' l' =>
              rw [List.map_cons, List.map_cons, List.cons.injEq, ← ih, hfa]
              cases hl : l.mapM f with
              | none => simp [hfa, hl]
              | some bs => simp [hfa, hl]

/-! ## What the threads deliver -/

/-- Some thread verified these bytes under this identifier. -/
def Delivered (answers : Nat → Option Bytes) (chunks : List ChunkLoc) (id : Int) (data : Bytes) :
    Prop :=
  ∃ (i : Nat) (c : ChunkLoc), chunks[i]? = some c ∧ c.id = id ∧ fetchFrom (answers i) c = some data

lemma sha256_of_fetchFrom {answer : Option Bytes} {c : ChunkLoc} {data : Bytes}
    (h : fetchFrom answer c = some data) : sha256 data = c.hash := by
  simp only [fetchFrom, Option.bind_eq_bind, Option.bind_eq_some_iff] at h
  obtain ⟨-, -, resp, -, h⟩ := h
  split_ifs at h with hline
  obtain ⟨size, -, h⟩ := Option.bind_eq_some_iff.mp h
  split_ifs at h with hlen hhash
  cases h
  exact not_not.mp hhash

section

variable {answers : Nat → Option Bytes} {chunks : List ChunkLoc} {fetched : List (Int × Bytes)}

/-- Thread `i` fetches chunk `i`, and none of them fails. -/
lemma getElem?_fetchAll (h : fetchAll (fun i => fetchFrom (answers i)) chunks = some fetched)
    (i : Nat) : (chunks[i]?).map (fun c => (fetchFrom (answers i) c).map (c.id, ·)) =
      (fetched[i]?).map some := by
  rw [fetchAll, mapM_eq_some_iff_map] at h
  have hi := congrArg (·[i]?) h
  simp only [List.getElem?_map, List.getElem?_zipIdx, Option.map_map, zero_add] at hi
  exact hi

lemma mem_fetchAll (h : fetchAll (fun i => fetchFrom (answers i)) chunks = some fetched) {id : Int}
    {data : Bytes} : (id, data) ∈ fetched ↔ Delivered answers chunks id data := by
  rw [List.mem_iff_getElem?]
  constructor
  · rintro ⟨i, hi⟩
    have hc := getElem?_fetchAll h i
    rw [hi, Option.map_some, Option.map_eq_some_iff] at hc
    obtain ⟨c, hc, hfetch⟩ := hc
    obtain ⟨data', hdata, heq⟩ := Option.map_eq_some_iff.mp hfetch
    cases heq
    exact ⟨i, c, hc, rfl, hdata⟩
  · rintro ⟨i, c, hc, rfl, hfetch⟩
    have hi := getElem?_fetchAll h i
    rw [hc, Option.map_some, hfetch, Option.map_some, eq_comm, Option.map_eq_some_iff] at hi
    obtain ⟨p, hp, heq⟩ := hi
    cases heq
    exact ⟨i, hp⟩

/-- Each announced identifier was delivered. -/
lemma exists_delivered (h : fetchAll (fun i => fetchFrom (answers i)) chunks = some fetched)
    {i : Nat} {c : ChunkLoc} (hc : chunks[i]? = some c) :
    ∃ data, fetchFrom (answers i) c = some data := by
  have hi := getElem?_fetchAll h i
  rw [hc, Option.map_some] at hi
  obtain ⟨p, -, hp⟩ := Option.map_eq_some_iff.mp hi.symm
  obtain ⟨data, hdata, -⟩ := Option.map_eq_some_iff.mp hp.symm
  exact ⟨data, hdata⟩

end

/-- **One verified byte string for each announced identifier.** -/
structure Verified (answers : Nat → Option Bytes) (chunks : List ChunkLoc) (d : Map Int Bytes) :
    Prop where
  complete : ∀ id, (d[id]?).isSome ↔ id ∈ chunks.map (·.id)
  delivered : ∀ {id data}, d[id]? = some data → Delivered answers chunks id data
  hashed : ∀ {id data}, d[id]? = some data → ∃ c ∈ chunks, c.id = id ∧ sha256 data = c.hash

/-- The map that the threads fill, in whatever order they finish. -/
lemma verified_collectChunks {answers : Nat → Option Bytes} {chunks : List ChunkLoc}
    {fetched : List (Int × Bytes)}
    (h : fetchAll (fun i => fetchFrom (answers i)) chunks = some fetched) (schedule : Schedule) :
    Verified answers chunks (collectChunks schedule fetched) := by
  have hperm := order_filterMap_perm schedule fetched
  have hdelivered : ∀ {id data}, (collectChunks schedule fetched)[id]? = some data →
      Delivered answers chunks id data := by
    intro id data hget
    by_cases hid : id ∈ (((schedule.order fetched.length).filterMap (fetched[·]?)).map (·.1))
    · obtain ⟨v, hv, hget'⟩ := Map.exists_get_foldl_insert hid (∅ : Map Int Bytes)
      rw [collectChunks, hget'] at hget
      cases hget
      exact (mem_fetchAll h).mp (hperm.mem_iff.mp hv)
    · rw [collectChunks, Map.get_foldl_insert_of_notMem hid] at hget
      simp at hget
  refine ⟨fun id => ⟨fun hsome => ?_, fun hid => ?_⟩, hdelivered, fun hget => ?_⟩
  · obtain ⟨data, hget⟩ := Option.isSome_iff_exists.mp hsome
    obtain ⟨i, c, hc, rfl, -⟩ := hdelivered hget
    exact List.mem_map.mpr ⟨c, List.mem_of_getElem? hc, rfl⟩
  · obtain ⟨c, hc, rfl⟩ := List.mem_map.mp hid
    obtain ⟨i, hi⟩ := List.mem_iff_getElem?.mp hc
    obtain ⟨data, hdata⟩ := exists_delivered h hi
    have hmem : (c.id, data) ∈ (schedule.order fetched.length).filterMap (fetched[·]?) :=
      hperm.mem_iff.mpr ((mem_fetchAll h).mpr ⟨i, c, hi, rfl, hdata⟩)
    obtain ⟨v, -, hget⟩ := Map.exists_get_foldl_insert
      (List.mem_map.mpr ⟨_, hmem, rfl⟩ : c.id ∈ _) (∅ : Map Int Bytes)
    rw [collectChunks, hget]
    rfl
  · obtain ⟨i, c, hc, hid, hfetch⟩ := hdelivered hget
    exact ⟨c, List.mem_of_getElem? hc, hid, sha256_of_fetchFrom hfetch⟩

/-- Where no identifier is announced twice, it tells the announcement. -/
lemma announcement_unique {chunks : List ChunkLoc} (hids : (chunks.map (·.id)).Nodup) {i j : Nat}
    {c c' : ChunkLoc} (hc : chunks[i]? = some c) (hc' : chunks[j]? = some c') (h : c.id = c'.id) :
    i = j := by
  have hi : (chunks.map (·.id))[i]? = some c.id := by simp [hc]
  have hj : (chunks.map (·.id))[j]? = some c.id := by simp [hc', h]
  refine (List.getElem?_inj ?_ hids).mp (hi.trans hj.symm)
  exact (List.getElem?_eq_some_iff.mp hi).1

lemma Verified.get {answers : Nat → Option Bytes} {chunks : List ChunkLoc} {d : Map Int Bytes}
    (hd : Verified answers chunks d) (hids : (chunks.map (·.id)).Nodup) {i : Nat} {c : ChunkLoc}
    (hc : chunks[i]? = some c) : d[c.id]? = fetchFrom (answers i) c := by
  obtain ⟨data, hget⟩ : ∃ data, d[c.id]? = some data := by
    rw [← Option.isSome_iff_exists, hd.complete]
    exact List.mem_map.mpr ⟨c, List.mem_of_getElem? hc, rfl⟩
  obtain ⟨j, c', hc', hid, hfetch⟩ := hd.delivered hget
  obtain rfl := announcement_unique hids hc hc' hid.symm
  rw [hc] at hc'
  cases hc'
  rw [hget, hfetch]

/-- There is no choice then. -/
lemma Verified.unique {answers : Nat → Option Bytes} {chunks : List ChunkLoc}
    {d d' : Map Int Bytes} (hd : Verified answers chunks d) (hd' : Verified answers chunks d')
    (hids : (chunks.map (·.id)).Nodup) : d = d' := by
  refine Std.ExtTreeMap.ext_getElem? fun id => ?_
  by_cases hid : id ∈ chunks.map (·.id)
  · obtain ⟨c, hc, rfl⟩ := List.mem_map.mp hid
    obtain ⟨i, hi⟩ := List.mem_iff_getElem?.mp hc
    rw [hd.get hids hi, hd'.get hids hi]
  · have hnone : ∀ {m : Map Int Bytes}, Verified answers chunks m → m[id]? = none := by
      intro m hm
      rw [← hm.complete] at hid
      exact Option.not_isSome_iff_eq_none.mp hid
    rw [hnone hd, hnone hd']

/-! ## Counting from zero -/

/-- The identifiers that counting to `n` comes to. -/
def CountedId (n : Nat) (id : Int) : Prop := 0 ≤ id ∧ id < n

instance (n : Nat) (id : Int) : Decidable (CountedId n id) := inferInstanceAs (Decidable (_ ∧ _))

/-- Counting through a map visits the entries in range. -/
lemma filterMap_range_eq (d : Map Int Bytes) (n : Nat) :
    ((List.range n).filterMap fun i : Nat => (d[(i : Int)]?).map ((i : Int), ·)) =
      d.toList.filter fun p => decide (CountedId n p.1) := by
  have hmem : ∀ p : Int × Bytes,
      p ∈ ((List.range n).filterMap fun i : Nat => (d[(i : Int)]?).map ((i : Int), ·)) ↔
        p ∈ d.toList.filter fun p => decide (CountedId n p.1) := by
    rintro ⟨id, data⟩
    rw [List.mem_filterMap, List.mem_filter, Map.mem_toList, decide_eq_true_eq]
    constructor
    · rintro ⟨i, hi, hget⟩
      obtain ⟨data', hget, heq⟩ := Option.map_eq_some_iff.mp hget
      cases heq
      rw [List.mem_range] at hi
      exact ⟨hget, by omega, by omega⟩
    · rintro ⟨hget, hlo, hhi⟩
      obtain ⟨i, rfl⟩ := Int.eq_ofNat_of_zero_le hlo
      refine ⟨i, List.mem_range.mpr (by simpa using hhi), ?_⟩
      simpa using hget
  -- both lists are in increasing order of the keys
  have hcount : ((List.range n).filterMap fun i : Nat =>
      (d[(i : Int)]?).map ((i : Int), ·)).Pairwise
      fun p q : Int × Bytes => p.1 < q.1 := by
    rw [List.pairwise_filterMap]
    refine List.pairwise_lt_range.imp fun hlt p hp q hq => ?_
    obtain ⟨-, -, rfl⟩ := Option.map_eq_some_iff.mp hp
    obtain ⟨-, -, rfl⟩ := Option.map_eq_some_iff.mp hq
    simpa using hlt
  have hmap : (d.toList.filter fun p => decide (CountedId n p.1)).Pairwise
      fun p q : Int × Bytes => p.1 < q.1 :=
    (Std.ExtTreeMap.ordered_keys_toList.imp fun h => compare_lt_iff_lt.mp h).filter _
  refine List.Perm.eq_of_pairwise (fun p q _ _ hpq hqp => ?_) hcount hmap
    ((List.perm_ext_iff_of_nodup (hcount.imp fun h => ?_) (hmap.imp fun h => ?_)).mpr hmem)
  · omega
  · rintro rfl
    exact absurd h (lt_irrefl _)
  · rintro rfl
    exact absurd h (lt_irrefl _)

/-- **What counting writes**: the entries of the identifiers in range. -/
theorem written_eq (d : Map Int Bytes) {n : Nat} (hn : n ≤ 2 ^ 31) :
    ((List.range n).map fun i : Nat => (d[wrap32 i]?).getD []).flatten =
      ((d.toList.filter fun p => decide (CountedId n p.1)).map (·.2)).flatten := by
  have hskip : ∀ l : List Nat, (l.map fun i : Nat => (d[(i : Int)]?).getD []).flatten =
      ((l.filterMap fun i : Nat => (d[(i : Int)]?).map ((i : Int), ·)).map (·.2)).flatten := by
    intro l
    induction l with
    | nil => rfl
    | cons i l ih => cases hget : d[(i : Int)]? <;> simp [hget, ih]
  have hkey : ((List.range n).map fun i : Nat => (d[wrap32 i]?).getD []) =
      (List.range n).map fun i : Nat => (d[(i : Int)]?).getD [] := by
    refine List.map_congr_left fun i hi => ?_
    rw [List.mem_range] at hi
    rw [wrap32_of_lt (by omega) (by omega)]
  rw [hkey, hskip, filterMap_range_eq]

/-- **Leaving out elements changes a concatenation**, unless they are empty. -/
theorem flatten_filter_eq_iff {α β : Type} {p : α → Bool} {f : α → List β} {l : List α} :
    ((l.filter p).map f).flatten = (l.map f).flatten ↔ ∀ a ∈ l, p a = false → f a = [] := by
  have hshort : ∀ l : List α, ((l.filter p).map f).flatten.length ≤ (l.map f).flatten.length :=
    fun l => (List.filter_sublist.map f).flatten.length_le
  induction l with
  | nil => simp
  | cons a l ih =>
      rw [List.forall_mem_cons, List.map_cons, List.flatten_cons, List.filter_cons]
      refine Iff.trans ?_ (and_congr_right fun _ => ih)
      cases hpa : p a with
      | true => simp
      | false =>
          constructor
          · intro h
            have hlen := congrArg List.length h
            have hle := hshort l
            simp only [Bool.false_eq_true, if_false, List.length_append] at hlen
            have hnil : f a = [] := List.length_eq_zero_iff.mp (by omega)
            exact ⟨fun _ => hnil, by simpa [hnil] using h⟩
          · rintro ⟨hnil, h⟩
            simpa [hnil rfl] using h

/-! ## What is dropped -/

/-- What was written is the concatenation, in increasing order of the identifiers, of one verified
byte string for each announced identifier. -/
def Reassembles (answers : Nat → Option Bytes) (chunks : List ChunkLoc) (written : Bytes) : Prop :=
  ∃ d : Map Int Bytes, Verified answers chunks d ∧ written = (d.toList.map (·.2)).flatten

/-- Each announced chunk has an identifier below the number of announcements, or is empty; and the
announcements can be counted in an `int`. -/
def IdsInRange (answers : Nat → Option Bytes) (chunks : List ChunkLoc) : Prop :=
  chunks.length ≤ 2 ^ 31 ∧ ∀ (i : Nat) (c : ChunkLoc), chunks[i]? = some c →
    CountedId chunks.length c.id ∨ fetchFrom (answers i) c = some []

lemma written_of_downloadFrom {answers : Nat → Option Bytes} {schedule : Schedule}
    {text fileHash written : Bytes} {chunks : List ChunkLoc}
    (hplan : readPlan [] [] (lines text) = some (fileHash, chunks))
    (h : downloadFrom answers schedule text = some written) (hlen : chunks.length ≤ 2 ^ 31) :
    ∃ d : Map Int Bytes, Verified answers chunks d ∧ written =
      ((d.toList.filter fun p => decide (CountedId chunks.length p.1)).map (·.2)).flatten := by
  simp only [downloadFrom, downloadWith, hplan, Option.bind_eq_bind, Option.bind_some,
    Option.bind_eq_some_iff] at h
  obtain ⟨fetched, hfetched, h⟩ := h
  refine ⟨collectChunks schedule fetched, verified_collectChunks hfetched schedule, ?_⟩
  rw [← written_eq _ hlen]
  split_ifs at h with hhash
  exact (Option.some.inj h).symm

/-- Nothing is lost if the identifiers are in range. -/
lemma reassembles_of_idsInRange {answers : Nat → Option Bytes} {schedule : Schedule}
    {text fileHash written : Bytes} {chunks : List ChunkLoc}
    (hplan : readPlan [] [] (lines text) = some (fileHash, chunks))
    (h : downloadFrom answers schedule text = some written) (hids : IdsInRange answers chunks) :
    Reassembles answers chunks written := by
  obtain ⟨d, hd, rfl⟩ := written_of_downloadFrom hplan h hids.1
  refine ⟨d, hd, flatten_filter_eq_iff.mpr ?_⟩
  rintro ⟨id, data⟩ hp hout
  obtain ⟨i, c, hc, rfl, hfetch⟩ := hd.delivered (Map.mem_toList.mp hp)
  rcases hids.2 i c hc with hin | hempty
  · exact absurd hin (of_decide_eq_false hout)
  · rw [hfetch] at hempty
    exact Option.some.inj hempty

/-- If each identifier is announced once, something is lost otherwise. -/
lemma idsInRange_of_reassembles {answers : Nat → Option Bytes} {schedule : Schedule}
    {text fileHash written : Bytes} {chunks : List ChunkLoc}
    (hplan : readPlan [] [] (lines text) = some (fileHash, chunks))
    (h : downloadFrom answers schedule text = some written) (hlen : chunks.length ≤ 2 ^ 31)
    (hnodup : (chunks.map (·.id)).Nodup) (hre : Reassembles answers chunks written) :
    IdsInRange answers chunks := by
  obtain ⟨d, hd, rfl⟩ := written_of_downloadFrom hplan h hlen
  obtain ⟨d', hd', hwhole⟩ := hre
  obtain rfl := hd.unique hd' hnodup
  refine ⟨hlen, fun i c hc => ?_⟩
  by_cases hin : CountedId chunks.length c.id
  · exact Or.inl hin
  · obtain ⟨data, hget⟩ : ∃ data, d[c.id]? = some data := by
      rw [← Option.isSome_iff_exists, hd.complete]
      exact List.mem_map.mpr ⟨c, List.mem_of_getElem? hc, rfl⟩
    have hempty := flatten_filter_eq_iff.mp hwhole _ (Map.mem_toList.mpr hget)
      (decide_eq_false hin)
    dsimp only at hempty
    rw [← hd.get hnodup hc, hget, hempty]
    exact Or.inr rfl

/-- **When a download that returns 0 has dropped nothing.**  If each announced chunk has an
identifier below the number of announcements, or is empty, what was written is one verified byte
string for each announced identifier, in the order of the identifiers; and if no identifier is
announced twice, only then. -/
theorem download_reassembles_iff {answers : Nat → Option Bytes} {schedule : Schedule}
    {text fileHash written : Bytes} {chunks : List ChunkLoc}
    (hplan : readPlan [] [] (lines text) = some (fileHash, chunks))
    (h : downloadFrom answers schedule text = some written) :
    (IdsInRange answers chunks → Reassembles answers chunks written) ∧
      (chunks.length ≤ 2 ^ 31 → (chunks.map (·.id)).Nodup →
        (Reassembles answers chunks written ↔ IdsInRange answers chunks)) := by
  refine ⟨reassembles_of_idsInRange hplan h, fun hlen hnodup => ⟨?_, ?_⟩⟩
  · exact idsInRange_of_reassembles hplan h hlen hnodup
  · exact reassembles_of_idsInRange hplan h

/-- The announcement of a chunk that is this one letter. -/
def letterLoc (id : Int) (letter : String) : ChunkLoc where
  id
  ip := ascii "127.0.0.1"
  port := 9000
  hash := sha256 (ascii letter)

/-- Its line in the stream of the head. -/
def letterLine (id : Int) (letter : String) : Bytes :=
  ascii "CHUNK_LOC " ++ dec id ++ ascii " 127.0.0.1 9000 " ++ sha256 (ascii letter) ++ ascii "\n"

/-- A node that sends this one letter. -/
def sendsLetter (letter : String) : Option Bytes := some (ascii "CHUNK_SIZE 1\n" ++ ascii letter)

/-- Two chunks, announced last chunk first, by a head that sends no hash of the file. -/
theorem download_reassembles_two :
    let text := letterLine 1 "b" ++ letterLine 0 "a" ++ ascii "EOF\n"
    let answers := fun i => if i = 0 then sendsLetter "b" else sendsLetter "a"
    downloadFrom answers .inOrder text = some (ascii "ab") ∧
      Reassembles answers [letterLoc 1 "b", letterLoc 0 "a"] (ascii "ab") := by
  intro text answers
  have hplan : readPlan [] [] (lines text) = some ([], [letterLoc 1 "b", letterLoc 0 "a"]) := by
    decide +kernel
  have hdownload : downloadFrom answers .inOrder text = some (ascii "ab") := by decide +kernel
  refine ⟨hdownload, (download_reassembles_iff hplan hdownload).1 ⟨by decide, ?_⟩⟩
  intro i c hc
  rcases List.mem_pair.mp (List.mem_of_getElem? hc) with rfl | rfl
  · exact Or.inl ⟨by decide, by decide⟩
  · exact Or.inl ⟨by decide, by decide⟩

/-- **A chunk is dropped silently.**  The head announces one chunk, under the identifier 1; the
client fetches and verifies it, writes an empty file and returns 0. -/
theorem download_drops_chunk :
    let text := letterLine 1 "a" ++ ascii "EOF\n"
    readPlan [] [] (lines text) = some ([], [letterLoc 1 "a"]) ∧
      fetchFrom (sendsLetter "a") (letterLoc 1 "a") = some (ascii "a") ∧
      downloadFrom (fun _ => sendsLetter "a") .inOrder text = some [] ∧
      ¬ Reassembles (fun _ => sendsLetter "a") [letterLoc 1 "a"] [] := by
  intro text
  have hplan : readPlan [] [] (lines text) = some ([], [letterLoc 1 "a"]) := by decide +kernel
  have hfetch : fetchFrom (sendsLetter "a") (letterLoc 1 "a") = some (ascii "a") := by
    decide +kernel
  have hdownload : downloadFrom (fun _ => sendsLetter "a") .inOrder text = some [] := by
    decide +kernel
  refine ⟨hplan, hfetch, hdownload, fun hre => ?_⟩
  have hids := idsInRange_of_reassembles hplan hdownload (by decide) (by decide) hre
  rcases hids.2 0 (letterLoc 1 "a") rfl with hin | hempty
  · exact absurd hin (by decide)
  · rw [hfetch] at hempty
    exact absurd hempty (by decide)

end FileGrid
