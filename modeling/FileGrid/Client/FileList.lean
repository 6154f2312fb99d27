import FileGrid.Client.Client
import FileGrid.Metadata.Persistence

/-!
# Listing the files

The head answers `LIST` with the names of the files, one on each line, and a line `EOF`; the client
reads lines until it meets that one, and gives up at a line that begins with `ERROR:`.  A file name
is a line like any other, and nothing keeps a file from being called `EOF`.

* `listFilesSnapshot_eq` — whatever order the store is gone over, the head sends the names in order.
* `readsAsName_of_mem`, `collectFiles_of_readsAsName` — which lines the client reads back.
* **`list_lossless_iff`** — the client's list is the list of the stored names exactly if none of
  them is one of the two lines that the client takes for something else.
-/

namespace FileGrid

/-! ## The head -/

/-- `list_files_snapshot`. -/
def listFilesSnapshot (order : Schedule) (sort : StdSort Bytes) (m : MetadataMap) : List Bytes :=
  sort.sort (fun a b => compare a b == .lt) ((iteration order m).map (·.1))

/-- The answer to `LIST`. -/
def listResponse (files : List Bytes) : Bytes :=
  files.flatMap (· ++ ascii "\n") ++ ascii "EOF\n"

/-- What the connection thread sends for a request to list the files. -/
def serveList (order : Schedule) (sort : StdSort Bytes) (m : MetadataMap) (received : Bytes) :
    Bytes :=
  match clientRequest received with
  | .list => listResponse (listFilesSnapshot order sort m)
  | _ => []

/-! ## The client -/

/-- The loop of `file_list` over the lines, with the files so far; `none` is the return with an
error.  The end of the stream reads like an empty line. -/
def collectFiles (files : List Bytes) : List Bytes → Option (List Bytes)
  | [] => some files
  | line :: rest =>
      if line = [] ∨ line = ascii "EOF" then some files
      else if ascii "ERROR:" <+: line then none
      else collectFiles (files ++ [line]) rest

/-- `file_list`: the files it lists. -/
def fileList (order : Schedule) (sort : StdSort Bytes) (m : MetadataMap) : Option (List Bytes) :=
  collectFiles [] (lines (serveList order sort m (ascii "LIST\n")))

/-! ## What is sent -/

/-- The names that are stored, in order. -/
def storedNames (m : MetadataMap) : List Bytes := m.toList.map (·.1)

lemma strictWeak_compare : StrictWeak fun a b : Bytes => compare a b == .lt where
  asymm := by
    intro a b hab
    simpa using Std.OrientedCmp.not_lt_of_lt (by simpa using hab)
  negTrans := by
    intro a b c hab hbc
    have hge : ∀ {x y : Bytes}, (compare x y == .lt) = false ↔ (compare x y).isGE = true := by
      intro x y
      rw [Ordering.isGE_iff_ne_lt, beq_eq_false_iff_ne]
    rw [hge] at hab hbc ⊢
    exact Std.TransCmp.isGE_trans hab hbc

/-- **The names are sent in order**, whatever the order of the store. -/
lemma listFilesSnapshot_eq (order : Schedule) (sort : StdSort Bytes) (m : MetadataMap) :
    listFilesSnapshot order sort m = storedNames m := by
  have hperm : (listFilesSnapshot order sort m).Perm (storedNames m) :=
    (sort.perm _ _).trans ((iteration_perm order m).map _)
  have hstored : (storedNames m).Pairwise fun a b => (compare b a == .lt) = false := by
    rw [storedNames, List.pairwise_map]
    refine Std.ExtTreeMap.ordered_keys_toList.imp fun hlt => ?_
    simpa using Std.OrientedCmp.not_lt_of_lt hlt
  refine hperm.eq_of_pairwise (fun a b _ _ hab hba => ?_) (sort.sorted _ _ strictWeak_compare)
    hstored
  -- neither of two names comes before the other
  rw [beq_eq_false_iff_ne] at hab hba
  cases hcompare : compare a b with
  | eq => exact Std.LawfulEqCmp.eq_of_compare hcompare
  | lt => exact absurd hcompare hba
  | gt => exact absurd (Std.OrientedCmp.lt_of_gt hcompare) hab

lemma lines_listResponse {files : List Bytes} (h : ∀ f ∈ files, Word f) :
    lines (listResponse files) = files ++ [ascii "EOF"] := by
  have hlines : listResponse files = (files ++ [ascii "EOF"]).flatMap (· ++ [10]) := by
    rw [listResponse, List.flatMap_append]
    rfl
  rw [hlines, lines_flatMap]
  intro l hl
  rcases List.mem_append.mp hl with hl | hl
  · exact (h l hl).not_mem_newline
  · rw [List.mem_singleton.mp hl]
    decide

/-! ## What is read -/

/-- The client reads this line as a name. -/
def ReadsAsName (line : Bytes) : Prop := line ≠ ascii "EOF" ∧ ¬ascii "ERROR:" <+: line

/-- The client never lists what it does not read as a name. -/
lemma readsAsName_of_mem {names : List Bytes} {files result : List Bytes}
    (h : collectFiles files names = some result) :
    ∀ line ∈ result, line ∈ files ∨ ReadsAsName line := by
  induction names generalizing files with
  | nil =>
      intro line hline
      rw [← Option.some.inj h] at hline
      exact Or.inl hline
  | cons name names ih =>
      rw [collectFiles] at h
      by_cases hend : name = [] ∨ name = ascii "EOF"
      · rw [if_pos hend, Option.some_inj] at h
        exact fun line hline => Or.inl (h ▸ hline)
      · rw [if_neg hend] at h
        by_cases herror : ascii "ERROR:" <+: name
        · rw [if_pos herror] at h
          exact absurd h (by simp)
        · rw [if_neg herror] at h
          intro line hline
          rcases ih h line hline with hmem | hname
          · rcases List.mem_append.mp hmem with hmem | hmem
            · exact Or.inl hmem
            · rw [List.mem_singleton.mp hmem]
              exact Or.inr ⟨fun heq => hend (Or.inr heq), herror⟩
          · exact Or.inr hname

/-- Names that are read as such all come back. -/
lemma collectFiles_of_readsAsName {names : List Bytes} (hwords : ∀ f ∈ names, Word f)
    (hnames : ∀ f ∈ names, ReadsAsName f) (files : List Bytes) :
    collectFiles files (names ++ [ascii "EOF"]) = some (files ++ names) := by
  induction names generalizing files with
  | nil => simp [collectFiles]
  | cons name names ih =>
      have hname := hnames name List.mem_cons_self
      have hword := hwords name List.mem_cons_self
      rw [List.cons_append, collectFiles, if_neg (by simp [hword.1, hname.1]), if_neg hname.2,
        ih (fun f hf => hwords f (List.mem_cons_of_mem name hf))
          fun f hf => hnames f (List.mem_cons_of_mem name hf)]
      simp

/-- **When `LIST` is lossless**: the client lists the names that are stored, in order, exactly if no
file is called `EOF` and no name begins with `ERROR:`. -/
theorem list_lossless_iff (order : Schedule) (sort : StdSort Bytes) (m : MetadataMap)
    (hnames : ∀ f ∈ storedNames m, Word f) :
    fileList order sort m = some (storedNames m) ↔
      ∀ f ∈ storedNames m, f ≠ ascii "EOF" ∧ ¬ascii "ERROR:" <+: f := by
  have hserve : serveList order sort m (ascii "LIST\n") = listResponse (storedNames m) := by
    have hrequest : clientRequest (ascii "LIST\n") = .list := by decide
    rw [serveList, hrequest, listFilesSnapshot_eq]
  rw [fileList, hserve, lines_listResponse hnames]
  constructor
  · intro hcollect f hf
    rcases readsAsName_of_mem hcollect f hf with hmem | hname
    · simp at hmem
    · exact hname
  · exact fun hnames' => collectFiles_of_readsAsName hnames hnames' []

/-- A store with two files, as two uploads leave it. -/
def listedFiles (f g : String) : MetadataMap :=
  storeMetadata (storeMetadata ∅ (ascii f) [] (sha256 []) 3) (ascii g) [] (sha256 []) 3

/-- Two ordinary files are listed. -/
theorem list_lossless_two :
    fileList .inOrder (.insertion Bytes) (listedFiles "b.txt" "a.txt") =
      some [ascii "a.txt", ascii "b.txt"] := by
  have hstored : storedNames (listedFiles "b.txt" "a.txt") = [ascii "a.txt", ascii "b.txt"] := by
    decide +kernel
  have hlist := list_lossless_iff .inOrder (.insertion Bytes) (listedFiles "b.txt" "a.txt")
  rw [hstored] at hlist
  exact (hlist (by simp [Word, ascii, isSpace])).mpr (by decide)

/-- **A file called `EOF` hides the files after it.** -/
theorem list_loses_files :
    storedNames (listedFiles "EOF" "a.txt") = [ascii "EOF", ascii "a.txt"] ∧
      fileList .inOrder (.insertion Bytes) (listedFiles "EOF" "a.txt") = some [] := by
  decide +kernel

end FileGrid
