import FileGrid.Common.ZooKeeper
import FileGrid.Core.Runs

/-!
# The tree of nodes

The store keeps its tree twice: a node lists the names of its children, and a path names its parent
and itself.  `ZnodeTree` says that the two agree.

**Paths.**  A path is its parent, a slash and its name (`path_split`) — but for the children of the
root, whose parent has the slash already.  The path `//a` is therefore taken apart like `/a`: two
paths with one parent and one name are such a pair (`twins_iff`), and no other two paths are.

**Steps.**  Creating a node and writing its data keep the tree.  Deleting one keeps it, but for two
kinds of deletion: that of the root, which is a node like any other, and that of one of a pair,
which takes the name they share out of the root's list.

**`znode_tree_kept_iff`**: a sequence of calls keeps the tree exactly if none of its deletions is of
these two kinds.
-/

namespace FileGrid

/-! ## Paths -/

lemma findLastOf_of_notMem {c : UInt8} {s : Bytes} (h : c ∉ s) : findLastOf c s = none := by
  induction s with
  | nil => rfl
  | cons b s ih =>
      rw [List.mem_cons, not_or] at h
      rw [findLastOf, ih h.2]
      exact if_neg (Ne.symm h.1)

/-- The last of the bytes `c`, with what is before it and behind it. -/
lemma findLastOf_append {c : UInt8} (s : Bytes) {t : Bytes} (h : c ∉ t) :
    findLastOf c (s ++ c :: t) = some s.length := by
  induction s with
  | nil =>
      rw [List.nil_append, findLastOf, findLastOf_of_notMem h]
      exact if_pos rfl
  | cons b s ih => rw [List.cons_append, findLastOf, ih, List.length_cons]

lemma exists_last_split {c : UInt8} {s : Bytes} (h : c ∈ s) : ∃ t u, s = t ++ c :: u ∧ c ∉ u := by
  induction s with
  | nil => exact absurd h List.not_mem_nil
  | cons b s ih =>
      by_cases hs : c ∈ s
      · obtain ⟨t, u, rfl, hu⟩ := ih hs
        exact ⟨b :: t, u, rfl, hu⟩
      · obtain rfl : c = b := (List.mem_cons.mp h).resolve_right hs
        exact ⟨[], s, rfl, hs⟩

/-- A path begins with a slash. -/
def IsAbsolute (path : Bytes) : Prop := path.head? = some 47

lemma isAbsolute_cons (s : Bytes) : IsAbsolute (47 :: s) := rfl

lemma IsAbsolute.append {path : Bytes} (h : IsAbsolute path) (s : Bytes) :
    IsAbsolute (path ++ s) := by
  rw [IsAbsolute, List.head?_append, h]
  rfl

lemma IsAbsolute.ne_nil {path : Bytes} (h : IsAbsolute path) : path ≠ [] := by
  rintro rfl
  simp [IsAbsolute] at h

lemma isAbsolute_dropTrailingSlashes {path : Bytes} (h : IsAbsolute path) :
    IsAbsolute (dropTrailingSlashes path) := by
  rw [dropTrailingSlashes]
  have hstart : (path.reverse.dropWhile (· = 47)).reverse <+: path := by
    rw [← List.reverse_suffix, List.reverse_reverse]
    exact List.dropWhile_suffix _
  cases htrimmed : (path.reverse.dropWhile (· = 47)).reverse with
  | nil =>
      rw [IsAbsolute, List.head?_take]
      exact h
  | cons c s =>
      rw [htrimmed] at hstart
      obtain ⟨t, rfl⟩ := hstart
      exact h

/-- **Every normalised path is absolute.** -/
lemma isAbsolute_normalizePath (raw : Bytes) : IsAbsolute (normalizePath raw) := by
  cases raw with
  | nil => rfl
  | cons c s =>
      rw [normalizePath]
      split_ifs with hc
      · exact isAbsolute_dropTrailingSlashes (isAbsolute_cons _)
      · rw [not_not.mp hc]
        exact isAbsolute_dropTrailingSlashes (isAbsolute_cons s)

lemma parentPath_root : parentPath (ascii "/") = [] := rfl

lemma split_of_root {name : Bytes} (hne : name ≠ []) (h : 47 ∉ name) :
    parentPath (47 :: name) = ascii "/" ∧ childName (47 :: name) = name := by
  have hroot : (47 :: name : Bytes) ≠ ascii "/" := by
    intro heq
    exact hne (List.cons.inj heq).2
  have hlast : findLastOf 47 (47 :: name) = some 0 := findLastOf_append [] h
  rw [parentPath, childName, if_neg hroot, if_neg hroot, hlast]
  exact ⟨rfl, rfl⟩

/-- A child of another node, and one written with two slashes. -/
lemma split_of_parent {parent name : Bytes} (hparent : parent ≠ []) (h : 47 ∉ name) :
    parentPath (parent ++ 47 :: name) = parent ∧ childName (parent ++ 47 :: name) = name := by
  obtain ⟨c, s, rfl⟩ := List.exists_cons_of_ne_nil hparent
  have hroot : (c :: s ++ 47 :: name : Bytes) ≠ ascii "/" := by
    intro heq
    have hnil : s ++ 47 :: name = [] := (List.cons.inj heq).2
    simp at hnil
  have hlast : findLastOf 47 (c :: s ++ 47 :: name) = some (s.length + 1) :=
    findLastOf_append (c :: s) h
  rw [parentPath, childName, if_neg hroot, if_neg hroot, hlast]
  constructor
  · simp
  · simp

/-- **A path is its parent, a slash and its name**, or its parent is the root, whose slash it
shares. -/
lemma path_split {path : Bytes} (h : IsAbsolute path) (hne : path ≠ ascii "/") :
    47 ∉ childName path ∧ ((parentPath path = ascii "/" ∧ path = 47 :: childName path) ∨
      (IsAbsolute (parentPath path) ∧ path = parentPath path ++ 47 :: childName path)) := by
  obtain ⟨s, rfl⟩ : ∃ s, path = 47 :: s := by
    cases path with
    | nil => exact absurd rfl h.ne_nil
    | cons c s => exact ⟨s, by rw [Option.some.inj h]⟩
  obtain ⟨parent, name, hpath, hname⟩ := exists_last_split (List.mem_cons_self (a := 47) (l := s))
  cases parent with
  | nil =>
      rw [List.nil_append] at hpath
      have hnil : name ≠ [] := by
        rintro rfl
        exact hne hpath
      obtain ⟨hparent, hchild⟩ := split_of_root hnil hname
      rw [hpath, hparent, hchild]
      exact ⟨hname, Or.inl ⟨rfl, rfl⟩⟩
  | cons c t =>
      have habsolute : IsAbsolute (c :: t) := by
        rw [← (List.cons.inj hpath).1]
        exact isAbsolute_cons t
      obtain ⟨hparent, hchild⟩ := split_of_parent habsolute.ne_nil hname
      rw [hpath, hparent, hchild]
      exact ⟨hname, Or.inr ⟨habsolute, rfl⟩⟩

lemma isAbsolute_parentPath {path : Bytes} (h : IsAbsolute path) (hne : path ≠ ascii "/") :
    IsAbsolute (parentPath path) := by
  rcases (path_split h hne).2 with ⟨hparent, -⟩ | ⟨hparent, -⟩
  · rw [hparent]
    rfl
  · exact hparent

/-- Two ways to write a child of the root: `/a` and `//a`. -/
def Twins (path other : Bytes) : Prop :=
  ∃ name, name ≠ [] ∧ 47 ∉ name ∧
    ((path = 47 :: name ∧ other = 47 :: 47 :: name) ∨
      (path = 47 :: 47 :: name ∧ other = 47 :: name))

/-- **Two paths have one parent and one name exactly if they are twins.** -/
theorem twins_iff {path other : Bytes} (hpath : IsAbsolute path) (hother : IsAbsolute other)
    (hne : path ≠ ascii "/") (hne' : other ≠ ascii "/") :
    Twins path other ↔
      other ≠ path ∧ parentPath other = parentPath path ∧ childName other = childName path := by
  have hdouble : ∀ {name : Bytes}, 47 ∉ name →
      parentPath (47 :: 47 :: name) = ascii "/" ∧ childName (47 :: 47 :: name) = name :=
    fun {name} hname => split_of_parent (List.cons_ne_nil 47 []) hname
  constructor
  · rintro ⟨name, hnil, hname, ⟨rfl, rfl⟩ | ⟨rfl, rfl⟩⟩
    · rw [(hdouble hname).1, (hdouble hname).2, (split_of_root hnil hname).1,
        (split_of_root hnil hname).2]
      exact ⟨by simp, rfl, rfl⟩
    · rw [(hdouble hname).1, (hdouble hname).2, (split_of_root hnil hname).1,
        (split_of_root hnil hname).2]
      exact ⟨by simp, rfl, rfl⟩
  · rintro ⟨hdistinct, hparent, hchild⟩
    obtain ⟨hname, hsplit⟩ := path_split hpath hne
    obtain ⟨-, hsplit'⟩ := path_split hother hne'
    rw [hparent, hchild] at hsplit'
    rcases hsplit with ⟨hroot, hsplit⟩ | ⟨-, hsplit⟩
    · rcases hsplit' with ⟨-, hsplit'⟩ | ⟨-, hsplit'⟩
      · exact absurd (hsplit'.trans hsplit.symm) hdistinct
      · rw [hroot] at hsplit'
        refine ⟨childName path, ?_, hname, Or.inl ⟨hsplit, hsplit'⟩⟩
        intro hnil
        rw [hnil] at hsplit
        exact hne hsplit
    · rcases hsplit' with ⟨hroot, hsplit'⟩ | ⟨-, hsplit'⟩
      · rw [hroot] at hsplit
        refine ⟨childName path, ?_, hname, Or.inr ⟨hsplit, hsplit'⟩⟩
        intro hnil
        rw [hnil] at hsplit'
        exact hne' hsplit'
      · exact absurd (hsplit'.trans hsplit.symm) hdistinct

/-! ## The invariant -/

namespace ZooKeeper

/-- The path is stored. -/
def Stored (zk : ZooKeeper) (path : Bytes) : Prop := (zk[path]?).isSome

instance (zk : ZooKeeper) (path : Bytes) : Decidable (zk.Stored path) :=
  inferInstanceAs (Decidable (_ = true))

lemma stored_iff {zk : ZooKeeper} {path : Bytes} :
    zk.Stored path ↔ ∃ node, zk[path]? = some node :=
  Option.isSome_iff_exists

/-- Every stored path is absolute. -/
def Absolute (zk : ZooKeeper) : Prop := ∀ path, zk.Stored path → IsAbsolute path

end ZooKeeper

/-- **The tree invariant.**  The root is stored; every other stored path is listed by its parent,
which is stored; and every listed name is that of a stored child. -/
structure ZnodeTree (zk : ZooKeeper) : Prop where
  root : zk.Stored (ascii "/")
  listed : ∀ path, path ≠ ascii "/" → zk.Stored path →
    ∃ parent, zk[parentPath path]? = some parent ∧ childName path ∈ parent.children
  children : ∀ path node, zk[path]? = some node → ∀ name ∈ node.children,
    ∃ child, zk.Stored child ∧ parentPath child = path ∧ childName child = name

lemma znodeTree_initial : ZnodeTree ({} : ZnodeStore).nodes := by
  have hget : ∀ path, ({} : ZnodeStore).nodes[path]? =
      if path = ascii "/" then some {} else none := by
    intro path
    rw [Map.get_insert]
    simp
  refine ⟨by decide +kernel, ?_, ?_⟩
  · intro path hne hstored
    rw [ZooKeeper.Stored, hget, if_neg hne] at hstored
    exact absurd hstored (by simp)
  · intro path node hnode name hname
    rw [hget] at hnode
    split_ifs at hnode with hpath
    rw [← Option.some.inj hnode] at hname
    exact absurd hname (List.not_mem_nil)

@[simp] lemma mem_insertChild {node : ZNode} {name name' : Bytes} :
    name' ∈ (node.insertChild name).children ↔ name' = name ∨ name' ∈ node.children := by
  rw [ZNode.insertChild]
  split_ifs with hmem
  · refine ⟨Or.inr, ?_⟩
    rintro (rfl | hname)
    · exact List.contains_iff_mem.mp hmem
    · exact hname
  · exact List.mem_orderedInsert _

@[simp] lemma mem_eraseChild {node : ZNode} {name name' : Bytes} :
    name' ∈ (node.eraseChild name).children ↔ name' ∈ node.children ∧ name' ≠ name := by
  simp [ZNode.eraseChild]

/-! ## What the calls do -/

namespace ZooKeeper

variable {zk : ZooKeeper}

lemma get_update (zk : ZooKeeper) (path path' : Bytes) (f : ZNode → ZNode) :
    (zk.update path f)[path']? =
      if path' = path then some (f (zk[path]?.getD {})) else zk[path']? :=
  Map.get_insert _ _ _ _

/-- A node can be created here: the path is free, and its parent is stored. -/
def Creatable (zk : ZooKeeper) (path : Bytes) : Prop :=
  ¬zk.Stored path ∧ (parentPath path = [] ∨ zk.Stored (parentPath path))

instance (zk : ZooKeeper) (path : Bytes) : Decidable (zk.Creatable path) :=
  inferInstanceAs (Decidable (_ ∧ _))

lemma createAt_of_creatable {path : Bytes} (h : zk.Creatable path) (data : Bytes)
    (ephemeral : Bool) : zk.createAt path data ephemeral =
      (.ok, if parentPath path ≠ [] then
          update (zk.insert path { data, ephemeral }) (parentPath path)
            (·.insertChild (childName path))
        else zk.insert path { data, ephemeral }) := by
  have hparent : ¬(parentPath path ≠ [] ∧ zk.ensureParentExists (parentPath path) = false) := by
    rintro ⟨hne, hfalse⟩
    rw [ensureParentExists, h.2.resolve_left hne, Bool.or_true] at hfalse
    exact Bool.noConfusion hfalse
  have hfree : ¬(zk[path]?).isSome = true := h.1
  rw [createAt, if_neg hfree, if_neg hparent]

/-- Elsewhere it fails, and changes nothing. -/
lemma createAt_of_not_creatable {path : Bytes} (h : ¬zk.Creatable path) (data : Bytes)
    (ephemeral : Bool) :
    (zk.createAt path data ephemeral).1 ≠ .ok ∧ (zk.createAt path data ephemeral).2 = zk := by
  rw [createAt]
  by_cases hstored : (zk[path]?).isSome = true
  · rw [if_pos hstored]
    exact ⟨by simp, rfl⟩
  · have hparent : parentPath path ≠ [] ∧ zk.ensureParentExists (parentPath path) = false := by
      have hno : ¬(parentPath path = [] ∨ zk.Stored (parentPath path)) := fun h' => h ⟨hstored, h'⟩
      rw [not_or] at hno
      refine ⟨hno.1, ?_⟩
      rw [ensureParentExists, Bool.or_eq_false_iff]
      exact ⟨decide_eq_false hno.1, Bool.eq_false_iff.mpr hno.2⟩
    rw [if_neg hstored, if_pos hparent]
    exact ⟨by simp, rfl⟩

lemma get_createAt {path : Bytes} (hcreatable : zk.Creatable path) (hparent : parentPath path ≠ [])
    (data : Bytes) (ephemeral : Bool) :
    ∃ parent, zk[parentPath path]? = some parent ∧ parentPath path ≠ path ∧
      ∀ path', (zk.createAt path data ephemeral).2[path']? =
        if path' = parentPath path then some (parent.insertChild (childName path))
        else if path' = path then some { data, ephemeral } else zk[path']? := by
  obtain ⟨parent, hsome⟩ := stored_iff.mp (hcreatable.2.resolve_left hparent)
  have hne : parentPath path ≠ path := by
    intro heq
    rw [heq] at hsome
    exact hcreatable.1 (stored_iff.mpr ⟨parent, hsome⟩)
  refine ⟨parent, hsome, hne, ?_⟩
  intro path'
  rw [createAt_of_creatable hcreatable, if_pos hparent, get_update, Map.get_insert, Map.get_insert,
    if_neg hne, hsome, Option.getD_some]

/-- A deletion that takes effect: the node is stored and has no children. -/
def Deletable (zk : ZooKeeper) (path : Bytes) : Prop :=
  zk[path]?.any (·.children = []) = true

instance (zk : ZooKeeper) (path : Bytes) : Decidable (zk.Deletable path) :=
  inferInstanceAs (Decidable (_ = true))

lemma deletable_iff {path : Bytes} :
    zk.Deletable path ↔ ∃ node, zk[path]? = some node ∧ node.children = [] := by
  simp [Deletable, Option.any_eq_true]

lemma deleteNode_eq (zk : ZooKeeper) (path : Bytes) :
    (¬zk.Deletable (normalizePath path) ∧ (zk.deleteNode path).2 = zk) ∨
      (zk.Deletable (normalizePath path) ∧ (zk.deleteNode path).2 =
        (if parentPath (normalizePath path) ≠ [] then
          zk.update (parentPath (normalizePath path))
            (·.eraseChild (childName (normalizePath path)))
        else zk).erase (normalizePath path)) := by
  rw [deleteNode, deletable_iff]
  cases hnode : zk[normalizePath path]? with
  | none => exact Or.inl ⟨by simp, rfl⟩
  | some node =>
      dsimp only
      by_cases hchildren : node.children = []
      · rw [if_neg (not_not.mpr hchildren)]
        exact Or.inr ⟨⟨node, rfl, hchildren⟩, rfl⟩
      · rw [if_pos hchildren]
        exact Or.inl ⟨by simpa using hchildren, rfl⟩

lemma setNodeData_eq (zk : ZooKeeper) (path data : Bytes) :
    (zk.setNodeData path data).2 = zk ∨
      ∃ node, zk[normalizePath path]? = some node ∧ (zk.setNodeData path data).2 =
        zk.insert (normalizePath path) { node with data, version := node.version + 1 } := by
  rw [setNodeData]
  cases hnode : zk[normalizePath path]? with
  | none => exact Or.inl rfl
  | some node => exact Or.inr ⟨node, rfl, rfl⟩

lemma get_deleteNode {path : Bytes} {parent : ZNode}
    (hdeletable : zk.Deletable (normalizePath path))
    (hne : parentPath (normalizePath path) ≠ [])
    (hparent : zk[parentPath (normalizePath path)]? = some parent) (path' : Bytes) :
    (zk.deleteNode path).2[path']? =
      if path' = normalizePath path then none
      else if path' = parentPath (normalizePath path) then
        some (parent.eraseChild (childName (normalizePath path)))
      else zk[path']? := by
  rcases deleteNode_eq zk path with ⟨hno, -⟩ | ⟨-, hnodes⟩
  · exact absurd hdeletable hno
  · rw [hnodes, if_pos hne, Map.get_erase, get_update, hparent, Option.getD_some]

/-! ## What stays stored -/

lemma Stored.insert {path : Bytes} (h : zk.Stored path) (path' : Bytes) (node : ZNode) :
    Stored (zk.insert path' node) path := by
  rw [Stored, Map.get_insert]
  split_ifs
  · rfl
  · exact h

lemma Stored.createAt {path : Bytes} (h : zk.Stored path) (path' data : Bytes) (ephemeral : Bool) :
    (zk.createAt path' data ephemeral).2.Stored path := by
  by_cases hcreatable : zk.Creatable path'
  · rw [createAt_of_creatable hcreatable]
    split_ifs
    · exact (h.insert path' _).insert _ _
    · exact h.insert path' _
  · rw [(createAt_of_not_creatable hcreatable data ephemeral).2]
    exact h

lemma Stored.deleteNode {path path' : Bytes} (h : zk.Stored path)
    (hne : path ≠ normalizePath path') : (zk.deleteNode path').2.Stored path := by
  rcases deleteNode_eq zk path' with ⟨-, hnodes⟩ | ⟨-, hnodes⟩
  · rw [hnodes]
    exact h
  · rw [hnodes, Stored, Map.get_erase, if_neg hne]
    split_ifs
    · exact h.insert _ _
    · exact h

lemma Stored.setNodeData {path : Bytes} (h : zk.Stored path) (path' data : Bytes) :
    (zk.setNodeData path' data).2.Stored path := by
  rcases setNodeData_eq zk path' data with hnodes | ⟨node, -, hnodes⟩
  · rw [hnodes]
    exact h
  · rw [hnodes]
    exact h.insert _ _

/-! ## The stored paths stay absolute -/

lemma Absolute.insert (h : zk.Absolute) {path : Bytes} (hpath : IsAbsolute path) (node : ZNode) :
    Absolute (zk.insert path node) := by
  intro path' hstored
  rw [Stored, Map.get_insert] at hstored
  split_ifs at hstored with heq
  · rw [heq]
    exact hpath
  · exact h path' hstored

lemma Absolute.erase (h : zk.Absolute) (path : Bytes) : Absolute (zk.erase path) := by
  intro path' hstored
  rw [Stored, Map.get_erase] at hstored
  split_ifs at hstored with heq
  · exact absurd hstored (by simp)
  · exact h path' hstored

lemma Absolute.update_parent (h : zk.Absolute) {path : Bytes} (hpath : IsAbsolute path)
    (hne : parentPath path ≠ []) (f : ZNode → ZNode) :
    Absolute (zk.update (parentPath path) f) := by
  refine h.insert (isAbsolute_parentPath hpath ?_) _
  rintro rfl
  exact hne parentPath_root

lemma Absolute.createAt (h : zk.Absolute) {path : Bytes} (hpath : IsAbsolute path) (data : Bytes)
    (ephemeral : Bool) : (zk.createAt path data ephemeral).2.Absolute := by
  by_cases hcreatable : zk.Creatable path
  · rw [createAt_of_creatable hcreatable]
    split_ifs with hne
    · exact Absolute.update_parent (h.insert hpath _) hpath hne _
    · exact h.insert hpath _
  · rw [(createAt_of_not_creatable hcreatable data ephemeral).2]
    exact h

lemma Absolute.deleteNode (h : zk.Absolute) (path : Bytes) : (zk.deleteNode path).2.Absolute := by
  rcases deleteNode_eq zk path with ⟨-, hnodes⟩ | ⟨-, hnodes⟩
  · rw [hnodes]
    exact h
  · rw [hnodes]
    refine Absolute.erase ?_ _
    split_ifs with hne
    · exact h.update_parent (isAbsolute_normalizePath path) hne _
    · exact h

lemma Absolute.setNodeData (h : zk.Absolute) (path data : Bytes) :
    (zk.setNodeData path data).2.Absolute := by
  rcases setNodeData_eq zk path data with hnodes | ⟨node, -, hnodes⟩
  · rw [hnodes]
    exact h
  · rw [hnodes]
    exact h.insert (isAbsolute_normalizePath path) _

end ZooKeeper

/-! ## Steps of the tree -/

namespace ZnodeTree

variable {zk : ZooKeeper}

/-- Only the lists of children matter. -/
lemma congr {zk' : ZooKeeper} (h : ZnodeTree zk)
    (hsame : ∀ path : Bytes, zk'[path]?.map ZNode.children = zk[path]?.map ZNode.children) :
    ZnodeTree zk' := by
  have hstored : ∀ {path}, zk'.Stored path ↔ zk.Stored path := by
    intro path
    rw [ZooKeeper.Stored, ZooKeeper.Stored, ← Option.isSome_map (f := ZNode.children), hsame,
      Option.isSome_map]
  refine ⟨hstored.mpr h.root, ?_, ?_⟩
  · intro path hne hpath
    obtain ⟨parent, hparent, hlisted⟩ := h.listed path hne (hstored.mp hpath)
    have hchildren := hsame (parentPath path)
    rw [hparent, Option.map_some, Option.map_eq_some_iff] at hchildren
    obtain ⟨parent', hparent', heq⟩ := hchildren
    exact ⟨parent', hparent', heq ▸ hlisted⟩
  · intro path node hnode name hname
    have hchildren := hsame path
    rw [hnode, Option.map_some, eq_comm, Option.map_eq_some_iff] at hchildren
    obtain ⟨node', hnode', heq⟩ := hchildren
    obtain ⟨child, hchild, hsplit⟩ := h.children path node' hnode' name (heq ▸ hname)
    exact ⟨child, hstored.mpr hchild, hsplit⟩

lemma setNodeData (h : ZnodeTree zk) (path data : Bytes) :
    ZnodeTree (zk.setNodeData path data).2 := by
  rcases ZooKeeper.setNodeData_eq zk path data with hnodes | ⟨node, hnode, hnodes⟩
  · rw [hnodes]
    exact h
  · refine h.congr ?_
    intro path'
    rw [hnodes, Map.get_insert]
    split_ifs with heq
    · rw [heq, hnode]
      rfl
    · rfl

/-- Creating a node keeps the tree. -/
theorem createAt (h : ZnodeTree zk) {path : Bytes} (hpath : IsAbsolute path) (data : Bytes)
    (ephemeral : Bool) : ZnodeTree (zk.createAt path data ephemeral).2 := by
  by_cases hcreatable : zk.Creatable path
  · -- the root is there, so that the new node has a parent
    have hroot : path ≠ ascii "/" := by
      rintro rfl
      exact hcreatable.1 h.root
    obtain ⟨parent, hparent, hne, hget⟩ := ZooKeeper.get_createAt hcreatable
      (isAbsolute_parentPath hpath hroot).ne_nil data ephemeral
    have hnew : (zk.createAt path data ephemeral).2.Stored path := by
      rw [ZooKeeper.Stored, hget, if_neg hne.symm, if_pos rfl]
      rfl
    refine ⟨h.root.createAt path data ephemeral, ?_, ?_⟩
    · intro path' hroot' hstored
      by_cases heq : path' = path
      · subst heq
        exact ⟨parent.insertChild (childName path'), by rw [hget, if_pos rfl], by simp⟩
      · have hold : zk.Stored path' := by
          rw [ZooKeeper.Stored, hget, if_neg heq] at hstored
          split_ifs at hstored with heq'
          · rw [ZooKeeper.Stored, heq', hparent]
            rfl
          · exact hstored
        obtain ⟨node, hnode, hlisted⟩ := h.listed path' hroot' hold
        by_cases hsame : parentPath path' = parentPath path
        · rw [hsame, hparent] at hnode
          rw [← Option.some.inj hnode] at hlisted
          exact ⟨parent.insertChild (childName path), by rw [hget, if_pos hsame],
            mem_insertChild.mpr (Or.inr hlisted)⟩
        · have hfree : parentPath path' ≠ path := by
            intro heq'
            rw [heq'] at hnode
            exact hcreatable.1 (ZooKeeper.stored_iff.mpr ⟨node, hnode⟩)
          exact ⟨node, by rw [hget, if_neg hsame, if_neg hfree, hnode], hlisted⟩
    · intro path' node hnode name hname
      rw [hget] at hnode
      split_ifs at hnode with hsame hsame'
      · rw [← Option.some.inj hnode, mem_insertChild] at hname
        rcases hname with rfl | hname
        · exact ⟨path, hnew, hsame.symm, rfl⟩
        · obtain ⟨child, hchild, hsplit⟩ := h.children path' parent (hsame ▸ hparent) name hname
          exact ⟨child, hchild.createAt path data ephemeral, hsplit⟩
      · rw [← Option.some.inj hnode] at hname
        exact absurd hname List.not_mem_nil
      · obtain ⟨child, hchild, hsplit⟩ := h.children path' node hnode name hname
        exact ⟨child, hchild.createAt path data ephemeral, hsplit⟩
  · rw [(ZooKeeper.createAt_of_not_creatable hcreatable data ephemeral).2]
    exact h

/-- A deletion that the tree does not survive: of the root, or of one of two twins. -/
def Broken (zk : ZooKeeper) (path : Bytes) : Prop :=
  zk.Deletable path ∧ (path = ascii "/" ∨ ∃ other, Twins path other ∧ zk.Stored other)

/-- The root is gone when it is deleted. -/
lemma not_deleteNode_root {path : Bytes} (hdeletable : zk.Deletable (normalizePath path))
    (hroot : normalizePath path = ascii "/") : ¬ZnodeTree (zk.deleteNode path).2 := by
  intro h
  have hstored := h.root
  rcases ZooKeeper.deleteNode_eq zk path with ⟨hno, -⟩ | ⟨-, hnodes⟩
  · exact hno hdeletable
  · rw [hnodes, ZooKeeper.Stored, Map.get_erase, if_pos hroot.symm] at hstored
    exact Bool.noConfusion hstored

/-- A node that can be deleted is the parent of no stored path. -/
lemma parentPath_ne_of_deletable (h : ZnodeTree zk) {path path' : Bytes}
    (hdeletable : zk.Deletable path) (hne : path' ≠ ascii "/") (hstored : zk.Stored path') :
    parentPath path' ≠ path := by
  rintro rfl
  obtain ⟨node, hnode, hchildless⟩ := ZooKeeper.deletable_iff.mp hdeletable
  obtain ⟨node', hnode', hlisted⟩ := h.listed path' hne hstored
  rw [hnode] at hnode'
  rw [← Option.some.inj hnode', hchildless] at hlisted
  exact absurd hlisted List.not_mem_nil

/-- What the deletion of a node of the tree leaves, when the node is not the root. -/
lemma get_deleteNode (h : ZnodeTree zk) {path : Bytes}
    (hdeletable : zk.Deletable (normalizePath path)) (hne : normalizePath path ≠ ascii "/") :
    ∃ parent, zk[parentPath (normalizePath path)]? = some parent ∧
      ∀ path', (zk.deleteNode path).2[path']? =
        if path' = normalizePath path then none
        else if path' = parentPath (normalizePath path) then
          some (parent.eraseChild (childName (normalizePath path)))
        else zk[path']? := by
  obtain ⟨node, hnode, -⟩ := ZooKeeper.deletable_iff.mp hdeletable
  obtain ⟨parent, hparent, -⟩ := h.listed _ hne (ZooKeeper.stored_iff.mpr ⟨node, hnode⟩)
  have hparent' := (isAbsolute_parentPath (isAbsolute_normalizePath path) hne).ne_nil
  exact ⟨parent, hparent, ZooKeeper.get_deleteNode hdeletable hparent' hparent⟩

/-- Of two twins the one that is left is listed no more. -/
lemma not_deleteNode_twin (h : ZnodeTree zk) (habsolute : zk.Absolute) {path other : Bytes}
    (hdeletable : zk.Deletable (normalizePath path)) (hne : normalizePath path ≠ ascii "/")
    (htwins : Twins (normalizePath path) other) (hstored : zk.Stored other) :
    ¬ZnodeTree (zk.deleteNode path).2 := by
  intro htree
  obtain ⟨parent, hparent, hget⟩ := h.get_deleteNode hdeletable hne
  have hne' : other ≠ ascii "/" := by
    rintro rfl
    obtain ⟨name, hnil, -, ⟨-, hother⟩ | ⟨-, hother⟩⟩ := htwins
    · simp [ascii] at hother
    · exact hnil (List.cons.inj hother).2.symm
  obtain ⟨hdistinct, hsame, hname⟩ :=
    (twins_iff (isAbsolute_normalizePath path) (habsolute other hstored) hne hne').mp htwins
  have hself : parentPath (normalizePath path) ≠ normalizePath path := by
    rw [← hsame]
    exact h.parentPath_ne_of_deletable hdeletable hne' hstored
  obtain ⟨node, hnode, hlisted⟩ := htree.listed other hne' (hstored.deleteNode hdistinct)
  rw [hget, hsame, if_neg hself, if_pos rfl] at hnode
  rw [← Option.some.inj hnode, mem_eraseChild] at hlisted
  exact hlisted.2 hname

/-- Any other node can be deleted. -/
lemma deleteNode_of_not_broken (h : ZnodeTree zk) (habsolute : zk.Absolute) {path : Bytes}
    (hdeletable : zk.Deletable (normalizePath path))
    (hbroken : ¬Broken zk (normalizePath path)) : ZnodeTree (zk.deleteNode path).2 := by
  have hne : normalizePath path ≠ ascii "/" := fun hroot => hbroken ⟨hdeletable, Or.inl hroot⟩
  obtain ⟨parent, hparent, hget⟩ := h.get_deleteNode hdeletable hne
  refine ⟨h.root.deleteNode hne.symm, ?_, ?_⟩
  · intro path' hne' hstored
    -- what is stored now was stored, and is not the deleted node
    have hdistinct : path' ≠ normalizePath path := by
      rintro rfl
      rw [ZooKeeper.Stored, hget, if_pos rfl] at hstored
      exact Bool.noConfusion hstored
    have hold : zk.Stored path' := by
      rw [ZooKeeper.Stored, hget, if_neg hdistinct] at hstored
      split_ifs at hstored with heq
      · rw [ZooKeeper.Stored, heq, hparent]
        rfl
      · exact hstored
    have hself := h.parentPath_ne_of_deletable hdeletable hne' hold
    obtain ⟨node, hnode, hlisted⟩ := h.listed path' hne' hold
    rw [hget, if_neg hself]
    by_cases hsame : parentPath path' = parentPath (normalizePath path)
    · rw [if_pos hsame]
      rw [hsame, hparent] at hnode
      rw [← Option.some.inj hnode] at hlisted
      refine ⟨_, rfl, mem_eraseChild.mpr ⟨hlisted, ?_⟩⟩
      intro hname
      have htwins := (twins_iff (isAbsolute_normalizePath path) (habsolute path' hold) hne hne').mpr
        ⟨hdistinct, hsame, hname⟩
      exact hbroken ⟨hdeletable, Or.inr ⟨path', htwins, hold⟩⟩
    · rw [if_neg hsame]
      exact ⟨node, hnode, hlisted⟩
  · intro path' node hnode name hname
    rw [hget] at hnode
    split_ifs at hnode with hdistinct hsame
    · rw [← Option.some.inj hnode, mem_eraseChild] at hname
      obtain ⟨child, hchild, hsplit, rfl⟩ := h.children path' parent (hsame ▸ hparent) name hname.1
      refine ⟨child, hchild.deleteNode ?_, hsplit, rfl⟩
      rintro rfl
      exact hname.2 rfl
    · obtain ⟨child, hchild, hsplit, hname'⟩ := h.children path' node hnode name hname
      refine ⟨child, hchild.deleteNode ?_, hsplit, hname'⟩
      rintro rfl
      exact hsame hsplit.symm

/-- **A deletion keeps the tree unless it is of the root or of one of two twins.** -/
theorem deleteNode_iff (h : ZnodeTree zk) (habsolute : zk.Absolute) (path : Bytes) :
    ZnodeTree (zk.deleteNode path).2 ↔ ¬Broken zk (normalizePath path) := by
  by_cases hdeletable : zk.Deletable (normalizePath path)
  · refine ⟨?_, h.deleteNode_of_not_broken habsolute hdeletable⟩
    rintro htree ⟨-, hroot | ⟨other, htwins, hstored⟩⟩
    · exact not_deleteNode_root hdeletable hroot htree
    · by_cases hne : normalizePath path = ascii "/"
      · exact not_deleteNode_root hdeletable hne htree
      · exact h.not_deleteNode_twin habsolute hdeletable hne htwins hstored htree
  · rcases ZooKeeper.deleteNode_eq zk path with ⟨-, hnodes⟩ | ⟨hyes, -⟩
    · rw [hnodes]
      exact iff_of_true h fun hbroken => hdeletable hbroken.1
    · exact absurd hyes hdeletable

end ZnodeTree

/-! ## Runs -/

namespace ZnodeStore

/-- The store after a call. -/
def step (store : ZnodeStore) (call : ZnodeCall) : ZnodeStore := (store.call call).2

/-- The store after calls from the beginning. -/
def run (calls : List ZnodeCall) : ZnodeStore := calls.foldl step {}

/-- The call is a deletion that the tree does not survive. -/
def BreaksTree (store : ZnodeStore) : ZnodeCall → Prop
  | .create _ _ _ _ => False
  | .delete path => ZnodeTree.Broken store.nodes (normalizePath path)
  | .setData _ _ => False

lemma isAbsolute_actualPath (store : ZnodeStore) (path : Bytes) (sequence : Bool) :
    IsAbsolute (store.actualPath path sequence) := by
  rw [actualPath]
  split_ifs
  · exact (isAbsolute_normalizePath path).append _
  · exact isAbsolute_normalizePath path

lemma absolute_step (store : ZnodeStore) (call : ZnodeCall) (h : store.nodes.Absolute) :
    (store.step call).nodes.Absolute := by
  cases call with
  | create path data ephemeral sequence =>
      exact h.createAt (store.isAbsolute_actualPath path sequence) data ephemeral
  | delete path => exact h.deleteNode path
  | setData path data => exact h.setNodeData path data

lemma tree_step_iff (store : ZnodeStore) (call : ZnodeCall) (habsolute : store.nodes.Absolute)
    (h : ZnodeTree store.nodes) :
    ZnodeTree (store.step call).nodes ↔ ¬store.BreaksTree call := by
  cases call with
  | create path data ephemeral sequence =>
      exact iff_of_true (h.createAt (store.isAbsolute_actualPath path sequence) data ephemeral) id
  | delete path => exact h.deleteNode_iff habsolute path
  | setData path data => exact iff_of_true (h.setNodeData path data) id

/-- A call from a tree leaves every node in place that has a stored child. -/
lemma stored_step_of_child {store : ZnodeStore} (h : ZnodeTree store.nodes)
    (habsolute : store.nodes.Absolute) (call : ZnodeCall) {child : Bytes}
    (hchild : store.nodes.Stored child) (hparent : store.nodes.Stored (parentPath child)) :
    (store.step call).nodes.Stored (parentPath child) := by
  cases call with
  | create path data ephemeral sequence => exact hparent.createAt _ data ephemeral
  | delete path =>
      by_cases hdeletable : store.nodes.Deletable (normalizePath path)
      · have hne : child ≠ ascii "/" := by
          rintro rfl
          exact (habsolute _ hparent).ne_nil parentPath_root
        exact hparent.deleteNode (h.parentPath_ne_of_deletable hdeletable hne hchild)
      · rcases ZooKeeper.deleteNode_eq store.nodes path with ⟨-, hnodes⟩ | ⟨hyes, -⟩
        · have hsame : (store.step (.delete path)).nodes = store.nodes := hnodes
          rw [hsame]
          exact hparent
        · exact absurd hyes hdeletable
  | setData path data => exact hparent.setNodeData path data

lemma absolute_initial : ({} : ZnodeStore).nodes.Absolute := by
  have hempty : ZooKeeper.Absolute ∅ := by
    intro path hstored
    exact absurd hstored (by simp [ZooKeeper.Stored])
  exact hempty.insert (isAbsolute_cons []) {}

lemma absolute_run (calls : List ZnodeCall) : (run calls).nodes.Absolute := by
  induction calls using List.reverseRecOn with
  | nil => exact absolute_initial
  | append_singleton calls call ih =>
      rw [run, List.foldl_append]
      exact absolute_step _ call ih

/-- **What a run should keep**: the tree in every state, and every node with a stored child. -/
structure TreeKept (calls : List ZnodeCall) : Prop where
  tree : ∀ before, before <+: calls → ZnodeTree (run before).nodes
  parents : ∀ before call, before ++ [call] <+: calls → ∀ child, (run before).nodes.Stored child →
    (run before).nodes.Stored (parentPath child) →
      (run (before ++ [call])).nodes.Stored (parentPath child)

/-- **When the tree is kept**: exactly if no call of the run deletes the root or a twin. -/
theorem znode_tree_kept_iff (calls : List ZnodeCall) :
    TreeKept calls ↔ AlongRun step (fun store call => ¬store.BreaksTree call) {} calls := by
  rw [← forall_reached_iff (fun store => store.nodes.Absolute) (fun store => ZnodeTree store.nodes)
    absolute_step tree_step_iff absolute_initial znodeTree_initial]
  refine ⟨fun h => h.tree, fun htree => ⟨htree, ?_⟩⟩
  intro before call hprior child hchild hparent
  have hbefore : before <+: calls := (List.prefix_append before [call]).trans hprior
  rw [run, List.foldl_append]
  exact stored_step_of_child (htree before hbefore) (absolute_run before) call hchild hparent

/-- The nodes `/a` and `//a` are both listed as `a`: when `/a` is deleted, the root has a child that
it does not list, and can be deleted itself.  With no child at all it can be deleted at once. -/
theorem root_deleted_above_child :
    let create (path : String) : ZnodeCall := .create (ascii path) [] false false
    let calls := [create "/a", create "//a", .delete (ascii "/a")]
    ¬ZnodeTree (run calls).nodes ∧
      ((run (calls ++ [.delete (ascii "/")])).nodes.Stored (ascii "//a") ∧
        parentPath (ascii "//a") = ascii "/" ∧
        ¬(run (calls ++ [.delete (ascii "/")])).nodes.Stored (ascii "/")) ∧
      ¬ZnodeTree (run [.delete (ascii "/")]).nodes := by
  intro create calls
  refine ⟨?_, by decide +kernel, ?_⟩
  · intro h
    have hempty : (run calls).nodes[parentPath (ascii "//a")]?.map ZNode.children = some [] := by
      decide +kernel
    obtain ⟨node, hnode, hlisted⟩ := h.listed (ascii "//a") (by decide) (by decide +kernel)
    rw [hnode] at hempty
    rw [Option.some.inj hempty] at hlisted
    exact absurd hlisted List.not_mem_nil
  · intro h
    exact absurd h.root (by decide +kernel)

end ZnodeStore

end FileGrid
