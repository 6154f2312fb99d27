import FileGrid.Core.Map
import FileGrid.Core.Bytes

/-!
# Files

The part of a file system that a program sees which opens, writes, reads and removes regular files:
names lead to files, a file has a content, and removing a name leaves the file to whoever has it
open.  A file without a name never gets one again, and two names never lead to one file; a program
that makes no links cannot change that, and the two are part of the type.

What a program asks of it is `read?`, the content behind a name.  Each operation works on one name
or on the file behind it, and is invisible behind the others: `SameFile`, with one lemma for each
operation.  Who works on which name is a matter of the program; `Exclusive` is the discipline under
which these lemmas apply to everybody else.
-/

namespace FileGrid

/-- Names, files and their contents. -/
structure FileSystem where
  names : Map Bytes Nat := ∅
  contents : Map Nat Bytes := ∅
  /-- The files from this one on are unused. -/
  next : Nat := 0
  bound : ∀ {name : Bytes} {file : Nat}, names[name]? = some file → file < next
  injective : ∀ {name name' : Bytes} {file : Nat}, names[name]? = some file →
    names[name']? = some file → name = name'

/-- The bytes of a file after `data` was written at the offset. -/
def overwrite (old : Bytes) (offset : Nat) (data : Bytes) : Bytes :=
  old.take offset ++ List.replicate (offset - old.length) 0 ++ data ++
    old.drop (offset + data.length)

/-- Writing on where the last write ended. -/
lemma overwrite_take {data : Bytes} {written : Nat} (h : written ≤ data.length) (n : Nat) :
    overwrite (data.take written) written ((data.drop written).take n) =
      data.take (written + ((data.drop written).take n).length) := by
  have hlen : (data.take written).length = written := by simp [h]
  have hrest : (data.take written).drop (written + ((data.drop written).take n).length) = [] :=
    List.drop_eq_nil_of_le (by omega)
  rw [overwrite, hrest, hlen, Nat.sub_self, List.take_take, Nat.min_self, List.take_add]
  simp [List.take_eq_take_iff]

namespace FileSystem

lemma names_empty {name : Bytes} {file : Nat} {P : Prop}
    (h : (∅ : Map Bytes Nat)[name]? = some file) : P := by
  simp at h

/-- No file. -/
def empty : FileSystem where
  bound := names_empty
  injective := fun h => names_empty h

def content (fs : FileSystem) (file : Nat) : Bytes := (fs.contents[file]?).getD []

/-- The content behind a name. -/
def read? (fs : FileSystem) (name : Bytes) : Option Bytes := (fs.names[name]?).map fs.content

/-- The file that `open` with `O_CREAT` leads to. -/
def fileOf (fs : FileSystem) (name : Bytes) : Nat := (fs.names[name]?).getD fs.next

lemma fileOf_of_some {fs : FileSystem} {name : Bytes} {file : Nat}
    (h : fs.names[name]? = some file) : fs.fileOf name = file := by
  rw [fileOf, h, Option.getD_some]

lemma fileOf_of_none {fs : FileSystem} {name : Bytes} (h : fs.names[name]? = none) :
    fs.fileOf name = fs.next := by
  rw [fileOf, h, Option.getD_none]

/-- The file of a name is not the file of another. -/
lemma names_ne_fileOf {fs : FileSystem} {name name' : Bytes} (hne : name' ≠ name) :
    fs.names[name']? ≠ some (fs.fileOf name) := by
  intro h
  cases hname : fs.names[name]? with
  | some file =>
      rw [fileOf_of_some hname] at h
      exact hne (fs.injective h hname)
  | none =>
      rw [fileOf_of_none hname] at h
      exact absurd (fs.bound h) (lt_irrefl _)

lemma bound_create (fs : FileSystem) (name : Bytes) {name' : Bytes} {file : Nat}
    (h : (fs.names.insert name (fs.fileOf name))[name']? = some file) :
    file < max fs.next (fs.fileOf name + 1) := by
  rw [Map.get_insert] at h
  split_ifs at h with hname
  · cases h
    omega
  · have := fs.bound h
    omega

lemma injective_create (fs : FileSystem) (name : Bytes) {name₁ name₂ : Bytes} {file : Nat}
    (h₁ : (fs.names.insert name (fs.fileOf name))[name₁]? = some file)
    (h₂ : (fs.names.insert name (fs.fileOf name))[name₂]? = some file) : name₁ = name₂ := by
  rw [Map.get_insert] at h₁ h₂
  split_ifs at h₁ h₂ with hname₁ hname₂ hname₂
  · rw [hname₁, hname₂]
  · cases h₁
    exact absurd h₂ (names_ne_fileOf hname₂)
  · cases h₂
    exact absurd h₁ (names_ne_fileOf hname₁)
  · exact fs.injective h₁ h₂

/-- `open` with `O_CREAT | O_TRUNC`. -/
def create (fs : FileSystem) (name : Bytes) : FileSystem where
  names := fs.names.insert name (fs.fileOf name)
  contents := fs.contents.insert (fs.fileOf name) []
  next := max fs.next (fs.fileOf name + 1)
  bound := fs.bound_create name
  injective := fs.injective_create name

/-- `write` at an offset. -/
def writeAt (fs : FileSystem) (file offset : Nat) (data : Bytes) : FileSystem :=
  { fs with contents := fs.contents.insert file (overwrite (fs.content file) offset data) }

lemma bound_unlink (fs : FileSystem) (name : Bytes) {name' : Bytes} {file : Nat}
    (h : (fs.names.erase name)[name']? = some file) : file < fs.next := by
  rw [Map.get_erase] at h
  split_ifs at h
  exact fs.bound h

lemma injective_unlink (fs : FileSystem) (name : Bytes) {name₁ name₂ : Bytes} {file : Nat}
    (h₁ : (fs.names.erase name)[name₁]? = some file)
    (h₂ : (fs.names.erase name)[name₂]? = some file) : name₁ = name₂ := by
  rw [Map.get_erase] at h₁ h₂
  split_ifs at h₁ h₂
  exact fs.injective h₁ h₂

/-- `unlink`: the file stays for those who have it open. -/
def unlink (fs : FileSystem) (name : Bytes) : FileSystem where
  names := fs.names.erase name
  contents := fs.contents
  next := fs.next
  bound := fs.bound_unlink name
  injective := fs.injective_unlink name

/-! ## What the operations do -/

@[simp] lemma names_create (fs : FileSystem) (name name' : Bytes) :
    (fs.create name).names[name']? = if name' = name then some (fs.fileOf name)
      else fs.names[name']? :=
  Map.get_insert _ _ _ _

@[simp] lemma names_unlink (fs : FileSystem) (name name' : Bytes) :
    (fs.unlink name).names[name']? = if name' = name then none else fs.names[name']? :=
  Map.get_erase _ _ _

lemma names_create_eq {fs : FileSystem} {file : Nat} {own name : Bytes} (hfile : file < fs.next)
    (hown : ∀ name : Bytes, fs.names[name]? = some file → name = own) {name' : Bytes}
    (h : (fs.create name).names[name']? = some file) : name' = own := by
  rw [names_create] at h
  split_ifs at h with hname
  · have hof : fs.fileOf name = file := Option.some.inj h
    cases hnames : fs.names[name]? with
    | some file' =>
        rw [fileOf_of_some hnames] at hof
        rw [hname]
        exact hown name (hof ▸ hnames)
    | none =>
        rw [fileOf_of_none hnames] at hof
        omega
  · exact hown name' h

lemma content_create (fs : FileSystem) (name : Bytes) (file : Nat) :
    (fs.create name).content file = if file = fs.fileOf name then [] else fs.content file := by
  rw [content, create, Map.get_insert]
  split_ifs <;> rfl

lemma content_writeAt (fs : FileSystem) (file offset : Nat) (data : Bytes) (file' : Nat) :
    (fs.writeAt file offset data).content file' =
      if file' = file then overwrite (fs.content file) offset data else fs.content file' := by
  rw [content, writeAt, Map.get_insert]
  split_ifs <;> rfl

lemma read?_of_names {fs : FileSystem} {name : Bytes} {file : Nat}
    (h : fs.names[name]? = some file) : fs.read? name = some (fs.content file) := by
  rw [read?, h, Option.map_some]

/-! ## What they leave alone -/

/-- The name leads to the same file as before, with the same content. -/
structure SameFile (fs fs' : FileSystem) (name : Bytes) : Prop where
  names : fs'.names[name]? = fs.names[name]?
  content : ∀ {file : Nat}, fs.names[name]? = some file → fs'.content file = fs.content file

namespace SameFile

variable {fs fs' : FileSystem} {name : Bytes}

lemma refl (fs : FileSystem) (name : Bytes) : SameFile fs fs name := ⟨rfl, fun _ => rfl⟩

lemma read? (h : SameFile fs fs' name) : fs'.read? name = fs.read? name := by
  rw [FileSystem.read?, FileSystem.read?, h.names]
  exact Option.map_congr fun file hfile => h.content hfile

end SameFile

/-- **Creating a file** is invisible behind the other names. -/
theorem sameFile_create (fs : FileSystem) {name name' : Bytes} (hne : name' ≠ name) :
    SameFile fs (fs.create name) name' where
  names := by rw [names_create, if_neg hne]
  content := by
    intro file hfile
    rw [content_create, if_neg]
    rintro rfl
    exact names_ne_fileOf hne hfile

/-- **Writing a file** is invisible behind a name that does not lead to it. -/
theorem sameFile_writeAt_of_ne {fs : FileSystem} {name : Bytes} {file : Nat}
    (h : fs.names[name]? ≠ some file) (offset : Nat) (data : Bytes) :
    SameFile fs (fs.writeAt file offset data) name where
  names := rfl
  content := by
    intro file' hfile'
    rw [content_writeAt, if_neg]
    rintro rfl
    exact h hfile'

/-- **Writing a file** is invisible behind the other names. -/
theorem sameFile_writeAt {fs : FileSystem} {name name' : Bytes} {file : Nat}
    (h : fs.names[name]? = some file) (hne : name' ≠ name) (offset : Nat) (data : Bytes) :
    SameFile fs (fs.writeAt file offset data) name' :=
  sameFile_writeAt_of_ne (fun h' => hne (fs.injective h' h)) offset data

/-- **Removing a name** is invisible behind the others. -/
theorem sameFile_unlink (fs : FileSystem) {name name' : Bytes} (hne : name' ≠ name) :
    SameFile fs (fs.unlink name) name' where
  names := by rw [names_unlink, if_neg hne]
  content := fun _ => rfl

end FileSystem

/-! ## Who holds which name -/

section Holders

variable {H N : Type}

/-- No name is held twice. -/
def Exclusive (holds : H → Option N) : Prop :=
  ∀ ⦃h h' : H⦄ ⦃name : N⦄, holds h = some name → holds h' = some name → h = h'

/-- **Names may be given up and handed over**: each new holder had its name from one of the old
ones, no two from the same. -/
theorem Exclusive.of_injective {holds holds' : H → Option N} (h : Exclusive holds) {f : H → H}
    (hf : f.Injective) (hfrom : ∀ x name, holds' x = some name → holds (f x) = some name) :
    Exclusive holds' :=
  fun x x' name hx hx' => hf (h (hfrom x name hx) (hfrom x' name hx'))

/-- **A name that nobody holds may be taken.** -/
theorem Exclusive.take [DecidableEq H] {holds holds' : H → Option N} (h : Exclusive holds)
    {new : H} {name : N} (hfree : ∀ x, holds x ≠ some name)
    (hnew : ∀ x, holds' x = if x = new then some name else holds x) : Exclusive holds' := by
  intro x x' name' hx hx'
  rw [hnew] at hx hx'
  split_ifs at hx hx' with hxn hxn' hxn'
  · rw [hxn, hxn']
  · cases hx
    exact absurd hx' (hfree x')
  · cases hx'
    exact absurd hx (hfree x)
  · exact h hx hx'

end Holders

end FileGrid
