import FileGrid.Grid.Steps

/-!
# A request line and how it arrives

A TCP stream has no message boundaries: what the client sends in one piece may be returned by
several calls of `recv`, and what it sends in several pieces by one.  The connection thread calls
`recv` once for the request and takes what it gets for the whole of it.

* `Segmentation` — a way to cut a stream into the pieces that `recv` returns.
* `operation` — what the thread does with the first piece, and to which file.
* `RequestLine` — a verb, an argument, and a newline that comes before the buffer is full.

**`operation_segmentation_iff`** says for which cuts the thread does what it does when the line
arrives alone: for `DOWNLOAD` and `DELETE` the first piece has to hold the whole name and nothing
after it that is not trimmed away, for `UPLOAD` the words of the first piece have to name the same
file, for `LIST` the four letters are enough.  There is no request line for which every cut will do:
the first piece may be a single byte.

`delete_cut_short` is a cut that names another file.
-/

namespace FileGrid

/-! ## What the thread does -/

/-- What the head does for a client, and the file it does it to, but not what else an `UPLOAD` line
announces: uploads of one name are one operation, whatever their sizes, counts and hashes.  An
upload may be refused with a format error, or end the head on a number that is none. -/
inductive Operation
  | download (filename : Bytes)
  | delete (filename : Bytes)
  | upload (filename : Bytes)
  | refuse
  | abort
  | list
  | nothing
deriving DecidableEq

def Operation.ofParse : Except UploadEnd UploadRequest → Operation
  | .ok request => .upload request.filename
  | .error .crashed => .abort
  | .error _ => .refuse

/-- The operation that the thread performs on what its `recv` returned. -/
def operation (chunkSize : Nat) (received : Bytes) : Operation :=
  match clientRequest received with
  | .download filename => .download filename
  | .delete filename => .delete filename
  | .upload initialReq => .ofParse (parseUploadRequest chunkSize initialReq)
  | .list => .list
  | .unknown => .nothing

/-- The thread reads one piece; with none, the connection is closed. -/
def connectionThread (chunkSize : Nat) : List Bytes → Operation
  | [] => .nothing
  | first :: _ => operation chunkSize first

/-- The file an operation is about. -/
def Operation.file : Operation → Option Bytes
  | .download filename => some filename
  | .delete filename => some filename
  | .upload filename => some filename
  | _ => none

/-- The grid's steps act on the file that the operation names. -/
theorem actsOn_iff_operation (d : Deployment) (received f : Bytes) :
    ActsOn d received f ↔ (operation d.chunkSize received).file = some f := by
  unfold ActsOn operation
  cases clientRequest received with
  | upload initialReq =>
      dsimp only
      cases parseUploadRequest d.chunkSize initialReq with
      | ok request => simp [Operation.ofParse, Operation.file]
      | error e => cases e <;> simp [Operation.ofParse, Operation.file]
  | _ => simp [Operation.file]

/-! ## Streams and their pieces -/

/-- The pieces of a stream that successive calls of `recv` return.  No piece is empty, which would
mean the end of the stream, and the first one fits the buffer. -/
structure Segmentation (stream : Bytes) where
  first : Bytes
  later : List Bytes
  first_ne : first ≠ []
  later_ne : ∀ piece ∈ later, piece ≠ []
  fits : first.length ≤ 1023
  joined : first ++ later.flatten = stream

def Segmentation.pieces {stream : Bytes} (s : Segmentation stream) : List Bytes :=
  s.first :: s.later

inductive Verb
  | download
  | delete
  | upload
  | list
deriving DecidableEq

def Verb.text : Verb → Bytes
  | .download => ascii "DOWNLOAD "
  | .delete => ascii "DELETE "
  | .upload => ascii "UPLOAD "
  | .list => ascii "LIST"

/-- A request line, without its newline. -/
structure RequestLine where
  verb : Verb
  argument : Bytes
  one_line : (10 : UInt8) ∉ argument
  short : (verb.text ++ argument).length < 1023

namespace RequestLine

def stream (r : RequestLine) (rest : Bytes) : Bytes := r.verb.text ++ r.argument ++ 10 :: rest

/-- The line arrives alone, and all that follows it arrives later. -/
def alone (r : RequestLine) (rest : Bytes) : Segmentation (r.stream rest) where
  first := r.verb.text ++ r.argument ++ [10]
  later := if rest = [] then [] else [rest]
  first_ne := by simp
  later_ne := by
    intro piece hpiece
    split_ifs at hpiece with h
    · simp at hpiece
    · rw [List.mem_singleton] at hpiece
      rw [hpiece]
      exact h
  fits := by
    have := r.short
    simp only [List.length_append, List.length_singleton] at this ⊢
    omega
  joined := by
    split_ifs with h
    · simp [stream, h]
    · simp [stream]

end RequestLine

/-! ## What the thread sees -/

/-- The request that the thread has: what `recv` returned, up to the first NUL. -/
def visible (received : Bytes) : Bytes := (received.take 1023).takeWhile (· ≠ 0)

/-- The bytes trimmed from the name of a download and from an upload request. -/
def isEol (b : UInt8) : Bool := b = 10 ∨ b = 13

/-- The bytes trimmed from the name of a file to delete. -/
def isBlankOrEol (b : UInt8) : Bool := b = 32 ∨ b = 10 ∨ b = 13 ∨ b = 9

/-- A text that begins with the words of one verb does not begin with those of another. -/
lemma verb_unique {v v' : Verb} {s : Bytes} (h : v.text <+: s) (h' : v'.text <+: s) : v = v' := by
  have hcomparable := List.prefix_or_prefix_of_prefix h h'
  revert hcomparable
  cases v <;> cases v' <;> decide

/-- The words of an upload request after its verb, when the head can read its numbers. -/
def numeric (chunkSize : Nat) : List Bytes → Bool
  | [_, size, _] => ((stoull size).bind (legacyNumChunks chunkSize)).isSome
  | _ :: size :: chunks :: _ :: _ => (stoull size).isSome && (stoull chunks).isSome
  | _ => false

/-- The upload that a list of words asks for. -/
def uploadOperation (chunkSize : Nat) (args : List Bytes) : Operation :=
  if args.length < 3 then .refuse
  else if numeric chunkSize args then .upload (args.headD [])
  else .abort

lemma operation_parse (chunkSize : Nat) {initialReq : Bytes} {args : List Bytes}
    (h : words initialReq = ascii "UPLOAD" :: args) :
    .ofParse (parseUploadRequest chunkSize initialReq) = uploadOperation chunkSize args := by
  unfold parseUploadRequest uploadOperation
  rw [h]
  rcases args with _ | ⟨filename, _ | ⟨size, _ | ⟨third, _ | ⟨fileHash, more⟩⟩⟩⟩
  · rfl
  · rfl
  · rfl
  · cases hsize : stoull size with
    | none => simp [Operation.ofParse, numeric, hsize]
    | some n =>
        cases hchunks : legacyNumChunks chunkSize n <;>
          simp [Operation.ofParse, numeric, hsize, hchunks]
  · cases hsize : stoull size with
    | none => simp [Operation.ofParse, numeric, hsize]
    | some n =>
        cases hchunks : stoull third <;> simp [Operation.ofParse, numeric, hsize, hchunks]

lemma rdropWhile_append {p : UInt8 → Bool} (s : Bytes) {w : Bytes} (hw : ∀ b ∈ w, p b = true) :
    (s ++ w).rdropWhile p = s.rdropWhile p := by
  induction w using List.reverseRecOn with
  | nil => rw [List.append_nil]
  | append_singleton w b ih =>
      rw [← List.append_assoc, List.rdropWhile_concat_pos p _ _ (hw b (by simp))]
      exact ih fun c hc => hw c (by simp [hc])

lemma rdropWhile_eq_iff {p : UInt8 → Bool} {s t : Bytes} : s.rdropWhile p = t.rdropWhile p ↔
    ∃ w, s = t.rdropWhile p ++ w ∧ ∀ b ∈ w, p b = true := by
  constructor
  · intro h
    refine ⟨s.rtakeWhile p, ?_, fun b hb => List.mem_rtakeWhile_imp hb⟩
    rw [← h, List.rdropWhile_append_rtakeWhile]
  · rintro ⟨w, rfl, hw⟩
    rw [rdropWhile_append _ hw, List.rdropWhile_idempotent]

lemma words_rdropWhile_isEol (s : Bytes) : words (s.rdropWhile isEol) = words s := by
  obtain ⟨w, hs, hw⟩ := (rdropWhile_eq_iff (p := isEol) (s := s) (t := s)).mp rfl
  conv_rhs => rw [hs]
  refine (words_append_blank _ fun b hb => ?_).symm
  have hb' := hw b hb
  simp only [isEol, decide_eq_true_eq] at hb'
  rcases hb' with rfl | rfl <;> rfl

/-- What the thread does with a request of a verb, and what follows the verb. -/
def Verb.operation (chunkSize : Nat) : Verb → Bytes → Operation
  | .download, s => .download (s.rdropWhile isEol)
  | .delete, s => .delete (s.rdropWhile isBlankOrEol)
  | .upload, s => uploadOperation chunkSize (words s)
  | .list, _ => .list

lemma operation_of_verb (chunkSize : Nat) {received s : Bytes} (v : Verb)
    (h : visible received = v.text ++ s) :
    operation chunkSize received = v.operation chunkSize s := by
  have hv : v.text <+: visible received := ⟨s, h.symm⟩
  have hother : ∀ v', v' ≠ v → ¬ v'.text <+: visible received := fun v' hne h' =>
    hne (verb_unique h' hv)
  have hreq : clientRequest received =
      if Verb.download.text <+: visible received then
        .download (((visible received).drop 9).rdropWhile isEol)
      else if Verb.delete.text <+: visible received then
        .delete (((visible received).drop 7).rdropWhile isBlankOrEol)
      else if Verb.upload.text <+: visible received then
        .upload ((visible received).rdropWhile isEol)
      else if Verb.list.text <+: visible received then .list
      else .unknown := rfl
  rw [FileGrid.operation, hreq]
  cases v with
  | download => rw [if_pos hv, h]; rfl
  | delete => rw [if_neg (hother _ (by decide)), if_pos hv, h]; rfl
  | upload =>
      rw [if_neg (hother _ (by decide)), if_neg (hother _ (by decide)), if_pos hv]
      refine operation_parse chunkSize ?_
      rw [words_rdropWhile_isEol, h]
      exact words_append_space (w := ascii "UPLOAD") s (by decide) (by decide)
  | list =>
      rw [if_neg (hother _ (by decide)), if_neg (hother _ (by decide)),
        if_neg (hother _ (by decide)), if_pos hv]
      rfl

/-- Without a verb at its beginning, a request does nothing. -/
lemma operation_of_no_verb (chunkSize : Nat) {received : Bytes}
    (h : ∀ v : Verb, ¬ v.text <+: visible received) : operation chunkSize received = .nothing := by
  have hreq : clientRequest received = .unknown := by
    refine (if_neg (h .download)).trans ((if_neg (h .delete)).trans ((if_neg (h .upload)).trans ?_))
    exact if_neg (h .list)
  rw [operation, hreq]

/-! ## What has to arrive first -/

/-- The words `args'` of an upload request lead to the same as the words `args`: both are too few,
or both have their numbers and name the same file, or both end the head. -/
def SameUpload (chunkSize : Nat) (args args' : List Bytes) : Prop :=
  if args.length < 3 then args'.length < 3
  else if numeric chunkSize args then numeric chunkSize args' = true ∧ args'.head? = args.head?
  else 3 ≤ args'.length ∧ numeric chunkSize args' = false

/-- The argument of a request line as the thread sees it: up to the first NUL. -/
def RequestLine.seen (r : RequestLine) : Bytes := r.argument.takeWhile (· ≠ 0)

/-- The first piece is enough to tell what the line asks for. -/
def RequestLine.Told (chunkSize : Nat) (r : RequestLine) (first : Bytes) : Prop :=
  match r.verb with
  | .download => ∃ w, visible first = ascii "DOWNLOAD " ++ (r.seen.rdropWhile isEol ++ w) ∧
      ∀ b ∈ w, isEol b = true
  | .delete => ∃ w, visible first = ascii "DELETE " ++ (r.seen.rdropWhile isBlankOrEol ++ w) ∧
      ∀ b ∈ w, isBlankOrEol b = true
  | .upload => ∃ s, visible first = ascii "UPLOAD " ++ s ∧
      SameUpload chunkSize (words r.seen) (words s)
  | .list => ascii "LIST" <+: visible first

lemma length_of_numeric {chunkSize : Nat} {args : List Bytes} (h : numeric chunkSize args = true) :
    3 ≤ args.length := by
  rcases args with _ | ⟨filename, _ | ⟨size, _ | ⟨third, more⟩⟩⟩
  · simp [numeric] at h
  · simp [numeric] at h
  · simp [numeric] at h
  · simp

lemma uploadOperation_eq_iff {chunkSize : Nat} {args args' : List Bytes} :
    uploadOperation chunkSize args' = uploadOperation chunkSize args ↔
      SameUpload chunkSize args args' := by
  unfold uploadOperation SameUpload
  by_cases hfew : args.length < 3
  · by_cases hfew' : args'.length < 3
    · simp [hfew, hfew']
    · by_cases hnum' : numeric chunkSize args' = true <;> simp [hfew, hfew', hnum']
  · by_cases hnum : numeric chunkSize args = true
    · by_cases hnum' : numeric chunkSize args' = true
      · obtain ⟨a, as, rfl⟩ := List.exists_cons_of_length_pos
          (show 0 < args.length by have := length_of_numeric hnum; omega)
        obtain ⟨a', as', rfl⟩ := List.exists_cons_of_length_pos
          (show 0 < args'.length by have := length_of_numeric hnum'; omega)
        have hfew' := length_of_numeric hnum'
        simp only [List.length_cons] at hfew hfew'
        simp [hfew, hnum, hnum', show ¬ as'.length + 1 < 3 by omega]
      · by_cases hfew' : args'.length < 3 <;> simp [hfew, hfew', hnum, hnum']
    · by_cases hfew' : args'.length < 3
      · simp [hfew, hfew', hnum]
      · by_cases hnum' : numeric chunkSize args' = true <;>
          simp [hfew, hfew', hnum, hnum', Nat.le_of_not_lt hfew']

lemma uploadOperation_cases (chunkSize : Nat) (args : List Bytes) :
    uploadOperation chunkSize args = .refuse ∨ uploadOperation chunkSize args = .abort ∨
      ∃ f, uploadOperation chunkSize args = .upload f := by
  unfold uploadOperation
  split_ifs <;> simp

lemma verb_of_operation_eq {chunkSize : Nat} {v v' : Verb} {s s' : Bytes}
    (h : v'.operation chunkSize s' = v.operation chunkSize s) : v' = v := by
  cases v <;> cases v' <;> simp only [Verb.operation, reduceCtorEq] at h ⊢
  case upload.download | upload.delete | upload.list =>
    rcases uploadOperation_cases chunkSize (words s) with hu | hu | ⟨f, hu⟩ <;>
      simp [hu] at h
  case download.upload | delete.upload | list.upload =>
    rcases uploadOperation_cases chunkSize (words s') with hu | hu | ⟨f, hu⟩ <;>
      simp [hu] at h

lemma verb_operation_ne_nothing (chunkSize : Nat) (v : Verb) (s : Bytes) :
    v.operation chunkSize s ≠ .nothing := by
  cases v with
  | upload =>
      rcases uploadOperation_cases chunkSize (words s) with hu | hu | ⟨f, hu⟩ <;>
        simp [Verb.operation, hu]
  | _ => simp [Verb.operation]

/-- A request asks for an operation of a verb when it begins with that verb, and what follows asks
for the same. -/
lemma operation_eq_verb_iff {chunkSize : Nat} {received t : Bytes} {v : Verb} :
    operation chunkSize received = v.operation chunkSize t ↔
      ∃ s, visible received = v.text ++ s ∧
        v.operation chunkSize s = v.operation chunkSize t := by
  constructor
  · intro h
    by_cases hverb : ∃ v' : Verb, v'.text <+: visible received
    · obtain ⟨v', s, hs⟩ := hverb
      rw [operation_of_verb chunkSize v' hs.symm] at h
      obtain rfl := verb_of_operation_eq h
      exact ⟨s, hs.symm, h⟩
    · have hnothing := operation_of_no_verb chunkSize (not_exists.mp hverb)
      exact absurd (h.symm.trans hnothing) (verb_operation_ne_nothing chunkSize v t)
  · rintro ⟨s, hs, h⟩
    rw [operation_of_verb chunkSize v hs, h]

/-- The newline of a request line, where the thread sees it, changes nothing. -/
lemma verb_operation_newline (chunkSize : Nat) (v : Verb) (s : Bytes) :
    v.operation chunkSize ((s ++ [10]).takeWhile (· ≠ 0)) =
      v.operation chunkSize (s.takeWhile (· ≠ 0)) := by
  by_cases hnul : ∀ b ∈ s, b ≠ 0
  · have hs : s.takeWhile (· ≠ 0) = s := List.takeWhile_eq_self_iff.mpr (by simpa using hnul)
    have hline : (s ++ [10]).takeWhile (· ≠ 0) = s ++ [10] := by
      rw [List.takeWhile_append_of_pos (by simpa using hnul)]
      rfl
    rw [hs, hline]
    cases v with
    | download => exact congrArg Operation.download (rdropWhile_append s (by simp [isEol]))
    | delete => exact congrArg Operation.delete (rdropWhile_append s (by simp [isBlankOrEol]))
    | upload => rw [Verb.operation, Verb.operation, words_append_blank s (by simp [isSpace])]
    | list => rfl
  · have hlen : (s.takeWhile (· ≠ 0)).length ≠ s.length := by
      intro hlen
      have hself := (List.takeWhile_prefix fun b : UInt8 => decide (b ≠ 0)).eq_of_length hlen
      exact hnul (by simpa using List.takeWhile_eq_self_iff.mp hself)
    rw [List.takeWhile_append, if_neg hlen]

/-- The line alone asks for what its argument says, as far as it can be seen. -/
lemma operation_line (chunkSize : Nat) (r : RequestLine) :
    operation chunkSize (r.verb.text ++ r.argument ++ [10]) =
      r.verb.operation chunkSize r.seen := by
  have hlen : (r.verb.text ++ r.argument ++ [10]).length ≤ 1023 := by
    have := r.short
    rw [List.length_append, List.length_singleton]
    omega
  have hverb : ∀ b ∈ r.verb.text, decide (b ≠ 0) = true := by
    cases r.verb <;> simp [Verb.text, ascii]
  have hvisible : visible (r.verb.text ++ r.argument ++ [10]) =
      r.verb.text ++ (r.argument ++ [10]).takeWhile (· ≠ 0) := by
    rw [visible, List.take_of_length_le hlen, List.append_assoc,
      List.takeWhile_append_of_pos hverb]
  rw [operation_of_verb chunkSize r.verb hvisible, verb_operation_newline, RequestLine.seen]

/-- **Which cuts are harmless.**  Of all the ways in which a request may arrive, the thread performs
the operation it performs for the line alone, on the same file, in exactly those whose first piece
tells what the line asks for. -/
theorem operation_segmentation_iff (chunkSize : Nat) (r : RequestLine) (rest : Bytes)
    (s : Segmentation (r.stream rest)) :
    connectionThread chunkSize s.pieces = connectionThread chunkSize (r.alone rest).pieces ↔
      r.Told chunkSize s.first := by
  have hiff : connectionThread chunkSize s.pieces =
        connectionThread chunkSize (r.alone rest).pieces ↔
      ∃ t, visible s.first = r.verb.text ++ t ∧
        r.verb.operation chunkSize t = r.verb.operation chunkSize r.seen := by
    rw [← operation_eq_verb_iff, ← operation_line]
    rfl
  rw [hiff]
  obtain ⟨verb, argument, one_line, short⟩ := r
  cases verb with
  | download =>
      simp only [RequestLine.Told, Verb.operation, Operation.download.injEq, rdropWhile_eq_iff]
      constructor
      · rintro ⟨t, ht, w, rfl, hw⟩
        exact ⟨w, ht, hw⟩
      · rintro ⟨w, ht, hw⟩
        exact ⟨_, ht, w, rfl, hw⟩
  | delete =>
      simp only [RequestLine.Told, Verb.operation, Operation.delete.injEq, rdropWhile_eq_iff]
      constructor
      · rintro ⟨t, ht, w, rfl, hw⟩
        exact ⟨w, ht, hw⟩
      · rintro ⟨w, ht, hw⟩
        exact ⟨_, ht, w, rfl, hw⟩
  | upload =>
      simp only [RequestLine.Told, Verb.operation, uploadOperation_eq_iff]
      rfl
  | list =>
      simp only [RequestLine.Told, Verb.operation, and_true]
      exact ⟨fun ⟨t, ht⟩ => ⟨t, ht.symm⟩, fun ⟨t, ht⟩ => ⟨t, ht.symm⟩⟩

/-! ## A name cut short -/

/-- The request to delete a backup. -/
def deleteBackup : RequestLine where
  verb := .delete
  argument := ascii "notes.txt.old"
  one_line := by decide
  short := by decide

/-- The request arrives in two pieces, the first of which ends within the name. -/
def withinName : Segmentation (deleteBackup.stream []) where
  first := ascii "DELETE notes.txt"
  later := [ascii ".old\n"]
  first_ne := by decide
  later_ne := by decide
  fits := by decide
  joined := by decide

/-- The head is asked to delete a backup and deletes the file itself. -/
theorem delete_cut_short :
    connectionThread 4 (deleteBackup.alone []).pieces = .delete (ascii "notes.txt.old") ∧
      connectionThread 4 withinName.pieces = .delete (ascii "notes.txt") := by
  decide +kernel

end FileGrid
