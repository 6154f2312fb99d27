import FileGrid.Common.ConfigLoader

/-!
# What the configuration parser makes of a document

A well-formed document is a tree with a layout: `JsonValue`, `JsonMembers` and `JsonElements` are
the values, the members of an object and the elements of an array, with the white space between
their tokens.  What a tree must be to be well formed is part of its types: keys are not empty
(`Key`), numbers and literals are words of their alphabet (`Scalar`), and white space is white space
(`Ws`).

* `text` writes a tree, `leaves` lists its leaves with their paths, in the order of the document.
* `Parses` says what the parser returns whenever it has fuel enough, and its lemmas are one for each
  kind of token, so that nothing below is about fuel.
* The induction is along the tree, with one theorem for each of the three types.  A value is read up
  to the byte after it (`JsonValue.parses`); members and elements are read up to the closing bracket
  (`JsonMembers.parses`, `JsonElements.parses`).

**`parseJson_document`**: every document is read as its leaves, of two with one path the later one.
-/

namespace FileGrid

/-! ## Documents -/

/-- White space between tokens. -/
abbrev Ws := { w : Bytes // ∀ b ∈ w, isJsonSpace b = true }

/-- A key is not empty. -/
abbrev Key := { k : Bytes // k ≠ [] }

/-- The bytes of numbers and literals: letters, digits, `+`, `-` and `.`. -/
def isScalarByte (b : UInt8) : Bool :=
  isDigit b || (65 ≤ b.toNat && b.toNat ≤ 90) || (97 ≤ b.toNat && b.toNat ≤ 122) ||
    b == 43 || b == 45 || b == 46

/-- A number, `true`, `false` or `null`, as it is written. -/
abbrev Scalar := { t : Bytes // t ≠ [] ∧ ∀ b ∈ t, isScalarByte b = true }

mutual

/-- A value. -/
inductive JsonValue
  | string (value : Bytes)
  | scalar (text : Scalar)
  | object (inner : Ws) (members : JsonMembers)
  | array (inner : Ws) (elements : JsonElements)

/-- The members of an object. -/
inductive JsonMembers
  | nil
  | cons (before : Ws) (key : Key) (beforeColon afterColon : Ws) (value : JsonValue) (after : Ws)
      (rest : JsonMembers)

/-- The elements of an array. -/
inductive JsonElements
  | nil
  | cons (before : Ws) (value : JsonValue) (after : Ws) (rest : JsonElements)

end

/-- A quote and a backslash are escaped. -/
def escapeByte (b : UInt8) : Bytes := if b = 34 ∨ b = 92 then [92, b] else [b]

/-- A string as it is written. -/
def quote (s : Bytes) : Bytes := 34 :: (s.flatMap escapeByte ++ [34])

/-- The comma before every member or element but the first. -/
def separator (first : Bool) : Bytes := if first then [] else [44]

mutual

def JsonValue.text : JsonValue → Bytes
  | .string value => quote value
  | .scalar text => text.1
  | .object inner members => 123 :: (inner.1 ++ (members.text true ++ [125]))
  | .array inner elements => 91 :: (inner.1 ++ (elements.text true ++ [93]))

def JsonMembers.text : JsonMembers → Bool → Bytes
  | .nil, _ => []
  | .cons before key beforeColon afterColon value after rest, first =>
      separator first ++ (before.1 ++ (quote key.1 ++ (beforeColon.1 ++ 58 ::
        (afterColon.1 ++ (value.text ++ (after.1 ++ rest.text false))))))

def JsonElements.text : JsonElements → Bool → Bytes
  | .nil, _ => []
  | .cons before value after rest, first =>
      separator first ++ (before.1 ++ (value.text ++ (after.1 ++ rest.text false)))

end

/-- The dotted path of a value. -/
def dotted (path : List Bytes) : Bytes := [46].intercalate path

mutual

/-- The leaves below a path, with their paths and texts. -/
def JsonValue.leaves : JsonValue → List Bytes → List (Bytes × Bytes)
  | .string value, path => [(dotted path, value)]
  | .scalar text, path => [(dotted path, text.1)]
  | .object _ members, path => members.leaves path
  | .array _ elements, path => elements.leaves path 0

def JsonMembers.leaves : JsonMembers → List Bytes → List (Bytes × Bytes)
  | .nil, _ => []
  | .cons _ key _ _ value _ rest, path => value.leaves (path ++ [key.1]) ++ rest.leaves path

def JsonElements.leaves : JsonElements → List Bytes → Nat → List (Bytes × Bytes)
  | .nil, _, _ => []
  | .cons _ value _ rest, path, index =>
      value.leaves (path ++ [natDec index]) ++ rest.leaves path (index + 1)

end

/-- A document: an object, with white space around it. -/
structure JsonDocument where
  before : Ws
  inner : Ws
  members : JsonMembers
  after : Ws

def JsonDocument.text (doc : JsonDocument) : Bytes :=
  doc.before.1 ++ ((JsonValue.object doc.inner doc.members).text ++ doc.after.1)

def JsonDocument.leaves (doc : JsonDocument) : List (Bytes × Bytes) := doc.members.leaves []

/-! ## Paths -/

lemma dotted_nil : dotted [] = [] := rfl

lemma dotted_concat {path : List Bytes} (hne : path ≠ []) (k : Bytes) :
    dotted (path ++ [k]) = dotted path ++ ascii "." ++ k := by
  induction path with
  | nil => exact absurd rfl hne
  | cons p path ih =>
      cases path with
      | nil => simp [dotted, List.intercalate, ascii]
      | cons q path =>
          have hrest := ih (by simp)
          simp only [dotted, List.intercalate, List.cons_append, List.intersperse_cons_cons,
            List.flatten_cons] at hrest ⊢
          rw [hrest]
          simp

/-- A path has components that are not empty. -/
def ProperPath (path : List Bytes) : Prop := ∀ k ∈ path, k ≠ []

lemma ProperPath.concat {path : List Bytes} (h : ProperPath path) {k : Bytes} (hk : k ≠ []) :
    ProperPath (path ++ [k]) := by
  intro k' hk'
  rcases List.mem_append.mp hk' with hk' | hk'
  · exact h k' hk'
  · rw [List.mem_singleton.mp hk']
    exact hk

lemma ProperPath.dotted_ne_nil {path : List Bytes} (h : ProperPath path) (hne : path ≠ []) :
    dotted path ≠ [] := by
  cases path with
  | nil => exact absurd rfl hne
  | cons p path =>
      have hp : p ≠ [] := h p List.mem_cons_self
      cases path with
      | nil => simpa [dotted, List.intercalate] using hp
      | cons q path => simp [dotted, List.intercalate, hp]

lemma key_object {path : List Bytes} (h : ProperPath path) (k : Bytes) :
    (Level.object (dotted path)).key k = dotted (path ++ [k]) := by
  rw [Level.key]
  by_cases hne : path = []
  · rw [hne]
    simp [dotted, List.intercalate]
  · rw [if_neg (h.dotted_ne_nil hne), dotted_concat hne]

lemma key_array {path : List Bytes} (hne : path ≠ []) (index : Nat) (k : Bytes) :
    (Level.array (dotted path) index).key k = dotted (path ++ [natDec index]) := by
  rw [Level.key, dotted_concat hne]

/-! ## Tokens -/

lemma skipWs_append (w : Ws) (s : Bytes) : skipWs (w.1 ++ s) = skipWs s := by
  rw [skipWs, List.dropWhile_append_of_pos w.2, skipWs]

lemma skipWs_of_head {c : UInt8} (s : Bytes) (hc : isJsonSpace c = false) :
    skipWs (c :: s) = c :: s := by
  rw [skipWs, List.dropWhile_cons_of_neg (by simp [hc])]

/-- The parser does not see white space before a token. -/
lemma token_append_ws (bracket : Bracket) (w : Ws) (s : Bytes) :
    bracket.token (w.1 ++ s) = bracket.token s := by
  cases bracket with
  | object => simp only [Bracket.token, objectToken, skipWs_append]
  | array => simp only [Bracket.token, arrayToken, skipWs_append]

lemma stringBody_quote (s : Bytes) : stringBody (34 :: s) = ([], s) := by
  cases s with
  | nil => rfl
  | cons d s => rw [stringBody, if_pos rfl]

lemma stringBody_plain {c : UInt8} (s : Bytes) (hquote : c ≠ 34) (hslash : c ≠ 92) :
    stringBody (c :: s) = (c :: (stringBody s).1, (stringBody s).2) := by
  cases s with
  | nil => simp [stringBody, hquote]
  | cons d s => rw [stringBody, if_neg hquote, if_neg hslash]

lemma stringBody_escaped (d : UInt8) (s : Bytes) :
    stringBody (92 :: d :: s) = (d :: (stringBody s).1, (stringBody s).2) := by
  rw [stringBody, if_neg (by decide), if_pos rfl]

/-- **A string that was written is read back.** -/
lemma parseStringToken_quote (s rest : Bytes) : parseStringToken (quote s ++ rest) = (s, rest) := by
  rw [quote, List.cons_append, List.append_assoc, parseStringToken, if_pos rfl]
  induction s with
  | nil => exact stringBody_quote rest
  | cons b s ih =>
      rw [List.flatMap_cons, escapeByte, List.append_assoc]
      split_ifs with hb
      · rw [List.cons_append, List.cons_append, List.nil_append, stringBody_escaped, ih]
      · rw [not_or] at hb
        rw [List.cons_append, List.nil_append, stringBody_plain _ hb.1 hb.2, ih]

/-- What stands behind a value: a comma or a closing bracket. -/
def IsCloser (b : UInt8) : Prop := b = 44 ∨ b = 125 ∨ b = 93

lemma isDelimiter_closer {b : UInt8} (h : IsCloser b) : isDelimiter b = true := by
  rcases h with rfl | rfl | rfl
  · decide
  · decide
  · decide

/-- The byte of a number or a literal is neither white space nor any of the bytes the parser looks
for. -/
lemma isScalarByte_ne {b c : UInt8} (h : isScalarByte b = true) (hc : isScalarByte c = false) :
    b ≠ c := by
  rintro rfl
  rw [h] at hc
  exact Bool.noConfusion hc

lemma isJsonSpace_scalar {b : UInt8} (h : isScalarByte b = true) : isJsonSpace b = false := by
  rw [isJsonSpace, decide_eq_false_iff_not, not_or, not_or, not_or]
  exact ⟨isScalarByte_ne h (by decide), isScalarByte_ne h (by decide),
    isScalarByte_ne h (by decide), isScalarByte_ne h (by decide)⟩

lemma isDelimiter_scalar {b : UInt8} (h : isScalarByte b = true) : isDelimiter b = false := by
  rw [isDelimiter, decide_eq_false_iff_not, not_or, not_or, not_or, not_or]
  exact ⟨isScalarByte_ne h (by decide), isScalarByte_ne h (by decide),
    isScalarByte_ne h (by decide), isScalarByte_ne h (by decide), isScalarByte_ne h (by decide)⟩

/-- Trimming takes the white space behind a word, and nothing of the word. -/
lemma trim_append {t w : Bytes} (ht : ∀ b ∈ t, isJsonSpace b = false)
    (hw : ∀ b ∈ w, isJsonSpace b = true) : trim (t ++ w) = t := by
  have hword : ∀ {u : Bytes}, (∀ b ∈ u, isJsonSpace b = false) → u.dropWhile isJsonSpace = u := by
    intro u hu
    cases u with
    | nil => rfl
    | cons b u => rw [List.dropWhile_cons_of_neg (by simp [hu b List.mem_cons_self])]
  have hrev : (w.reverse ++ t.reverse).dropWhile isJsonSpace = t.reverse := by
    rw [List.dropWhile_append_of_pos (fun b hb => hw b (List.mem_reverse.mp hb)),
      hword (fun b hb => ht b (List.mem_reverse.mp hb))]
  rw [trim]
  cases t with
  | nil =>
      have hnil : w.dropWhile isJsonSpace = [] := List.dropWhile_eq_nil_iff.mpr hw
      rw [List.nil_append, hnil]
      rfl
  | cons b t =>
      rw [List.cons_append, List.dropWhile_cons_of_neg (by simp [ht b List.mem_cons_self]),
        ← List.cons_append, List.reverse_append, hrev, List.reverse_reverse]

/-- The token ends where its first delimiter is, before or behind the white space. -/
lemma takeWhile_append_delimiter (w : Bytes) {d : UInt8} (hd : isDelimiter d = true)
    (more : Bytes) :
    (w ++ d :: more).takeWhile (! isDelimiter ·) = w.takeWhile (! isDelimiter ·) ∧
      (w ++ d :: more).dropWhile (! isDelimiter ·) =
        w.dropWhile (! isDelimiter ·) ++ d :: more := by
  induction w with
  | nil => simp [hd]
  | cons b w ih =>
      by_cases hb : isDelimiter b = true
      · simp [hb]
      · simp [hb, ih]

/-- **A scalar is read up to the byte behind it**, but for some white space. -/
lemma parseValueToken_scalar (t : Scalar) (after : Ws) {d : UInt8} (hd : IsCloser d)
    (more : Bytes) :
    ∃ w : Ws, parseValueToken (t.1 ++ (after.1 ++ d :: more)) = (t.1, w.1 ++ d :: more) := by
  have hword : ∀ b ∈ t.1, (! isDelimiter b) = true := by
    intro b hb
    rw [isDelimiter_scalar (t.2.2 b hb)]
    rfl
  obtain ⟨htake, hdrop⟩ := takeWhile_append_delimiter after.1 (isDelimiter_closer hd) more
  have hspaces : ∀ b ∈ after.1.takeWhile (! isDelimiter ·), isJsonSpace b = true :=
    fun b hb => after.2 b (List.takeWhile_subset _ hb)
  refine ⟨⟨after.1.dropWhile (! isDelimiter ·), fun b hb =>
    after.2 b ((List.dropWhile_suffix _).subset hb)⟩, ?_⟩
  rw [parseValueToken, List.takeWhile_append_of_pos hword, List.dropWhile_append_of_pos hword,
    htake, hdrop, trim_append (fun b hb => isJsonSpace_scalar (t.2.2 b hb)) hspaces]

lemma stripComment_scalar (t : Scalar) : stripComment t.1 = t.1 := by
  have hnone : find (ascii "//") t.1 = none := by
    rw [← Option.not_isSome_iff_eq_none, isSome_find]
    intro hcomment
    have hmem : (47 : UInt8) ∈ t.1 := hcomment.subset (by decide)
    exact isScalarByte_ne (t.2.2 47 hmem) (by decide) rfl
  rw [stripComment, hnone]

/-! ## What the loops return -/

/-- What the loop returns whenever it has fuel enough. -/
def Parses (level : Level) (s : Bytes) (values : Config) (rest : Bytes) (result : Config) : Prop :=
  ∃ n, ∀ fuel, n ≤ fuel → parseLevel fuel level s values = some (rest, result)

namespace Parses

variable {level : Level} {s rest rest' key value : Bytes} {values values' result : Config}

lemma step {n : Nat} {r : Bytes × Config}
    (h : ∀ fuel, n ≤ fuel → parseLevel (fuel + 1) level s values = some r) :
    Parses level s values r.1 r.2 := by
  refine ⟨n + 1, ?_⟩
  intro fuel hfuel
  obtain ⟨fuel, rfl⟩ := Nat.exists_eq_add_of_le' (Nat.le_of_add_left_le hfuel)
  exact h fuel (Nat.le_of_succ_le_succ hfuel)

lemma finish (htoken : level.bracket.token s = .finish rest) :
    Parses level s values rest values := by
  refine step (n := 0) (r := (rest, values)) ?_
  intro fuel _
  rw [parseLevel, htoken]

lemma skip (htoken : level.bracket.token s = .skip rest')
    (h : Parses level rest' values rest result) : Parses level s values rest result := by
  obtain ⟨n, h⟩ := h
  refine step (n := n) (r := (rest, result)) ?_
  intro fuel hfuel
  rw [parseLevel, htoken]
  exact h fuel hfuel

lemma text (htoken : level.bracket.token s = .text key value rest')
    (h : Parses level.after rest' (values.insert (level.key key) value) rest result) :
    Parses level s values rest result := by
  obtain ⟨n, h⟩ := h
  refine step (n := n) (r := (rest, result)) ?_
  intro fuel hfuel
  rw [parseLevel, htoken]
  exact h fuel hfuel

lemma nested {inner : Bracket} {more : Bytes}
    (htoken : level.bracket.token s = .nested inner key rest')
    (hinner : Parses (.opened inner (level.key key)) rest' values more values')
    (h : Parses level.after more values' rest result) : Parses level s values rest result := by
  obtain ⟨m, hinner⟩ := hinner
  obtain ⟨n, h⟩ := h
  refine step (n := max m n) (r := (rest, result)) ?_
  intro fuel hfuel
  rw [parseLevel, htoken]
  dsimp only
  rw [hinner fuel (le_trans (le_max_left m n) hfuel), Option.bind_some]
  exact h fuel (le_trans (le_max_right m n) hfuel)

/-- White space before the loop makes no difference. -/
lemma append_ws (w : Ws) (h : Parses level s values rest result) :
    Parses level (w.1 ++ s) values rest result := by
  obtain ⟨n, h⟩ := h
  refine ⟨n, ?_⟩
  intro fuel hfuel
  rw [← h fuel hfuel]
  cases fuel with
  | zero => rfl
  | succ fuel => rw [parseLevel, parseLevel, token_append_ws]

end Parses

/-! ## Reading a tree -/

/-- The values with these leaves stored, one after the other. -/
def Config.store (values : Config) (leaves : List (Bytes × Bytes)) : Config :=
  leaves.foldl (fun values leaf => values.insert leaf.1 leaf.2) values

lemma Config.store_append (values : Config) (leaves leaves' : List (Bytes × Bytes)) :
    values.store (leaves ++ leaves') = (values.store leaves).store leaves' :=
  List.foldl_append

/-- The first byte of a value: neither white space nor a closer. -/
lemma JsonValue.text_head (value : JsonValue) :
    ∃ c t, value.text = c :: t ∧ isJsonSpace c = false ∧ c ≠ 93 ∧ c ≠ 44 := by
  cases value with
  | string s => exact ⟨34, _, rfl, by decide, by decide, by decide⟩
  | scalar t =>
      obtain ⟨b, t', ht⟩ := List.exists_cons_of_ne_nil t.2.1
      have hb : isScalarByte b = true := t.2.2 b (ht ▸ List.mem_cons_self)
      exact ⟨b, t', ht, isJsonSpace_scalar hb, isScalarByte_ne hb (by decide),
        isScalarByte_ne hb (by decide)⟩
  | object inner members => exact ⟨123, _, rfl, by decide, by decide, by decide⟩
  | array inner elements => exact ⟨91, _, rfl, by decide, by decide, by decide⟩

lemma objectToken_member (before : Ws) (key : Key) (beforeColon afterColon : Ws)
    (value : JsonValue) (rest : Bytes) :
    objectToken (before.1 ++ (quote key.1 ++ (beforeColon.1 ++ 58 ::
        (afterColon.1 ++ (value.text ++ rest))))) =
      valueAt stripComment key.1 (value.text ++ rest) := by
  obtain ⟨c, t, hvalue, hspace, -, -⟩ := value.text_head
  have hread := parseStringToken_quote key.1
    (beforeColon.1 ++ 58 :: (afterColon.1 ++ (value.text ++ rest)))
  have hkey : ∃ t, quote key.1 = 34 :: t := ⟨_, rfl⟩
  obtain ⟨t', hkey⟩ := hkey
  rw [hkey, List.cons_append] at hread
  rw [objectToken, skipWs_append, hkey, List.cons_append, skipWs_of_head _ (by decide)]
  dsimp only
  rw [if_neg (by decide), if_neg (by decide), hread]
  dsimp only
  rw [if_neg key.2, skipWs_append, skipWs_of_head _ (by decide), skipColon, if_pos rfl,
    skipWs_append, hvalue, List.cons_append, skipWs_of_head _ hspace]

lemma arrayToken_element (before : Ws) (value : JsonValue) (rest : Bytes) :
    arrayToken (before.1 ++ (value.text ++ rest)) = valueAt id [] (value.text ++ rest) := by
  obtain ⟨c, t, hvalue, hspace, hclose, hcomma⟩ := value.text_head
  rw [arrayToken, skipWs_append, hvalue, List.cons_append, skipWs_of_head _ hspace]
  dsimp only
  rw [if_neg hclose, if_neg hcomma]

lemma valueAt_string (strip : Bytes → Bytes) (key s rest : Bytes) :
    valueAt strip key (quote s ++ rest) = .text key s rest := by
  have hread := parseStringToken_quote s rest
  rw [quote, List.cons_append] at hread ⊢
  rw [valueAt, if_neg (by decide), if_neg (by decide), if_pos rfl, hread]

lemma valueAt_scalar {strip : Bytes → Bytes} (hstrip : ∀ t : Scalar, strip t.1 = t.1) (key : Bytes)
    (t : Scalar) (after : Ws) {d : UInt8} (hd : IsCloser d) (more : Bytes) :
    ∃ w : Ws, valueAt strip key (t.1 ++ (after.1 ++ d :: more)) =
      .text key t.1 (w.1 ++ d :: more) := by
  obtain ⟨w, hread⟩ := parseValueToken_scalar t after hd more
  refine ⟨w, ?_⟩
  obtain ⟨b, t', ht⟩ := List.exists_cons_of_ne_nil t.2.1
  have hb : isScalarByte b = true := t.2.2 b (ht ▸ List.mem_cons_self)
  have hne : ∀ {c : UInt8}, isScalarByte c = false → b ≠ c := fun hc => isScalarByte_ne hb hc
  have hcons : t.1 ++ (after.1 ++ d :: more) = b :: (t' ++ (after.1 ++ d :: more)) := by
    rw [ht, List.cons_append]
  rw [hcons] at hread ⊢
  rw [valueAt, if_neg (hne (by decide)), if_neg (hne (by decide)), if_neg (hne (by decide)),
    hread, hstrip]

/-- Members and elements end with the byte behind them, or with the comma before the next. -/
lemma JsonMembers.text_closer (members : JsonMembers) {d : UInt8} (hd : IsCloser d)
    (more : Bytes) : ∃ d' more', members.text false ++ d :: more = d' :: more' ∧ IsCloser d' := by
  cases members with
  | nil => exact ⟨d, more, rfl, hd⟩
  | cons before key beforeColon afterColon value after rest => exact ⟨44, _, rfl, Or.inl rfl⟩

lemma JsonElements.text_closer (elements : JsonElements) {d : UInt8} (hd : IsCloser d)
    (more : Bytes) : ∃ d' more', elements.text false ++ d :: more = d' :: more' ∧ IsCloser d' := by
  cases elements with
  | nil => exact ⟨d, more, rfl, hd⟩
  | cons before value after rest => exact ⟨44, _, rfl, Or.inl rfl⟩

/-- The comma before a member or an element is skipped. -/
lemma Parses.separator {level : Level} {s rest : Bytes} {values result : Config} (first : Bool)
    (h : Parses level s values rest result) :
    Parses level (separator first ++ s) values rest result := by
  cases first with
  | true => exact h
  | false =>
      have hcomma : level.bracket.token (44 :: s) = .skip s := by
        cases level with
        | object path => rfl
        | array path index => rfl
      exact Parses.skip hcomma h

mutual

/-- A value is read up to the byte behind it: its leaves are stored, and the loop goes on. -/
theorem JsonValue.parses (v : JsonValue) {level : Level} {strip : Bytes → Bytes}
    {key s more rest : Bytes} {path : List Bytes} {after : Ws} {d : UInt8} {values result : Config}
    (htoken : level.bracket.token s = valueAt strip key (v.text ++ (after.1 ++ d :: more)))
    (hstrip : ∀ t : Scalar, strip t.1 = t.1) (hd : IsCloser d)
    (hkey : level.key key = dotted path) (hproper : ProperPath path) (hne : path ≠ [])
    (h : Parses level.after (d :: more) (values.store (v.leaves path)) rest result) :
    Parses level s values rest result := by
  cases v with
  | string value =>
      rw [JsonValue.text, valueAt_string] at htoken
      refine Parses.text htoken ?_
      rw [hkey]
      exact h.append_ws after
  | scalar t =>
      -- the token may end before the white space or behind it
      obtain ⟨w, hread⟩ := valueAt_scalar hstrip key t after hd more
      rw [JsonValue.text, hread] at htoken
      refine Parses.text htoken ?_
      rw [hkey]
      exact h.append_ws w
  | object inner members =>
      have hopen : level.bracket.token s = .nested .object key
          (inner.1 ++ (members.text true ++ 125 :: (after.1 ++ d :: more))) := by
        rw [htoken]
        simp [JsonValue.text, valueAt]
      refine Parses.nested hopen ?_ (h.append_ws after)
      rw [hkey]
      exact (members.parses hproper).append_ws inner
  | array inner elements =>
      have hopen : level.bracket.token s = .nested .array key
          (inner.1 ++ (elements.text true ++ 93 :: (after.1 ++ d :: more))) := by
        rw [htoken]
        simp [JsonValue.text, valueAt]
      refine Parses.nested hopen ?_ (h.append_ws after)
      rw [hkey]
      exact (elements.parses hproper hne).append_ws inner

/-- The members of an object are read up to its closing brace. -/
theorem JsonMembers.parses (members : JsonMembers) {path : List Bytes} {first : Bool}
    {more : Bytes} {values : Config} (hproper : ProperPath path) :
    Parses (.object (dotted path)) (members.text first ++ 125 :: more) values more
      (values.store (members.leaves path)) := by
  cases members with
  | nil => exact Parses.finish rfl
  | cons before key beforeColon afterColon value after rest =>
      -- behind the value comes the comma of the next member or the closing brace
      obtain ⟨d, more', hrest, hd⟩ := rest.text_closer (Or.inr (Or.inl rfl) : IsCloser 125) more
      have htail : Parses (.object (dotted path)) (d :: more')
          (values.store (value.leaves (path ++ [key.1]))) more
          (values.store ((JsonMembers.cons before key beforeColon afterColon value after
            rest).leaves path)) := by
        rw [JsonMembers.leaves, Config.store_append, ← hrest]
        exact rest.parses hproper
      rw [JsonMembers.text]
      simp only [List.append_assoc, List.cons_append]
      rw [hrest]
      refine Parses.separator first ?_
      exact value.parses (objectToken_member before key beforeColon afterColon value _)
        stripComment_scalar hd (key_object hproper key.1) (hproper.concat key.2) (by simp) htail

/-- The elements of an array are read up to its closing bracket. -/
theorem JsonElements.parses (elements : JsonElements) {path : List Bytes} {index : Nat}
    {first : Bool} {more : Bytes} {values : Config} (hproper : ProperPath path) (hne : path ≠ []) :
    Parses (.array (dotted path) index) (elements.text first ++ 93 :: more) values more
      (values.store (elements.leaves path index)) := by
  cases elements with
  | nil => exact Parses.finish rfl
  | cons before value after rest =>
      obtain ⟨d, more', hrest, hd⟩ := rest.text_closer (Or.inr (Or.inr rfl) : IsCloser 93) more
      have htail : Parses (.array (dotted path) (index + 1)) (d :: more')
          (values.store (value.leaves (path ++ [natDec index]))) more
          (values.store ((JsonElements.cons before value after rest).leaves path index)) := by
        rw [JsonElements.leaves, Config.store_append, ← hrest]
        exact rest.parses hproper hne
      rw [JsonElements.text]
      simp only [List.append_assoc]
      rw [hrest]
      refine Parses.separator first ?_
      exact value.parses (arrayToken_element before value _) (fun _ => rfl) hd
        (key_array hne index []) (hproper.concat (natDec_ne_nil index)) (by simp) htail

end

/-- **The parser stores the leaves of a document**: under every path the last leaf the document has
there, and nothing else. -/
theorem parseJson_document (doc : JsonDocument) :
    ∃ values, (∃ n, ∀ fuel, n ≤ fuel → parseJson fuel doc.text ∅ = some values) ∧
      ∀ path, values[path]? = ((doc.leaves.filter (·.1 = path)).getLast?).map (·.2) := by
  refine ⟨(∅ : Config).store doc.leaves, ?_, Map.get_foldl_insert_last doc.leaves⟩
  have hroot : ProperPath [] := by simp [ProperPath]
  have hmembers : Parses (.object (dotted []))
      (doc.inner.1 ++ (doc.members.text true ++ 125 :: doc.after.1)) ∅ doc.after.1
      ((∅ : Config).store doc.leaves) := (doc.members.parses hroot).append_ws doc.inner
  rw [dotted_nil] at hmembers
  obtain ⟨n, hparse⟩ := hmembers
  refine ⟨n, ?_⟩
  intro fuel hfuel
  have hskip : skipWs doc.text =
      123 :: (doc.inner.1 ++ (doc.members.text true ++ 125 :: doc.after.1)) := by
    rw [JsonDocument.text, skipWs_append, JsonValue.text, List.cons_append,
      skipWs_of_head _ (by decide)]
    simp
  rw [parseJson, hskip]
  dsimp only
  rw [if_pos rfl, hparse fuel hfuel, Option.map_some]

/-- The paths of a small document. -/
example :
    let none : Ws := ⟨[], by simp⟩
    let blank : Ws := ⟨[32], by simp [isJsonSpace]⟩
    let elements : JsonElements :=
      .cons none (.scalar ⟨[49], by simp [isScalarByte, isDigit]⟩) none
        (.cons blank (.string (ascii "x")) none .nil)
    let doc : JsonDocument :=
      ⟨none, none, .cons none ⟨ascii "a", by decide⟩ none blank (.array none elements) none .nil,
        none⟩
    doc.text = ascii "\x7b\"a\": [1, \"x\"]\x7d" ∧
      doc.leaves = [(ascii "a.0", ascii "1"), (ascii "a.1", ascii "x")] := by
  decide +kernel

end FileGrid
