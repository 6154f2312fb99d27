import FileGrid.Core.Bytes
import FileGrid.Core.Map

/-!
# The configuration loader

`ConfigLoader` reads a JSON file into a flat map from dotted paths to texts, with a hand-written
parser that never reports an error: what it does not expect it skips.

**The parser.**  A position in the text is modelled by the rest of the text.  `objectToken` and
`arrayToken` are one iteration of the loops of `parse_object` and `parse_array`, as far as it reads;
`parseLevel` is the two loops, with what an iteration stores.  Its fuel bounds the iterations and
the depth: a text on which no fuel is enough is one on which the parser does not return.

**Termination.**  Every iteration shortens the rest of the text but for one kind (`token_progress`):
where an array has a closing brace in the place of an element, the token that is read there is
empty, and the loop stands still.  **`parseJson_terminates_iff`** says that this is the only way not
to terminate.

**Failed loads.**  `load_impl` clears the values before it knows that there are new ones, and
`reload` clears everything before it begins.  **`failed_load_unchanged_iff`** says when a failure
leaves the configuration as it was.
-/

namespace FileGrid

/-! ## Tokens -/

/-- The white space of the configuration parser. -/
def isJsonSpace (b : UInt8) : Bool := b = 32 ∨ b = 9 ∨ b = 13 ∨ b = 10

/-- `trim`. -/
def trim (s : Bytes) : Bytes :=
  ((s.dropWhile isJsonSpace).reverse.dropWhile isJsonSpace).reverse

/-- `skip_ws`. -/
def skipWs (s : Bytes) : Bytes := s.dropWhile isJsonSpace

/-- The loop of `parse_string_token`, behind the opening quote: the string, and what is left. -/
def stringBody : Bytes → Bytes × Bytes
  | [] => ([], [])
  | [c] => if c = 34 then ([], []) else ([c], [])
  | c :: d :: s =>
      if c = 34 then ([], d :: s)
      else if c = 92 then (d :: (stringBody s).1, (stringBody s).2)
      else (c :: (stringBody (d :: s)).1, (stringBody (d :: s)).2)

/-- `parse_string_token`. -/
def parseStringToken : Bytes → Bytes × Bytes
  | [] => ([], [])
  | c :: s => if c = 34 then stringBody s else ([], c :: s)

/-- What ends a number or a literal: `,`, `}`, `]` or the end of the line. -/
def isDelimiter (b : UInt8) : Bool := b = 44 ∨ b = 125 ∨ b = 93 ∨ b = 10 ∨ b = 13

/-- `parse_value_token`. -/
def parseValueToken (s : Bytes) : Bytes × Bytes :=
  (trim (s.takeWhile (! isDelimiter ·)), s.dropWhile (! isDelimiter ·))

/-- What comes before `//`, if anything does. -/
def stripComment (value : Bytes) : Bytes :=
  match find (ascii "//") value with
  | none => value
  | some pos => trim (value.take pos)

/-- Which loop is running: that of `parse_object` or that of `parse_array`. -/
inductive Bracket
  | object
  | array
deriving DecidableEq

/-- What one iteration of a loop reads: the loop ends; something is skipped; or there is a value,
which is an object or an array to be read, or a text.  The key is that of an object's member. -/
inductive Token
  | finish (rest : Bytes)
  | skip (rest : Bytes)
  | nested (bracket : Bracket) (key rest : Bytes)
  | text (key value rest : Bytes)
deriving DecidableEq

/-- The value at this place, which is not the end of the text. -/
def valueAt (strip : Bytes → Bytes) (key : Bytes) : Bytes → Token
  | [] => .finish []
  | c :: s =>
      if c = 123 then .nested .object key s
      else if c = 91 then .nested .array key s
      else if c = 34 then .text key (parseStringToken (c :: s)).1 (parseStringToken (c :: s)).2
      else .text key (strip (parseValueToken (c :: s)).1) (parseValueToken (c :: s)).2

/-- `if (s[pos] == ':') ++pos`. -/
def skipColon : Bytes → Bytes
  | [] => []
  | c :: s => if c = 58 then s else c :: s

/-- One iteration of `parse_object`. -/
def objectToken (s : Bytes) : Token :=
  match skipWs s with
  | [] => .finish []
  | c :: rest =>
      if c = 125 then .finish rest
      else if c = 44 then .skip rest
      else
        let (key, rest) := parseStringToken (c :: rest)
        if key = [] then .skip (rest.drop 1)
        else valueAt stripComment key (skipWs (skipColon (skipWs rest)))

/-- One iteration of `parse_array`. -/
def arrayToken (s : Bytes) : Token :=
  match skipWs s with
  | [] => .finish []
  | c :: rest =>
      if c = 93 then .finish rest
      else if c = 44 then .skip rest
      else valueAt id [] (c :: rest)

/-! ## The loops -/

/-- The parsed values, by their dotted paths. -/
abbrev Config := Map Bytes Bytes

def Bracket.token : Bracket → Bytes → Token
  | .object => objectToken
  | .array => arrayToken

/-- A loop of the parser: its prefix, and the index of an array. -/
inductive Level
  | object (path : Bytes)
  | array (path : Bytes) (index : Nat)

namespace Level

def bracket : Level → Bracket
  | .object _ => .object
  | .array _ _ => .array

/-- The path of a value: `full_key` and `elem_key`. -/
def key : Level → Bytes → Bytes
  | .object path, key => if path = [] then key else path ++ ascii "." ++ key
  | .array path index, _ => path ++ ascii "." ++ natDec index

/-- The loop after a value: `++index` in an array. -/
def after : Level → Level
  | .object path => .object path
  | .array path index => .array path (index + 1)

/-- The loop that a nested value is read by. -/
def opened : Bracket → Bytes → Level
  | .object, path => .object path
  | .array, path => .array path 0

@[simp] lemma bracket_opened (inner : Bracket) (path : Bytes) :
    (opened inner path).bracket = inner := by
  cases inner with
  | object => rfl
  | array => rfl

@[simp] lemma bracket_after (level : Level) : level.after.bracket = level.bracket := by
  cases level with
  | object path => rfl
  | array path index => rfl

end Level

/-- The loops of `parse_object` and `parse_array`: what is left of the text, and the values. -/
def parseLevel : Nat → Level → Bytes → Config → Option (Bytes × Config)
  | 0, _, _, _ => none
  | fuel + 1, level, s, values =>
      match level.bracket.token s with
      | .finish rest => some (rest, values)
      | .skip rest => parseLevel fuel level rest values
      | .nested inner key rest =>
          (parseLevel fuel (.opened inner (level.key key)) rest values).bind fun r =>
            parseLevel fuel level.after r.1 r.2
      | .text key value rest =>
          parseLevel fuel level.after rest (values.insert (level.key key) value)

/-- `parse_json` of a text, into these values. -/
def parseJson (fuel : Nat) (json : Bytes) (values : Config) : Option Config :=
  match skipWs json with
  | [] => some values
  | c :: s =>
      if c = 123 then (parseLevel fuel (.object []) s values).map (·.2)
      else if c = 91 then (parseLevel fuel (.array [] 0) s values).map (·.2)
      else some values

/-! ## What an iteration consumes -/

lemma length_skipWs_le (s : Bytes) : (skipWs s).length ≤ s.length :=
  (List.dropWhile_suffix _).length_le

lemma length_stringBody_le (s : Bytes) : (stringBody s).2.length ≤ s.length := by
  fun_induction stringBody s with
  | case1 => simp
  | case2 => simp
  | case3 c hc => simp
  | case4 d s => simp
  | case5 d s hc ih =>
      simp only [List.length_cons]
      omega
  | case6 c d s hc hd ih =>
      simp only [List.length_cons] at ih ⊢
      omega

lemma length_parseStringToken {c : UInt8} {s : Bytes} (hc : c = 34) :
    (parseStringToken (c :: s)).2.length ≤ s.length := by
  rw [parseStringToken, if_pos hc]
  exact length_stringBody_le s

lemma parseStringToken_of_ne {c : UInt8} (s : Bytes) (hc : c ≠ 34) :
    parseStringToken (c :: s) = ([], c :: s) := by
  rw [parseStringToken, if_neg hc]

/-- What is left after the iteration, before a nested value is read. -/
def Token.rest : Token → Bytes
  | .finish rest => rest
  | .skip rest => rest
  | .nested _ _ rest => rest
  | .text _ _ rest => rest

lemma length_skipColon_le (s : Bytes) : (skipColon s).length ≤ s.length := by
  cases s with
  | nil => simp [skipColon]
  | cons c s =>
      rw [skipColon]
      split_ifs
      · simp
      · exact le_rfl

/-- A bracket or a string takes its first byte; any other value goes to the next delimiter. -/
lemma rest_valueAt_cons (strip : Bytes → Bytes) (key : Bytes) (c : UInt8) (s : Bytes) :
    (valueAt strip key (c :: s)).rest.length < (c :: s).length ∨
      (valueAt strip key (c :: s)).rest = (c :: s).dropWhile (! isDelimiter ·) := by
  rw [valueAt]
  split_ifs with hobject harray hstring
  · simp [Token.rest]
  · simp [Token.rest]
  · have hle := length_parseStringToken (s := s) hstring
    simp only [Token.rest, List.length_cons]
    omega
  · exact Or.inr rfl

lemma length_valueAt_le (strip : Bytes → Bytes) (key s : Bytes) :
    (valueAt strip key s).rest.length ≤ s.length := by
  cases s with
  | nil => simp [valueAt, Token.rest]
  | cons c s =>
      rcases rest_valueAt_cons strip key c s with hlt | hrest
      · exact hlt.le
      · rw [hrest]
        exact (List.dropWhile_suffix _).length_le

/-- A value that does not begin with a delimiter takes at least its first byte. -/
lemma length_valueAt_lt (strip : Bytes → Bytes) (key : Bytes) {c : UInt8} (s : Bytes)
    (hc : isDelimiter c = false) : (valueAt strip key (c :: s)).rest.length < (c :: s).length := by
  rcases rest_valueAt_cons strip key c s with hlt | hrest
  · exact hlt
  · have hle : (s.dropWhile (! isDelimiter ·)).length ≤ s.length :=
      (List.dropWhile_suffix _).length_le
    simp only [hrest, hc, Bool.not_false, List.dropWhile_cons_of_pos, List.length_cons]
    omega

/-- The next byte that is not white space. -/
lemma skipWs_cons {s rest : Bytes} {c : UInt8} (h : skipWs s = c :: rest) :
    isJsonSpace c = false := by
  have hhead := List.head?_dropWhile_not isJsonSpace s
  rw [← skipWs, h] at hhead
  simpa using hhead

/-- The loop of an array stands before a closing brace. -/
def Bracket.AtBrace (bracket : Bracket) (s : Bytes) : Prop :=
  bracket = .array ∧ (skipWs s).head? = some 125

/-- **Every iteration shortens what is left of the text**, but where an array meets a closing
brace. -/
theorem token_progress {bracket : Bracket} {s : Bytes} (hne : s ≠ []) (h : ¬bracket.AtBrace s) :
    (bracket.token s).rest.length < s.length := by
  have hpos : 0 < s.length := List.length_pos_iff.mpr hne
  have hskip := length_skipWs_le s
  cases bracket with
  | object =>
      rw [Bracket.token, objectToken]
      cases hs : skipWs s with
      | nil => simpa [Token.rest] using hpos
      | cons c rest =>
          rw [hs, List.length_cons] at hskip
          dsimp only
          split_ifs with hclose hcomma hkey
          · simpa [Token.rest] using hskip
          · simpa [Token.rest] using hskip
          · -- an empty key is a byte that is no quote, or a string of its own
            by_cases hquote : c = 34
            · have hle := length_parseStringToken (s := rest) hquote
              simp only [Token.rest, List.length_drop]
              omega
            · rw [parseStringToken_of_ne rest hquote]
              simpa [Token.rest] using hskip
          · have hquote : c = 34 := by
              by_contra hquote
              rw [parseStringToken_of_ne rest hquote] at hkey
              exact hkey rfl
            have hle := length_parseStringToken (s := rest) hquote
            have hvalue := length_valueAt_le stripComment (parseStringToken (c :: rest)).1
              (skipWs (skipColon (skipWs (parseStringToken (c :: rest)).2)))
            have hspace := length_skipWs_le (parseStringToken (c :: rest)).2
            have hcolon := length_skipColon_le (skipWs (parseStringToken (c :: rest)).2)
            have hspace' := length_skipWs_le (skipColon (skipWs (parseStringToken (c :: rest)).2))
            omega
  | array =>
      rw [Bracket.token, arrayToken]
      cases hs : skipWs s with
      | nil => simpa [Token.rest] using hpos
      | cons c rest =>
          have hspace := skipWs_cons hs
          rw [hs, List.length_cons] at hskip
          dsimp only
          split_ifs with hclose hcomma
          · simpa [Token.rest] using hskip
          · simpa [Token.rest] using hskip
          · have hbrace : c ≠ 125 := by
              rintro rfl
              exact h ⟨rfl, by rw [hs]; rfl⟩
            have hdelimiter : isDelimiter c = false := by
              simp only [isJsonSpace, isDelimiter, decide_eq_false_iff_not, not_or] at hspace ⊢
              exact ⟨hcomma, hbrace, hclose, hspace.2.2.2, hspace.2.2.1⟩
            have hlt := length_valueAt_lt id [] rest hdelimiter
            rw [List.length_cons] at hlt
            omega

lemma token_nil (bracket : Bracket) : bracket.token [] = .finish [] := by
  cases bracket with
  | object => rfl
  | array => rfl

/-- Before a closing brace the loop of an array reads an empty text, and stays where it is. -/
lemma token_atBrace {bracket : Bracket} {s : Bytes} (h : bracket.AtBrace s) :
    bracket.token s = .text [] [] (skipWs s) := by
  obtain ⟨rfl, hhead⟩ := h
  rw [Bracket.token, arrayToken]
  cases hs : skipWs s with
  | nil =>
      rw [hs] at hhead
      cases hhead
  | cons c rest =>
      rw [hs] at hhead
      obtain rfl : c = 125 := Option.some.inj hhead
      simp [valueAt, parseValueToken, isDelimiter, trim]

lemma skipWs_skipWs (s : Bytes) : skipWs (skipWs s) = skipWs s := by
  cases hs : skipWs s with
  | nil => rfl
  | cons c rest => rw [skipWs, List.dropWhile_cons_of_neg (by simp [skipWs_cons hs])]

/-! ## Termination -/

/-- The loop inside a bracket reads a text up to here: what the parser skips and what it takes for
values, without what becomes of them. -/
inductive Reads : Bracket → Bytes → Bytes → Prop
  | finish {bracket s rest} : bracket.token s = .finish rest → Reads bracket s rest
  | skip {bracket s rest rest'} : bracket.token s = .skip rest → Reads bracket rest rest' →
      Reads bracket s rest'
  | text {bracket s key value rest rest'} : bracket.token s = .text key value rest →
      Reads bracket rest rest' → Reads bracket s rest'
  | nested {bracket s inner key rest between rest'} : bracket.token s = .nested inner key rest →
      Reads inner rest between → Reads bracket between rest' → Reads bracket s rest'

/-- **A stray brace**: reading on inside a bracket, one comes to a closing brace in an array, where
an element, a comma or the closing bracket should be. -/
inductive Stray : Bracket → Bytes → Prop
  | here {bracket s} : bracket.AtBrace s → Stray bracket s
  | skip {bracket s rest} : bracket.token s = .skip rest → Stray bracket rest → Stray bracket s
  | text {bracket s key value rest} : bracket.token s = .text key value rest → Stray bracket rest →
      Stray bracket s
  | inside {bracket s inner key rest} : bracket.token s = .nested inner key rest →
      Stray inner rest → Stray bracket s
  | behind {bracket s inner key rest between} : bracket.token s = .nested inner key rest →
      Reads inner rest between → Stray bracket between → Stray bracket s

/-- The text of a file has a stray brace. -/
def StrayBrace (json : Bytes) : Prop :=
  match skipWs json with
  | [] => False
  | c :: s => (c = 123 ∧ Stray .object s) ∨ (c = 91 ∧ Stray .array s)

lemma Reads.length_le {bracket : Bracket} {s rest : Bytes} (h : Reads bracket s rest)
    (hstray : ¬Stray bracket s) : rest.length ≤ s.length := by
  have hprogress : ∀ {bracket : Bracket} {s : Bytes}, ¬Stray bracket s →
      (bracket.token s).rest.length ≤ s.length := by
    intro bracket s hstray
    by_cases hne : s = []
    · rw [hne, token_nil]
      rfl
    · exact (token_progress hne fun hbrace => hstray (.here hbrace)).le
  induction h with
  | finish htoken =>
      have hle := hprogress hstray
      rwa [htoken] at hle
  | skip htoken _ ih =>
      have hle := hprogress hstray
      rw [htoken] at hle
      exact (ih fun h => hstray (.skip htoken h)).trans hle
  | text htoken _ ih =>
      have hle := hprogress hstray
      rw [htoken] at hle
      exact (ih fun h => hstray (.text htoken h)).trans hle
  | nested htoken hinner _ ihinner ih =>
      have hle := hprogress hstray
      rw [htoken] at hle
      exact (ih fun h => hstray (.behind htoken hinner h)).trans
        ((ihinner fun h => hstray (.inside htoken h)).trans hle)

section

variable {fuel : Nat} {level : Level} {s : Bytes} {values : Config} {result : Bytes × Config}

/-- What the parser returns, it has read. -/
lemma reads_of_parseLevel (h : parseLevel fuel level s values = some result) :
    Reads level.bracket s result.1 := by
  induction fuel generalizing level s values result with
  | zero => cases h
  | succ fuel ih =>
      rw [parseLevel] at h
      cases htoken : level.bracket.token s with
      | finish rest =>
          simp only [htoken, Option.some.injEq] at h
          rw [← h]
          exact .finish htoken
      | skip rest =>
          simp only [htoken] at h
          exact .skip htoken (ih h)
      | text key value rest =>
          simp only [htoken] at h
          have hreads := ih h
          rw [Level.bracket_after] at hreads
          exact .text htoken hreads
      | nested inner key rest =>
          simp only [htoken] at h
          obtain ⟨r, hinner, h⟩ := Option.bind_eq_some_iff.mp h
          have hreads := ih hinner
          have hreads' := ih h
          rw [Level.bracket_opened] at hreads
          rw [Level.bracket_after] at hreads'
          exact .nested htoken hreads hreads'

/-- There is one way to read a text: the parser's. -/
lemma Reads.eq_of_parseLevel {bracket : Bracket} {rest : Bytes} (hreads : Reads bracket s rest)
    (hlevel : level.bracket = bracket) (h : parseLevel fuel level s values = some result) :
    result.1 = rest := by
  induction hreads generalizing fuel level values result with
  | finish htoken =>
      cases fuel with
      | zero => cases h
      | succ fuel =>
          simp only [parseLevel, hlevel, htoken, Option.some.injEq] at h
          rw [← h]
  | skip htoken _ ih =>
      cases fuel with
      | zero => cases h
      | succ fuel =>
          simp only [parseLevel, hlevel, htoken] at h
          exact ih hlevel h
  | text htoken _ ih =>
      cases fuel with
      | zero => cases h
      | succ fuel =>
          simp only [parseLevel, hlevel, htoken] at h
          exact ih (by rw [Level.bracket_after, hlevel]) h
  | nested htoken _ _ ihinner ih =>
      cases fuel with
      | zero => cases h
      | succ fuel =>
          simp only [parseLevel, hlevel, htoken] at h
          obtain ⟨r, hinner, h⟩ := Option.bind_eq_some_iff.mp h
          obtain rfl := ihinner (Level.bracket_opened _ _) hinner
          exact ih (by rw [Level.bracket_after, hlevel]) h

/-- Before a closing brace the loop of an array goes on for ever. -/
lemma parseLevel_atBrace (h : level.bracket.AtBrace s) : parseLevel fuel level s values = none := by
  induction fuel generalizing level s values with
  | zero => rfl
  | succ fuel ih =>
      rw [parseLevel]
      simp only [token_atBrace h]
      refine ih ⟨by rw [Level.bracket_after]; exact h.1, ?_⟩
      rw [skipWs_skipWs]
      exact h.2

/-- **A stray brace is where the parser stays.** -/
theorem Stray.parseLevel_eq_none {bracket : Bracket} (hstray : Stray bracket s)
    (hlevel : level.bracket = bracket) : parseLevel fuel level s values = none := by
  induction hstray generalizing fuel level values with
  | here hbrace =>
      rw [← hlevel] at hbrace
      exact parseLevel_atBrace hbrace
  | skip htoken _ ih =>
      cases fuel with
      | zero => rfl
      | succ fuel =>
          simp only [parseLevel, hlevel, htoken]
          exact ih hlevel
  | text htoken _ ih =>
      cases fuel with
      | zero => rfl
      | succ fuel =>
          simp only [parseLevel, hlevel, htoken]
          exact ih (by rw [Level.bracket_after, hlevel])
  | inside htoken _ ih =>
      cases fuel with
      | zero => rfl
      | succ fuel =>
          simp only [parseLevel, hlevel, htoken]
          rw [ih (Level.bracket_opened _ _)]
          rfl
  | behind htoken hreads _ ih =>
      cases fuel with
      | zero => rfl
      | succ fuel =>
          simp only [parseLevel, hlevel, htoken]
          refine Option.bind_eq_none_iff.mpr fun r hinner => ?_
          rw [hreads.eq_of_parseLevel (Level.bracket_opened _ _) hinner]
          exact ih (by rw [Level.bracket_after, hlevel])

/-- **Without a stray brace the parser returns**: no loop makes more iterations than the text has
bytes, and none is nested deeper. -/
theorem exists_parseLevel (level : Level) (values : Config) (hlength : s.length ≤ fuel)
    (hstray : ¬Stray level.bracket s) :
    ∃ result, parseLevel (fuel + 1) level s values = some result := by
  induction fuel generalizing level s values with
  | zero =>
      obtain rfl : s = [] := List.length_eq_zero_iff.mp (by omega)
      exact ⟨([], values), by rw [parseLevel]; simp only [token_nil]⟩
  | succ fuel ih =>
      have hshorter : s ≠ [] → (level.bracket.token s).rest.length ≤ fuel := by
        intro hne
        have hlt := token_progress hne fun hbrace => hstray (.here hbrace)
        omega
      have hnil : ∀ {token}, level.bracket.token s = token → (∀ rest, token ≠ .finish rest) →
          s ≠ [] := by
        rintro token htoken hfinish rfl
        exact hfinish [] (htoken.symm.trans (token_nil _))
      rw [parseLevel]
      cases htoken : level.bracket.token s with
      | finish rest => exact ⟨_, rfl⟩
      | skip rest =>
          have hle := hshorter (hnil htoken (by simp))
          rw [htoken] at hle
          exact ih level values hle fun h => hstray (.skip htoken h)
      | text key value rest =>
          have hle := hshorter (hnil htoken (by simp))
          rw [htoken] at hle
          refine ih level.after _ hle ?_
          rw [Level.bracket_after]
          exact fun h => hstray (.text htoken h)
      | nested inner key rest =>
          have hle : rest.length ≤ fuel := by
            have hle := hshorter (hnil htoken (by simp))
            rwa [htoken] at hle
          have hinside : ¬Stray inner rest := fun h => hstray (.inside htoken h)
          obtain ⟨r, hinner⟩ := ih (.opened inner (level.key key)) values hle
            (by rw [Level.bracket_opened]; exact hinside)
          have hreads := reads_of_parseLevel hinner
          rw [Level.bracket_opened] at hreads
          have hle' : r.1.length ≤ fuel := (hreads.length_le hinside).trans hle
          dsimp only
          rw [hinner, Option.bind_some]
          refine ih level.after r.2 hle' ?_
          rw [Level.bracket_after]
          exact fun h => hstray (.behind htoken hreads h)

end

/-- `parse_json` returns. -/
def Terminates (json : Bytes) : Prop := ∃ fuel, ∀ values, (parseJson fuel json values).isSome

/-- **The parser terminates unless there is a stray brace.** -/
theorem parseJson_terminates_iff (json : Bytes) : Terminates json ↔ ¬StrayBrace json := by
  rw [Terminates, StrayBrace]
  cases hs : skipWs json with
  | nil => simp [parseJson, hs]
  | cons c s =>
      constructor
      · rintro ⟨fuel, h⟩ (⟨rfl, hstray⟩ | ⟨rfl, hstray⟩)
        · have hsome := h ∅
          simp only [parseJson, hs, if_true] at hsome
          rw [hstray.parseLevel_eq_none rfl] at hsome
          cases hsome
        · have hsome := h ∅
          have hne : (91 : UInt8) ≠ 123 := by decide
          simp only [parseJson, hs, if_neg hne, if_true] at hsome
          rw [hstray.parseLevel_eq_none rfl] at hsome
          cases hsome
      · intro h
        refine ⟨s.length + 1, fun values => ?_⟩
        rw [parseJson, hs]
        dsimp only
        split_ifs with hobject harray
        · obtain ⟨r, hr⟩ := exists_parseLevel (.object []) values le_rfl
            fun hstray => h (.inl ⟨hobject, hstray⟩)
          rw [hr]
          rfl
        · obtain ⟨r, hr⟩ := exists_parseLevel (.array [] 0) values le_rfl
            fun hstray => h (.inr ⟨harray, hstray⟩)
          rw [hr]
          rfl
        · rfl

/-- **A closing brace in an array keeps the parser busy for ever.** -/
theorem brace_in_array_hangs :
    StrayBrace (ascii "\x7b\"a\":[\x7d") ∧ ¬Terminates (ascii "\x7b\"a\":[\x7d") := by
  have hinside : Bracket.object.token (ascii "\"a\":[\x7d") =
      .nested .array (ascii "a") (ascii "\x7d") := by
    decide +kernel
  have hstray : Stray .object (ascii "\"a\":[\x7d") :=
    .inside hinside (.here ⟨rfl, by decide +kernel⟩)
  refine ⟨.inl ⟨rfl, hstray⟩, ?_⟩
  rintro ⟨fuel, h⟩
  have hloop : parseLevel fuel (.object []) (ascii "\"a\":[\x7d") ∅ = none :=
    hstray.parseLevel_eq_none rfl
  have hskip : skipWs (ascii "\x7b\"a\":[\x7d") = 123 :: ascii "\"a\":[\x7d" := by
    decide +kernel
  have hnone : parseJson fuel (ascii "\x7b\"a\":[\x7d") ∅ = none := by
    simp only [parseJson, hskip, if_true, hloop, Option.map_none]
  have hsome := h ∅
  rw [hnone] at hsome
  cases hsome

/-! ## Loading -/

/-- `ConfigLoader`. -/
structure ConfigLoader where
  values : Config := ∅
  filepath : Bytes := []
  loaded : Bool := false

/-- The content of a file is taken for JSON: behind white space it begins with a brace. -/
def looksLikeJson (content : Bytes) : Bool := (trim content).head? = some 123

namespace ConfigLoader

variable (fuel : Nat) (files : Bytes → Option Bytes)

/-- `load_impl`: whether it succeeds, and the loader afterwards; `none` if the parser does not
return.  `files` are the contents of the files that can be opened. -/
def loadImpl (c : ConfigLoader) (filepath : Bytes) : Option (Bool × ConfigLoader) :=
  match files filepath with
  | none => some (false, c)
  | some content =>
      if looksLikeJson content then
        (parseJson fuel content ∅).map fun values =>
          if values.isEmpty then (false, { c with values })
          else (true, { values, filepath, loaded := true })
      else some (false, c)

/-- `load`. -/
def load (c : ConfigLoader) (filepath : Bytes) : Option (Bool × ConfigLoader) :=
  loadImpl fuel files c filepath

/-- `reload`. -/
def reload (c : ConfigLoader) : Option (Bool × ConfigLoader) :=
  if c.filepath = [] then some (false, c)
  else loadImpl fuel files { values := ∅, filepath := [], loaded := false } c.filepath

variable {fuel files}

/-- What a `load_impl` that fails leaves: the loader as it was, or without its values. -/
lemma loadImpl_false {c c' : ConfigLoader} {filepath : Bytes}
    (h : loadImpl fuel files c filepath = some (false, c')) :
    c' = if (files filepath).any looksLikeJson then { c with values := ∅ } else c := by
  rw [loadImpl] at h
  cases hfile : files filepath with
  | none =>
      simp only [hfile, Option.some.injEq, Prod.mk.injEq, true_and] at h
      simp [h]
  | some content =>
      simp only [hfile] at h
      rw [Option.any_some]
      split_ifs at h ⊢ with hjson
      · obtain ⟨values, -, hresult⟩ := Option.map_eq_some_iff.mp h
        split_ifs at hresult with hempty
        · obtain ⟨-, rfl⟩ := Prod.mk.inj hresult
          rw [Std.ExtTreeMap.isEmpty_iff.mp hempty]
        · exact absurd (Prod.mk.inj hresult).1 (by decide)
      · exact (Prod.mk.inj (Option.some.inj h)).2.symm

/-- **When a failure changes nothing.**  `load` clears the values of a file that looks like JSON, so
there must have been none; `reload` forgets the path, so there must have been none. -/
theorem failed_load_unchanged_iff (c c' : ConfigLoader) (filepath : Bytes) :
    (c.load fuel files filepath = some (false, c') →
      (c' = c ↔ (files filepath).any looksLikeJson = false ∨ c.values = ∅)) ∧
    (c.reload fuel files = some (false, c') → (c' = c ↔ c.filepath = [])) := by
  constructor
  · intro h
    rw [loadImpl_false h]
    cases (files filepath).any looksLikeJson with
    | false => simp
    | true =>
        simp only [if_true, Bool.true_eq_false, false_or]
        constructor
        · intro hsame
          exact (congrArg ConfigLoader.values hsame).symm
        · intro hvalues
          rw [← hvalues]
  · intro h
    rw [reload] at h
    split_ifs at h with hpath
    · obtain ⟨-, rfl⟩ := Prod.mk.inj (Option.some.inj h)
      exact iff_of_true rfl hpath
    · refine iff_of_false (fun hsame => hpath ?_) hpath
      have hcleared := loadImpl_false h
      rw [hsame] at hcleared
      split_ifs at hcleared
      · exact congrArg ConfigLoader.filepath hcleared
      · exact congrArg ConfigLoader.filepath hcleared

/-- A configuration with one value. -/
def oneValue : ConfigLoader :=
  { values := (∅ : Config).insert (ascii "a") (ascii "1")
    filepath := ascii "c.json"
    loaded := true }

/-- A file that is missing changes nothing when it is loaded. -/
theorem failed_load_unchanged_missing :
    (oneValue.load 1 (fun _ => none) (ascii "d.json")).map (·.1) = some false ∧
      (oneValue.load 1 (fun _ => none) (ascii "d.json")).map (·.2) = some oneValue := by
  have hload : oneValue.load 1 (fun _ => none) (ascii "d.json") = some (false, oneValue) := rfl
  have hsame := ((failed_load_unchanged_iff oneValue oneValue (ascii "d.json")).1 hload).mpr
    (.inl rfl)
  rw [hload]
  exact ⟨rfl, congrArg some hsame⟩

/-- **A failed reload loses the configuration**, and the path along with it: the next reload fails
too, although the file is there again.  A file without entries clears the values when it is
loaded. -/
theorem failed_reload_loses_config :
    let missing : Bytes → Option Bytes := fun _ => none
    let present : Bytes → Option Bytes := fun _ => some (ascii "\x7b\"a\":1\x7d")
    let noEntries : Bytes → Option Bytes := fun _ => some (ascii "\x7b\x7d")
    oneValue.reload 9 missing = some (false, {}) ∧
      ConfigLoader.reload 9 present {} = some (false, {}) ∧
      oneValue.load 9 noEntries (ascii "d.json") = some (false, { oneValue with values := ∅ }) ∧
      oneValue.values ≠ ∅ := by
  refine ⟨rfl, rfl, rfl, ?_⟩
  decide +kernel

end ConfigLoader

end FileGrid
