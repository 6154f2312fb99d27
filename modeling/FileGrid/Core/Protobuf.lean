import Mathlib.Data.List.Basic
import Mathlib.Data.Nat.Log
import FileGrid.Core.Bytes

/-!
# Messages on the wire

The wire format of protobuf, as far as messages of numbers, strings and bytes need it.  A message is
a sequence of fields; a field is a tag, which is the number of the field and a type of three bits,
and a value; and tags, numbers and lengths are written in groups of seven bits.

**What is written is read back.**  Every reader is given a text that begins with what was written
and returns what follows it: `readVarint_varint`, `decodeField_append`, and, for a whole message,
**`decode_encode`**.

**What is not written.**  `serializeToString` refuses a message of 2 GiB or more.  It then returns
`false` and leaves an empty string; an empty string is the encoding of a message in which no field
is set.

**Strings.**  A field of type `string` has to be UTF-8, which is looked at by the reader.  The test
is `validUtf8`, which goes through the bytes with the ranges in which the next ones have to be.
-/

namespace FileGrid

/-- The first `n` bytes and what follows them, if there are as many. -/
def readExact (n : Nat) (s : Bytes) : Option (Bytes × Bytes) :=
  if n ≤ s.length then some (s.take n, s.drop n) else none

lemma readExact_append (a s : Bytes) : readExact a.length (a ++ s) = some (a, s) := by
  simp [readExact]

/-- Of a text of which only the first `k` bytes are there. -/
lemma readExact_take (a s : Bytes) (k : Nat) :
    readExact a.length ((a ++ s).take k) =
      if a.length ≤ k then some (a, s.take (k - a.length)) else none := by
  split_ifs with hk
  · rw [List.take_append, List.take_of_length_le hk, readExact_append]
  · rw [readExact, if_neg]
    rw [List.length_take]
    omega

/-! ## Numbers -/

/-- The number in groups of seven bits, the lowest first, with `k` groups after the first.  In all
but the last the high bit is set. -/
def varintGroups : Nat → Nat → Bytes
  | 0, n => [UInt8.ofNat n]
  | k + 1, n => UInt8.ofNat (n % 128 + 128) :: varintGroups k (n / 128)

def varint (n : Nat) : Bytes := varintGroups (n.log2 / 7) n

/-- A number of at most so many groups, and what follows it. -/
def readGroups : Nat → Bytes → Option (Nat × Bytes)
  | 0, _ => none
  | _ + 1, [] => none
  | groups + 1, b :: s =>
      if b.toNat < 128 then some (b.toNat, s)
      else (readGroups groups s).map fun r => (b.toNat - 128 + 128 * r.1, r.2)

/-- A number has at most ten groups, and of these 64 bits count. -/
def readVarint (s : Bytes) : Option (Nat × Bytes) :=
  (readGroups 10 s).map fun r => (r.1 % 2 ^ 64, r.2)

lemma length_varintGroups (k n : Nat) : (varintGroups k n).length = k + 1 := by
  induction k generalizing n with
  | zero => rfl
  | succ k ih => rw [varintGroups, List.length_cons, ih]

lemma length_varint (n : Nat) : (varint n).length = n.log2 / 7 + 1 := length_varintGroups _ n

lemma readGroups_varintGroups {groups k n : Nat} (hk : k < groups) (hn : n < 128 ^ (k + 1))
    (s : Bytes) : readGroups groups (varintGroups k n ++ s) = some (n, s) := by
  induction k generalizing groups n with
  | zero =>
      obtain ⟨groups, rfl⟩ : ∃ m, groups = m + 1 := ⟨groups - 1, by omega⟩
      have hbyte : (UInt8.ofNat n).toNat = n := by
        rw [UInt8.toNat_ofNat']
        omega
      rw [varintGroups, List.singleton_append, readGroups, hbyte, if_pos (by omega)]
  | succ k ih =>
      obtain ⟨groups, rfl⟩ : ∃ m, groups = m + 1 := ⟨groups - 1, by omega⟩
      have hbyte : (UInt8.ofNat (n % 128 + 128)).toNat = n % 128 + 128 := by
        rw [UInt8.toNat_ofNat']
        omega
      have hrest : n / 128 < 128 ^ (k + 1) := by
        rw [pow_succ] at hn
        exact Nat.div_lt_of_lt_mul (by omega)
      rw [varintGroups, List.cons_append, readGroups, hbyte, if_neg (by omega),
        ih (by omega) hrest, Option.map_some]
      congr 2
      omega

/-- There are as many groups as the number needs. -/
lemma lt_pow_groups (n : Nat) : n < 128 ^ (n.log2 / 7 + 1) := by
  have hpow : (128 : Nat) ^ (n.log2 / 7 + 1) = 2 ^ (7 * (n.log2 / 7 + 1)) := by
    rw [pow_mul]
    norm_num
  rw [hpow]
  calc n < 2 ^ (n.log2 + 1) := Nat.lt_log2_self
    _ ≤ 2 ^ (7 * (n.log2 / 7 + 1)) := Nat.pow_le_pow_right (by norm_num) (by omega)

/-- **A number of 64 bits is read back.** -/
theorem readVarint_varint {n : Nat} (hn : n < 2 ^ 64) (s : Bytes) :
    readVarint (varint n ++ s) = some (n, s) := by
  have hlog : n.log2 < 64 := by
    rcases Nat.eq_zero_or_pos n with rfl | hpos
    · decide
    · exact (Nat.log2_lt hpos.ne').mpr hn
  rw [readVarint, varint, readGroups_varintGroups (by omega) (lt_pow_groups n), Option.map_some,
    Nat.mod_eq_of_lt hn]

/-! ## Fields -/

/-- A field of a message, with its number. -/
inductive WireField
  | varint (number value : Nat)
  | fixed64 (number : Nat) (content : Bytes)
  | bytes (number : Nat) (content : Bytes)
  | fixed32 (number : Nat) (content : Bytes)
deriving DecidableEq

namespace WireField

/-- The number of a field has 29 bits, and its value is as large as its type says. -/
def WellFormed : WireField → Prop
  | .varint number value => (1 ≤ number ∧ number < 2 ^ 29) ∧ value < 2 ^ 64
  | .fixed64 number content => (1 ≤ number ∧ number < 2 ^ 29) ∧ content.length = 8
  | .bytes number content => (1 ≤ number ∧ number < 2 ^ 29) ∧ content.length < 2 ^ 64
  | .fixed32 number content => (1 ≤ number ∧ number < 2 ^ 29) ∧ content.length = 4

end WireField

/-- The number of a field and the type of its value. -/
def fieldTag (number type : Nat) : Bytes := varint (8 * number + type)

def encodeField : WireField → Bytes
  | .varint number value => fieldTag number 0 ++ varint value
  | .fixed64 number content => fieldTag number 1 ++ content
  | .bytes number content => fieldTag number 2 ++ (varint content.length ++ content)
  | .fixed32 number content => fieldTag number 5 ++ content

/-- The value after a tag.  Groups, which have types 3 and 4, are refused. -/
def decodeValue (number : Nat) : Nat → Bytes → Option (WireField × Bytes)
  | 0, s => (readVarint s).map fun r => (.varint number r.1, r.2)
  | 1, s => (readExact 8 s).map fun r => (.fixed64 number r.1, r.2)
  | 2, s => (readVarint s).bind fun r =>
      (readExact r.1 r.2).map fun r => (.bytes number r.1, r.2)
  | 5, s => (readExact 4 s).map fun r => (.fixed32 number r.1, r.2)
  | _, _ => none

/-- No field has the number 0. -/
def decodeField (s : Bytes) : Option (WireField × Bytes) :=
  (readVarint s).bind fun r =>
    if r.1 / 8 = 0 then none else decodeValue (r.1 / 8) (r.1 % 8) r.2

/-- The value is read once its tag is. -/
lemma decodeField_tag {number type : Nat} (hnumber : 1 ≤ number ∧ number < 2 ^ 29)
    (htype : type < 8) (s : Bytes) :
    decodeField (fieldTag number type ++ s) = decodeValue number type s := by
  have hparts : (8 * number + type) / 8 = number ∧ (8 * number + type) % 8 = type := by omega
  rw [decodeField, fieldTag, readVarint_varint (by omega), Option.bind_some]
  dsimp only
  rw [hparts.1, hparts.2, if_neg (by omega)]

/-- **A field is read back.** -/
theorem decodeField_append {field : WireField} (h : field.WellFormed) (s : Bytes) :
    decodeField (encodeField field ++ s) = some (field, s) := by
  cases field with
  | varint number value =>
      rw [encodeField, List.append_assoc, decodeField_tag h.1 (by omega), decodeValue,
        readVarint_varint h.2, Option.map_some]
  | fixed64 number content =>
      have hread : readExact 8 (content ++ s) = some (content, s) :=
        h.2 ▸ readExact_append content s
      rw [encodeField, List.append_assoc, decodeField_tag h.1 (by omega), decodeValue, hread,
        Option.map_some]
  | bytes number content =>
      rw [encodeField, List.append_assoc, List.append_assoc, decodeField_tag h.1 (by omega),
        decodeValue, readVarint_varint h.2, Option.bind_some, readExact_append, Option.map_some]
  | fixed32 number content =>
      have hread : readExact 4 (content ++ s) = some (content, s) :=
        h.2 ▸ readExact_append content s
      rw [encodeField, List.append_assoc, decodeField_tag h.1 (by omega), decodeValue, hread,
        Option.map_some]

/-! ## Messages -/

def encode (fields : List WireField) : Bytes := fields.flatMap encodeField

/-- At most so many fields. -/
def decodeFields : Nat → Bytes → Option (List WireField)
  | _, [] => some []
  | 0, _ :: _ => none
  | fuel + 1, b :: s =>
      (decodeField (b :: s)).bind fun r => (decodeFields fuel r.2).map (r.1 :: ·)

/-- The fields of a message; a field has at least one byte. -/
def decode (s : Bytes) : Option (List WireField) := decodeFields s.length s

lemma encodeField_ne_nil (field : WireField) : encodeField field ≠ [] := by
  have hvarint : ∀ n, varint n ≠ [] := by
    intro n
    rw [← List.length_pos_iff, length_varint]
    omega
  cases field <;> simp [encodeField, fieldTag, hvarint]

lemma length_le_encode (fields : List WireField) : fields.length ≤ (encode fields).length := by
  induction fields with
  | nil => rfl
  | cons field fields ih =>
      have hpos := List.length_pos_iff.mpr (encodeField_ne_nil field)
      simp only [encode, List.flatMap_cons, List.length_append, List.length_cons] at ih ⊢
      omega

lemma decodeFields_encode {fuel : Nat} {fields : List WireField} (hfuel : fields.length ≤ fuel)
    (h : ∀ field ∈ fields, field.WellFormed) : decodeFields fuel (encode fields) = some fields := by
  induction fields generalizing fuel with
  | nil => cases fuel <;> rfl
  | cons field fields ih =>
      obtain ⟨hfield, hfields⟩ := List.forall_mem_cons.mp h
      obtain ⟨fuel, rfl⟩ : ∃ m, fuel = m + 1 := ⟨fuel - 1, by simp at hfuel; omega⟩
      obtain ⟨b, s, hcons⟩ := List.exists_cons_of_ne_nil (encodeField_ne_nil field)
      have hdecode := decodeField_append hfield (encode fields)
      rw [hcons, List.cons_append] at hdecode
      rw [encode, List.flatMap_cons, ← encode, hcons, List.cons_append, decodeFields, hdecode,
        Option.bind_some, ih (Nat.le_of_succ_le_succ hfuel) hfields, Option.map_some]

/-- **A message is read back.** -/
theorem decode_encode {fields : List WireField} (h : ∀ field ∈ fields, field.WellFormed) :
    decode (encode fields) = some fields :=
  decodeFields_encode (length_le_encode fields) h

/-- Whether the message was serialised, and what the string is then. -/
def serializeToString (fields : List WireField) : Bool × Bytes :=
  if (encode fields).length < 2 ^ 31 then (true, encode fields) else (false, [])

/-! ## Fields of messages -/

/-- A field that is a string or bytes; an empty one is not sent. -/
def bytesField (number : Nat) (content : Bytes) : List WireField :=
  if content = [] then [] else [.bytes number content]

def boolField (number : Nat) (value : Bool) : List WireField :=
  if value then [.varint number 1] else []

lemma wellFormed_bytesField {number : Nat} {content : Bytes} {field : WireField}
    (hnumber : 1 ≤ number ∧ number < 2 ^ 29) (hcontent : content.length < 2 ^ 64)
    (h : field ∈ bytesField number content) : field.WellFormed := by
  rw [bytesField] at h
  split_ifs at h
  · cases h
  · rw [List.mem_singleton.mp h]
    exact ⟨hnumber, hcontent⟩

lemma wellFormed_boolField {number : Nat} {value : Bool} {field : WireField}
    (hnumber : 1 ≤ number ∧ number < 2 ^ 29) (h : field ∈ boolField number value) :
    field.WellFormed := by
  rw [boolField] at h
  split_ifs at h
  · rw [List.mem_singleton.mp h]
    exact ⟨hnumber, by norm_num⟩
  · cases h

/-- The number of a field, up to 15, takes one byte with its type. -/
lemma length_encode_bytesField {number : Nat} (hnumber : number < 16) (content : Bytes) :
    (encode (bytesField number content)).length =
      if content = [] then 0 else 1 + (content.length.log2 / 7 + 1) + content.length := by
  have hlog : (8 * number + 2).log2 / 7 = 0 := by
    have : (8 * number + 2).log2 < 7 := (Nat.log2_lt (by omega)).mpr (by omega)
    omega
  rw [bytesField]
  split_ifs
  · rfl
  · simp only [encode, List.flatMap_cons, List.flatMap_nil, encodeField, fieldTag,
      List.length_append, List.length_nil, length_varint, hlog]
    omega

/-! ## UTF-8 -/

/-- The ranges of the bytes that follow the first byte of a character. -/
def utf8Follow (b : UInt8) : Option (List (Nat × Nat)) :=
  let n := b.toNat
  if n < 0x80 then some []
  else if n < 0xC2 then none
  else if n < 0xE0 then some [(0x80, 0xBF)]
  -- neither a shorter character written with three bytes, nor a surrogate
  else if n < 0xF0 then
    some [(if n = 0xE0 then 0xA0 else 0x80, if n = 0xED then 0x9F else 0xBF), (0x80, 0xBF)]
  -- neither a shorter one written with four, nor one past U+10FFFF
  else if n < 0xF5 then
    some [(if n = 0xF0 then 0x90 else 0x80, if n = 0xF4 then 0x8F else 0xBF), (0x80, 0xBF),
      (0x80, 0xBF)]
  else none

def validUtf8From : List (Nat × Nat) → Bytes → Bool
  | [], [] => true
  | _ :: _, [] => false
  | [], b :: s =>
      match utf8Follow b with
      | some pending => validUtf8From pending s
      | none => false
  | range :: pending, b :: s =>
      range.1 ≤ b.toNat && b.toNat ≤ range.2 && validUtf8From pending s

def validUtf8 (s : Bytes) : Bool := validUtf8From [] s

end FileGrid
