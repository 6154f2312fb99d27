import FileGrid.Core.Bytes

/-!
# SHA-256

`dfg::hash::SHA256`, the incremental hasher of the client, the head server and the storage nodes,
with the block buffer the source keeps between two calls of `update`.

Two facts about it carry every argument on checksums.

* `SHA256.update_append` — feeding two pieces one after the other is feeding their concatenation.
  The three loops of `update` (fill the buffer, take whole blocks, keep the rest) are shown to be
  one byte-wise `absorb`, folded over the input, and a fold splits at an append.
* `word_sha256` — a digest is printed as hexadecimal digits, so it is one word of a protocol line.
-/

namespace FileGrid

/-! ## The compression function -/

/-- The round constants `k`. -/
def sha256K : List UInt32 := [
  0x428a2f98, 0x71374491, 0xb5c0fbcf, 0xe9b5dba5, 0x3956c25b, 0x59f111f1, 0x923f82a4, 0xab1c5ed5,
  0xd807aa98, 0x12835b01, 0x243185be, 0x550c7dc3, 0x72be5d74, 0x80deb1fe, 0x9bdc06a7, 0xc19bf174,
  0xe49b69c1, 0xefbe4786, 0x0fc19dc6, 0x240ca1cc, 0x2de92c6f, 0x4a7484aa, 0x5cb0a9dc, 0x76f988da,
  0x983e5152, 0xa831c66d, 0xb00327c8, 0xbf597fc7, 0xc6e00bf3, 0xd5a79147, 0x06ca6351, 0x14292967,
  0x27b70a85, 0x2e1b2138, 0x4d2c6dfc, 0x53380d13, 0x650a7354, 0x766a0abb, 0x81c2c92e, 0x92722c85,
  0xa2bfe8a1, 0xa81a664b, 0xc24b8b70, 0xc76c51a3, 0xd192e819, 0xd6990624, 0xf40e3585, 0x106aa070,
  0x19a4c116, 0x1e376c08, 0x2748774c, 0x34b0bcb5, 0x391c0cb3, 0x4ed8aa4a, 0x5b9cca4f, 0x682e6ff3,
  0x748f82ee, 0x78a5636f, 0x84c87814, 0x8cc70208, 0x90befffa, 0xa4506ceb, 0xbef9a3f7, 0xc67178f2]

def rotr (x n : UInt32) : UInt32 := if n = 0 then x else (x >>> n) ||| (x <<< (32 - n))

def ch (x y z : UInt32) : UInt32 := (x &&& y) ^^^ (~~~x &&& z)

def maj (x y z : UInt32) : UInt32 := (x &&& y) ^^^ (x &&& z) ^^^ (y &&& z)

def bigSigma0 (x : UInt32) : UInt32 := rotr x 2 ^^^ rotr x 13 ^^^ rotr x 22

def bigSigma1 (x : UInt32) : UInt32 := rotr x 6 ^^^ rotr x 11 ^^^ rotr x 25

def sigma0 (x : UInt32) : UInt32 := rotr x 7 ^^^ rotr x 18 ^^^ (x >>> 3)

def sigma1 (x : UInt32) : UInt32 := rotr x 17 ^^^ rotr x 19 ^^^ (x >>> 10)

/-- The eight words `state_[0]`, …, `state_[7]`. -/
structure HashState where
  (a b c d e f g h : UInt32)
deriving DecidableEq

/-- The big-endian words of a block: `m[0]`, …, `m[15]`. -/
def loadWords : Bytes → List UInt32
  | x :: y :: z :: w :: rest =>
      ((x.toUInt32 <<< 24) ||| (y.toUInt32 <<< 16) ||| (z.toUInt32 <<< 8) ||| w.toUInt32) ::
        loadWords rest
  | _ => []

/-- The message schedule, extended by `n` words. -/
def extendSchedule : Nat → List UInt32 → List UInt32
  | 0, m => m
  | n + 1, m =>
      let i := m.length
      extendSchedule n (m ++ [sigma1 (m.getD (i - 2) 0) + m.getD (i - 7) 0 +
        sigma0 (m.getD (i - 15) 0) + m.getD (i - 16) 0])

def compressRound (s : HashState) (km : UInt32 × UInt32) : HashState :=
  let t1 := s.h + bigSigma1 s.e + ch s.e s.f s.g + km.1 + km.2
  let t2 := bigSigma0 s.a + maj s.a s.b s.c
  ⟨t1 + t2, s.a, s.b, s.c, s.d + t1, s.e, s.f, s.g⟩

/-- `SHA256::transform`. -/
def transform (s : HashState) (chunk : Bytes) : HashState :=
  let m := extendSchedule 48 (loadWords chunk)
  let r := (sha256K.zip m).foldl compressRound s
  ⟨s.a + r.a, s.b + r.b, s.c + r.c, s.d + r.d, s.e + r.e, s.f + r.f, s.g + r.g, s.h + r.h⟩

/-! ## The hasher -/

/-- The hasher between two calls; `buffer` is the first `datalen_` bytes of `data_`. -/
@[ext]
structure SHA256 where
  buffer : Bytes
  bitlen : UInt64
  state : HashState
  buffered : buffer.length < 64

namespace SHA256

/-- `SHA256::reset`. -/
def reset : SHA256 where
  buffer := []
  bitlen := 0
  state := ⟨0x6a09e667, 0xbb67ae85, 0x3c6ef372, 0xa54ff53a,
    0x510e527f, 0x9b05688c, 0x1f83d9ab, 0x5be0cd19⟩
  buffered := by simp

/-- The loop over complete blocks, `n` of which are left, and the bytes after them. -/
def absorbBlocks : Nat → UInt64 → HashState → Bytes → UInt64 × HashState × Bytes
  | 0, bitlen, state, data => (bitlen, state, data)
  | n + 1, bitlen, state, data =>
      absorbBlocks n (bitlen + 512) (transform state (data.take 64)) (data.drop 64)

lemma length_absorbBlocks (n : Nat) (bitlen : UInt64) (state : HashState) (data : Bytes) :
    (absorbBlocks n bitlen state data).2.2.length = data.length - 64 * n := by
  induction n generalizing bitlen state data with
  | zero => simp [absorbBlocks]
  | succ n ih =>
      rw [absorbBlocks, ih, List.length_drop]
      omega

/-- Whole blocks from an empty buffer on, and the rest into the buffer. -/
def absorbFrom (bitlen : UInt64) (state : HashState) (data : Bytes) : SHA256 where
  buffer := (absorbBlocks (data.length / 64) bitlen state data).2.2
  bitlen := (absorbBlocks (data.length / 64) bitlen state data).1
  state := (absorbBlocks (data.length / 64) bitlen state data).2.1
  buffered := by
    rw [length_absorbBlocks]
    omega

/-- `SHA256::update`. -/
def update (hasher : SHA256) (data : Bytes) : SHA256 :=
  if data = [] then hasher
  else if hasher.buffer = [] then absorbFrom hasher.bitlen hasher.state data
  else
    let toFill := 64 - hasher.buffer.length
    if hfill : data.length < toFill then
      { hasher with
        buffer := hasher.buffer ++ data
        buffered := by rw [List.length_append]; omega }
    else
      absorbFrom (hasher.bitlen + 512) (transform hasher.state (hasher.buffer ++ data.take toFill))
        (data.drop toFill)

/-- The big-endian bytes of the bit length. -/
def lengthBytes (n : UInt64) : Bytes :=
  ([56, 48, 40, 32, 24, 16, 8, 0] : List UInt64).map fun i => (n >>> i).toUInt8

/-- The last blocks of `SHA256::finalize`: the marker byte, zeros, and the bit length. -/
def finalState (hasher : SHA256) : HashState :=
  let datalen := hasher.buffer.length
  let bits := lengthBytes (hasher.bitlen + UInt64.ofNat datalen * 8)
  if datalen < 56 then
    transform hasher.state (hasher.buffer ++ 0x80 :: List.replicate (55 - datalen) 0 ++ bits)
  else
    let state := transform hasher.state (hasher.buffer ++ 0x80 :: List.replicate (63 - datalen) 0)
    transform state (List.replicate 56 0 ++ bits)

/-- The lower-case hexadecimal digit of a number below sixteen. -/
def hexDigit (n : UInt8) : UInt8 := if n < 10 then 48 + n else 87 + n

/-- Two digits a byte: `std::hex << std::setfill('0') << std::setw(2)`. -/
def hexByte (b : UInt8) : Bytes := [hexDigit (b >>> 4), hexDigit (b &&& 15)]

def wordBytes (w : UInt32) : Bytes :=
  [(w >>> 24).toUInt8, (w >>> 16).toUInt8, (w >>> 8).toUInt8, w.toUInt8]

/-- `SHA256::digest`, which finalizes a copy of the hasher. -/
def digest (hasher : SHA256) : Bytes :=
  let s := hasher.finalState
  ([s.a, s.b, s.c, s.d, s.e, s.f, s.g, s.h].flatMap wordBytes).flatMap hexByte

/-! ## Feeding the input in pieces -/

/-- One byte into the buffer; a full buffer is compressed at once. -/
def absorb (hasher : SHA256) (b : UInt8) : SHA256 :=
  if hfull : hasher.buffer.length = 63 then
    { buffer := []
      bitlen := hasher.bitlen + 512
      state := transform hasher.state (hasher.buffer ++ [b])
      buffered := by simp }
  else
    { hasher with
      buffer := hasher.buffer ++ [b]
      buffered := by
        have := hasher.buffered
        rw [List.length_append, List.length_singleton]
        omega }

lemma foldl_absorb_short {data : Bytes} : ∀ (hasher : SHA256)
    (hlen : hasher.buffer.length + data.length < 64),
    data.foldl absorb hasher =
      { hasher with
        buffer := hasher.buffer ++ data
        buffered := by rw [List.length_append]; exact hlen } := by
  induction data with
  | nil =>
      intro hasher _
      ext <;> simp
  | cons b data ih =>
      intro hasher hlen
      rw [List.length_cons] at hlen
      have hstep : hasher.absorb b = { hasher with
          buffer := hasher.buffer ++ [b]
          buffered := by rw [List.length_append, List.length_singleton]; omega } := by
        rw [absorb, dif_neg (by omega)]
      rw [List.foldl_cons, hstep, ih _ (by simp; omega)]
      ext <;> simp

lemma buffered_nil : ([] : Bytes).length < 64 := by simp

lemma foldl_absorb_fill (hasher : SHA256) {data : Bytes}
    (hlen : hasher.buffer.length + data.length = 64) :
    data.foldl absorb hasher =
      ⟨[], hasher.bitlen + 512, transform hasher.state (hasher.buffer ++ data), buffered_nil⟩ := by
  have hbuf := hasher.buffered
  -- All but the last byte only fill the buffer; the last one completes the block.
  rcases List.eq_nil_or_concat data with rfl | ⟨init, b, hdata⟩
  · simp only [List.length_nil] at hlen
    omega
  · rw [List.concat_eq_append] at hdata
    subst hdata
    rw [List.length_append, List.length_singleton] at hlen
    rw [List.foldl_append, foldl_absorb_short hasher (by omega), List.foldl_cons, List.foldl_nil,
      absorb, dif_pos (by rw [List.length_append]; omega)]
    ext <;> simp

lemma foldl_absorb_blocks {n : Nat} : ∀ {data : Bytes} (bitlen : UInt64) (state : HashState),
    data.length / 64 = n →
      data.foldl absorb ⟨[], bitlen, state, buffered_nil⟩ = absorbFrom bitlen state data := by
  induction n with
  | zero =>
      intro data bitlen state hn
      rw [foldl_absorb_short _ (by simp only [List.length_nil]; omega)]
      ext <;> simp [absorbFrom, hn, absorbBlocks]
  | succ n ih =>
      intro data bitlen state hn
      have htake : (data.take 64).length = 64 := by rw [List.length_take]; omega
      have hdrop : (data.drop 64).length / 64 = n := by rw [List.length_drop]; omega
      conv_lhs => rw [← List.take_append_drop 64 data]
      rw [List.foldl_append,
        foldl_absorb_fill ⟨[], bitlen, state, buffered_nil⟩ (by simpa using htake), ih _ _ hdrop]
      ext <;> simp only [absorbFrom, hn, hdrop, absorbBlocks, List.nil_append]

/-- The loops of `update` absorb the input byte by byte. -/
theorem update_eq_foldl (hasher : SHA256) (data : Bytes) :
    hasher.update data = data.foldl absorb hasher := by
  have hbuf := hasher.buffered
  rw [update]
  by_cases hdata : data = []
  · rw [if_pos hdata, hdata, List.foldl_nil]
  rw [if_neg hdata]
  by_cases hempty : hasher.buffer = []
  · rw [if_pos hempty, ← foldl_absorb_blocks _ _ rfl]
    congr 1
    ext <;> simp [hempty]
  rw [if_neg hempty]
  dsimp only
  by_cases hfill : data.length < 64 - hasher.buffer.length
  · rw [dif_pos hfill, foldl_absorb_short hasher (by omega)]
  · rw [dif_neg hfill, ← foldl_absorb_blocks _ _ rfl]
    conv_rhs => rw [← List.take_append_drop (64 - hasher.buffer.length) data]
    rw [List.foldl_append, foldl_absorb_fill hasher (by rw [List.length_take]; omega)]

/-- **Feeding two pieces is feeding their concatenation.** -/
theorem update_append (hasher : SHA256) (a b : Bytes) :
    (hasher.update a).update b = hasher.update (a ++ b) := by
  rw [update_eq_foldl, update_eq_foldl, update_eq_foldl, List.foldl_append]

lemma foldl_update (hasher : SHA256) (pieces : List Bytes) :
    pieces.foldl update hasher = hasher.update pieces.flatten := by
  induction pieces generalizing hasher with
  | nil => simp [update]
  | cons a pieces ih => rw [List.foldl_cons, ih, update_append, List.flatten_cons]

end SHA256

/-- `dfg::hash::sha256`. -/
def sha256 (data : Bytes) : Bytes := (SHA256.reset.update data).digest

/-- Hashing piece by piece, as the head does with the chunks of an upload. -/
lemma digest_foldl_update (pieces : List Bytes) :
    (pieces.foldl SHA256.update SHA256.reset).digest = sha256 pieces.flatten := by
  rw [SHA256.foldl_update, sha256]

/-! ## A digest is a word -/

lemma hexDigit_plain (n : UInt8) (h : n < 16) :
    isSpace (SHA256.hexDigit n) = false ∧ SHA256.hexDigit n ≠ 0 := by
  have hall : ∀ n : Fin 16, isSpace (SHA256.hexDigit (UInt8.ofNat n)) = false ∧
      SHA256.hexDigit (UInt8.ofNat n) ≠ 0 := by decide
  simpa using hall ⟨n.toNat, by simpa [UInt8.lt_iff_toNat_lt] using h⟩

lemma plain_of_mem_hexByte {b c : UInt8} (h : c ∈ SHA256.hexByte b) :
    isSpace c = false ∧ c ≠ 0 := by
  simp only [SHA256.hexByte, List.mem_cons, List.not_mem_nil, or_false] at h
  rcases h with rfl | rfl
  · refine hexDigit_plain _ ?_
    rw [UInt8.lt_iff_toNat_lt, UInt8.toNat_shiftRight]
    have := b.toNat_lt
    simp [Nat.shiftRight_eq_div_pow]
    omega
  · refine hexDigit_plain _ ?_
    rw [UInt8.lt_iff_toNat_lt, UInt8.toNat_and]
    exact lt_of_le_of_lt Nat.and_le_right (by decide)

lemma plain_of_mem_sha256 {data : Bytes} {c : UInt8} (h : c ∈ sha256 data) :
    isSpace c = false ∧ c ≠ 0 := by
  obtain ⟨b, -, hb⟩ := List.mem_flatMap.mp h
  exact plain_of_mem_hexByte hb

lemma length_sha256 (data : Bytes) : (sha256 data).length = 64 := by
  simp [sha256, SHA256.digest, SHA256.wordBytes, SHA256.hexByte]

/-- **A digest is one word of a protocol line.** -/
theorem word_sha256 (data : Bytes) : Word (sha256 data) := by
  refine ⟨by simp [sha256, SHA256.digest, SHA256.wordBytes, SHA256.hexByte], ?_⟩
  intro c hc
  exact (plain_of_mem_sha256 hc).1

set_option maxRecDepth 100000 in
example : sha256 (ascii "abc") =
    ascii "ba7816bf8f01cfea414140de5dae2223b00361a396177a9cb410ff61f20015ad" := by
  decide +kernel

end FileGrid
