import FileGrid.Common.Sha256
import FileGrid.Core.Fips180
import Mathlib.Data.List.GetD

/-!
# The hasher computes SHA-256

`dfg::hash::SHA256` works on machine words, keeps a block buffer and a bit counter, and pads in
place; the standard (`Fips180`) pads the whole message first and knows no buffer.

**Words.**  `HashState.standard` reads the eight machine words as bit vectors, and
`standard_transform` says that `transform` is the standard's compression of a 64-byte block.  The
schedule is the only loop of it that needs an invariant (`getD_extendSchedule`).

**Blocks.**  What `update` has consumed is in the state, and the rest is in the buffer, so
`finalize` hashes exactly the last blocks of the padded message (`standard_finalState`).

**Calls.**  `HashCall` is one call on an object; `fed` is what an object has been fed since it was
made or reset.  **`digest_correct`**: whatever the calls were, `digest` answers with the SHA-256
of what was fed.
-/

namespace FileGrid

/-! ## One block -/

/-- The machine words as bit vectors. -/
def HashState.standard (s : HashState) : Fips180.State :=
  ⟨s.a.toBitVec, s.b.toBitVec, s.c.toBitVec, s.d.toBitVec, s.e.toBitVec, s.f.toBitVec,
    s.g.toBitVec, s.h.toBitVec⟩

lemma standard_compressRound (s : HashState) (km : UInt32 × UInt32) :
    (compressRound s km).standard = Fips180.round s.standard km.1.toBitVec km.2.toBitVec := rfl

lemma roundConstants_eq : Fips180.roundConstants = sha256K.map (·.toBitVec) := by
  rw [Fips180.roundConstants, Fips180.primes_eq]
  decide +kernel

lemma standard_reset : SHA256.reset.state.standard = Fips180.initial := by decide +kernel

lemma toBitVec_bigEndian (x y z w : UInt8) :
    ((x.toUInt32 <<< 24) ||| (y.toUInt32 <<< 16) ||| (z.toUInt32 <<< 8) ||| w.toUInt32).toBitVec =
      BitVec.ofNat 32 (2 ^ 24 * x.toNat + 2 ^ 16 * y.toNat + 2 ^ 8 * z.toNat + w.toNat) := by
  have hx := x.toNat_lt
  have hy := y.toNat_lt
  have hz := z.toNat_lt
  have hw := w.toNat_lt
  have hsum : 2 ^ 24 * x.toNat + 2 ^ 16 * y.toNat + 2 ^ 8 * z.toNat + w.toNat =
      2 ^ 24 * x.toNat ||| (2 ^ 16 * y.toNat ||| (2 ^ 8 * z.toNat ||| w.toNat)) := by
    rw [← Nat.two_pow_add_eq_or_of_lt hw z.toNat,
      ← Nat.two_pow_add_eq_or_of_lt (show _ < 2 ^ 16 by omega) y.toNat,
      ← Nat.two_pow_add_eq_or_of_lt (show _ < 2 ^ 24 by omega) x.toNat]
    omega
  have hshift : ∀ n k : Nat, n < 2 ^ 8 → k ≤ 24 → n * 2 ^ k % 2 ^ 32 = 2 ^ k * n := by
    intro n k hn hk
    have hpow : 2 ^ k ≤ 2 ^ 24 := Nat.pow_le_pow_right (by norm_num) hk
    rw [Nat.mod_eq_of_lt (by nlinarith), Nat.mul_comm]
  refine BitVec.eq_of_toNat_eq ?_
  rw [BitVec.toNat_ofNat, Nat.mod_eq_of_lt (by omega), hsum,
    ← hshift _ 24 hx (by norm_num), ← hshift _ 16 hy (by norm_num), ← hshift _ 8 hz (by norm_num)]
  simp only [UInt32.toBitVec_or, BitVec.toNat_or, UInt32.toNat_toBitVec, UInt32.toNat_shiftLeft,
    UInt8.toNat_toUInt32, Nat.shiftLeft_eq, Nat.or_assoc]
  rfl

lemma length_loadWords : ∀ chunk : Bytes, (loadWords chunk).length = chunk.length / 4
  | x :: y :: z :: w :: rest => by
      simp only [loadWords, List.length_cons, length_loadWords rest]
      omega
  | [] => rfl
  | [_] => by simp [loadWords]
  | [_, _] => by simp [loadWords]
  | [_, _, _] => by simp [loadWords]

lemma getD_loadWords : ∀ {chunk : Bytes} {t : Nat}, 4 * t + 3 < chunk.length →
    ((loadWords chunk).getD t 0).toBitVec = Fips180.blockWord chunk t
  | x :: y :: z :: w :: rest, 0, _ => toBitVec_bigEndian x y z w
  | x :: y :: z :: w :: rest, t + 1, h => by
      simp only [List.length_cons] at h
      rw [loadWords, List.getD_cons_succ, getD_loadWords (by omega)]
      rfl

/-- **The loop that extends the schedule computes the recurrence.** -/
lemma getD_extendSchedule {block : Bytes} {n : Nat} : ∀ {m : List UInt32}, 16 ≤ m.length →
    (∀ t < m.length, (m.getD t 0).toBitVec = Fips180.schedule block t) →
    (extendSchedule n m).length = m.length + n ∧
      ∀ t < m.length + n, ((extendSchedule n m).getD t 0).toBitVec = Fips180.schedule block t := by
  induction n with
  | zero =>
      intro m _ hm
      exact ⟨rfl, hm⟩
  | succ n ih =>
      intro m hlen hm
      -- the word that is appended is the next one of the schedule
      have hnext : (sigma1 (m.getD (m.length - 2) 0) + m.getD (m.length - 7) 0 +
          sigma0 (m.getD (m.length - 15) 0) + m.getD (m.length - 16) 0).toBitVec =
          Fips180.schedule block m.length := by
        rw [Fips180.schedule_of_ge block hlen, ← hm _ (by omega), ← hm _ (by omega),
          ← hm _ (by omega), ← hm _ (by omega)]
        rfl
      have hstep := ih (m := m ++ [sigma1 (m.getD (m.length - 2) 0) + m.getD (m.length - 7) 0 +
          sigma0 (m.getD (m.length - 15) 0) + m.getD (m.length - 16) 0])
        (by rw [List.length_append]; omega)
        (fun t ht => by
          rw [List.length_append, List.length_singleton] at ht
          rcases Nat.lt_succ_iff_lt_or_eq.mp ht with ht | rfl
          · rw [List.getD_append _ _ _ _ ht, hm t ht]
          · rw [List.getD_append_right _ _ _ _ le_rfl, Nat.sub_self]
            exact hnext)
      rw [List.length_append, List.length_singleton, Nat.add_assoc, Nat.add_comm 1 n] at hstep
      exact hstep

lemma schedule_eq {chunk : Bytes} (h : chunk.length = 64) :
    (extendSchedule 48 (loadWords chunk)).length = 64 ∧
      ∀ t < 64, ((extendSchedule 48 (loadWords chunk)).getD t 0).toBitVec =
        Fips180.schedule chunk t := by
  have hlen : (loadWords chunk).length = 16 := by rw [length_loadWords, h]
  have hwords : ∀ t < (loadWords chunk).length,
      ((loadWords chunk).getD t 0).toBitVec = Fips180.schedule chunk t := by
    intro t ht
    rw [Fips180.schedule_of_lt chunk (by omega), getD_loadWords (by omega)]
  have hextend := getD_extendSchedule (n := 48) (by omega) hwords
  rw [hlen] at hextend
  exact hextend

/-- The rounds, with the schedule and the table of the source. -/
lemma standard_rounds {chunk : Bytes} {m : List UInt32}
    (hwords : ∀ t < 64, (m.getD t 0).toBitVec = Fips180.schedule chunk t) {ts : List Nat} :
    ∀ s : HashState, (∀ t ∈ ts, t < 64) →
      (ts.foldl (fun r t => compressRound r (sha256K.getD t 0, m.getD t 0)) s).standard =
        ts.foldl (fun r t => Fips180.round r (Fips180.roundConstants.getD t 0)
          (Fips180.schedule chunk t)) s.standard := by
  induction ts with
  | nil =>
      intro s _
      rfl
  | cons t ts ih =>
      intro s hts
      rw [List.foldl_cons, List.foldl_cons, ih _ fun u hu => hts u (List.mem_cons_of_mem _ hu),
        standard_compressRound, hwords t (hts t List.mem_cons_self), roundConstants_eq,
        show (0 : BitVec 32) = (0 : UInt32).toBitVec from rfl, List.getD_map]

/-- **`transform` is the compression function of the standard.** -/
theorem standard_transform (s : HashState) {chunk : Bytes} (h : chunk.length = 64) :
    (transform s chunk).standard = Fips180.compress s.standard chunk := by
  obtain ⟨hlen, hwords⟩ := schedule_eq h
  have hzip : sha256K.zip (extendSchedule 48 (loadWords chunk)) = (List.range 64).map fun t =>
      (sha256K.getD t 0, (extendSchedule 48 (loadWords chunk)).getD t 0) := by
    refine List.ext_getElem (by rw [List.length_zip, hlen, List.length_map]; rfl) ?_
    intro t ht ht'
    rw [List.length_map, List.length_range] at ht'
    rw [List.getElem_zip, List.getElem_map, List.getElem_range, List.getD_eq_getElem,
      List.getD_eq_getElem]
  rw [transform, hzip, List.foldl_map, Fips180.compress,
    ← standard_rounds hwords s fun t ht => List.mem_range.mp ht]
  generalize (List.range 64).foldl (fun r t => compressRound r
    (sha256K.getD t 0, (extendSchedule 48 (loadWords chunk)).getD t 0)) s = r
  rfl

/-! ## Whole blocks -/

namespace SHA256

lemma absorbBlocks_bitlen (n : Nat) (bitlen : UInt64) (state : HashState) (data : Bytes) :
    (absorbBlocks n bitlen state data).1 = bitlen + UInt64.ofNat (512 * n) := by
  induction n generalizing bitlen state data with
  | zero => simp [absorbBlocks]
  | succ n ih =>
      rw [absorbBlocks, ih, Nat.mul_succ, UInt64.ofNat_add, UInt64.add_assoc,
        UInt64.add_comm (UInt64.ofNat (512 * n))]
      rfl

lemma absorbBlocks_rest (n : Nat) (bitlen : UInt64) (state : HashState) (data : Bytes) :
    (absorbBlocks n bitlen state data).2.2 = data.drop (64 * n) := by
  induction n generalizing bitlen state data with
  | zero => simp [absorbBlocks]
  | succ n ih => rw [absorbBlocks, ih, List.drop_drop, Nat.mul_succ, Nat.add_comm]

lemma standard_absorbBlocks {n : Nat} (bitlen : UInt64) (state : HashState) {data : Bytes}
    (h : 64 * n ≤ data.length) :
    (absorbBlocks n bitlen state data).2.1.standard =
      (Fips180.blocks n data).foldl Fips180.compress state.standard := by
  induction n generalizing bitlen state data with
  | zero => rfl
  | succ n ih =>
      rw [absorbBlocks, ih _ _ (by rw [List.length_drop]; omega), Fips180.blocks, List.foldl_cons,
        standard_transform _ (by rw [List.length_take]; omega)]

/-- What a fresh hasher is after its input: whole blocks in the state, the rest in the buffer. -/
lemma update_reset (data : Bytes) : reset.update data = absorbFrom 0 reset.state data := by
  rw [update_eq_foldl, ← foldl_absorb_blocks 0 reset.state rfl]
  rfl

lemma lengthBytes_ofNat {n : Nat} (h : n < 2 ^ 64) :
    lengthBytes (UInt64.ofNat n) = Fips180.bigEndian64 n := by
  have hbyte : ∀ (i : UInt64) (j : Nat), i.toNat % 64 = 8 * j →
      ((UInt64.ofNat n) >>> i).toUInt8 = UInt8.ofNat (n / 256 ^ j) := by
    intro i j hij
    refine UInt8.toNat_inj.mp ?_
    rw [UInt64.toNat_toUInt8, UInt64.toNat_shiftRight, hij, UInt64.toNat_ofNat_of_lt' h,
      Nat.shiftRight_eq_div_pow, UInt8.toNat_ofNat', Nat.pow_mul]
  simp only [lengthBytes, Fips180.bigEndian64, List.map_cons, List.map_nil]
  rw [hbyte 56 7 rfl, hbyte 48 6 rfl, hbyte 40 5 rfl, hbyte 32 4 rfl, hbyte 24 3 rfl,
    hbyte 16 2 rfl, hbyte 8 1 rfl, hbyte 0 0 rfl]

lemma bits_eq {n : Nat} (h : n < 2 ^ 61) :
    lengthBytes (0 + UInt64.ofNat (512 * (n / 64)) + UInt64.ofNat (n % 64) * 8) =
      Fips180.bigEndian64 (8 * n) := by
  have hsum : 0 + UInt64.ofNat (512 * (n / 64)) + UInt64.ofNat (n % 64) * 8 =
      UInt64.ofNat (8 * n) := by
    rw [UInt64.zero_add, show (8 : UInt64) = UInt64.ofNat 8 from rfl, ← UInt64.ofNat_mul,
      ← UInt64.ofNat_add]
    congr 1
    omega
  rw [hsum, lengthBytes_ofNat (by omega)]

/-- **`finalize` hashes the last blocks of the padded message.** -/
theorem standard_finalState {data : Bytes} (h : data.length < 2 ^ 61) :
    (reset.update data).finalState.standard = Fips180.hash data := by
  have hrest : (data.drop (64 * (data.length / 64))).length = data.length % 64 := by
    rw [List.length_drop]
    omega
  -- the blocks before the last ones are in the state already
  have hblocks : ∀ k, (Fips180.blocks (data.length / 64 + k) (Fips180.pad data)).foldl
        Fips180.compress Fips180.initial =
      (Fips180.blocks k (data.drop (64 * (data.length / 64)) ++ Fips180.padding data.length)).foldl
        Fips180.compress
        (absorbBlocks (data.length / 64) 0 reset.state data).2.1.standard := by
    intro k
    rw [Fips180.blocks_add, List.foldl_append, Fips180.pad, Fips180.blocks_append (by omega),
      List.drop_append_of_le_length (by omega), standard_absorbBlocks _ _ (by omega),
      standard_reset]
  rw [update_reset, Fips180.hash, Fips180.length_pad, Nat.mul_div_cancel_left _ (by norm_num),
    hblocks]
  simp only [finalState, absorbFrom, absorbBlocks_rest, absorbBlocks_bitlen, hrest, bits_eq h]
  split_ifs with hshort
  · have hzeros : (119 - data.length % 64) % 64 = 55 - data.length % 64 := by omega
    have hlen : (data.drop (64 * (data.length / 64)) ++
        0x80 :: List.replicate (55 - data.length % 64) 0 ++
          Fips180.bigEndian64 (8 * data.length)).length = 64 := by
      simp only [List.length_append, List.length_cons, List.length_replicate, hrest,
        Fips180.length_bigEndian64]
      omega
    rw [Fips180.padding, hzeros, ← List.cons_append, ← List.append_assoc, Fips180.blocks_one hlen,
      List.foldl_cons, List.foldl_nil, standard_transform _ hlen]
  · -- the marker does not leave room for the length, which goes into a block of its own
    have hmod : data.length % 64 < 64 := Nat.mod_lt _ (by norm_num)
    have hzeros : (119 - data.length % 64) % 64 = (63 - data.length % 64) + 56 := by omega
    have hfirst : (data.drop (64 * (data.length / 64)) ++
        0x80 :: List.replicate (63 - data.length % 64) 0).length = 64 := by
      simp only [List.length_append, List.length_cons, List.length_replicate, hrest]
      omega
    have hsecond : (List.replicate 56 0 ++ Fips180.bigEndian64 (8 * data.length)).length = 64 := by
      rw [List.length_append, List.length_replicate, Fips180.length_bigEndian64]
    rw [Fips180.padding, hzeros, List.replicate_add, List.append_assoc, ← List.cons_append,
      ← List.append_assoc, Fips180.blocks_two hfirst hsecond, List.foldl_cons, List.foldl_cons,
      List.foldl_nil, standard_transform _ hsecond, standard_transform _ hfirst]

end SHA256

/-! ## The digits -/

namespace SHA256

lemma hexDigit_eq {n : UInt8} (h : n.toNat < 16) :
    hexDigit n = UInt8.ofNat (Nat.digitChar n.toNat).toNat := by
  have hall : ∀ k : Fin 16, hexDigit (UInt8.ofNat k) = UInt8.ofNat (Nat.digitChar k).toNat := by
    decide
  simpa using hall ⟨n.toNat, h⟩

lemma hexByte_eq (b : UInt8) :
    hexByte b = [UInt8.ofNat (Nat.digitChar (b.toNat / 16)).toNat,
      UInt8.ofNat (Nat.digitChar (b.toNat % 16)).toNat] := by
  have hb := b.toNat_lt
  have hhigh : (b >>> 4).toNat = b.toNat / 16 := by
    rw [UInt8.toNat_shiftRight, Nat.shiftRight_eq_div_pow]
    rfl
  have hlow : (b &&& 15).toNat = b.toNat % 16 := by
    rw [UInt8.toNat_and]
    exact Nat.and_two_pow_sub_one_eq_mod _ 4
  rw [hexByte, hexDigit_eq (by omega), hexDigit_eq (by omega), hhigh, hlow]

lemma flatMap_hexByte_wordBytes (w : UInt32) :
    (wordBytes w).flatMap hexByte = Fips180.hexWord w.toBitVec := by
  have hw := w.toNat_lt
  have hbyte : ∀ (i : UInt32) (k : Nat), i.toNat % 32 = k →
      (w >>> i).toUInt8.toNat = w.toNat / 2 ^ k % 256 := by
    intro i k hik
    rw [UInt32.toNat_toUInt8, UInt32.toNat_shiftRight, hik, Nat.shiftRight_eq_div_pow]
  simp only [wordBytes, List.flatMap_cons, List.flatMap_nil, hexByte_eq, hbyte 24 24 rfl,
    hbyte 16 16 rfl, hbyte 8 8 rfl, UInt32.toNat_toUInt8, Fips180.hexWord, List.map_cons,
    List.map_nil, List.cons_append, List.nil_append, UInt32.toNat_toBitVec]
  have h7 : w.toNat / 2 ^ 24 % 256 / 16 = w.toNat / 16 ^ 7 % 16 := by omega
  have h6 : w.toNat / 2 ^ 24 % 256 % 16 = w.toNat / 16 ^ 6 % 16 := by omega
  have h5 : w.toNat / 2 ^ 16 % 256 / 16 = w.toNat / 16 ^ 5 % 16 := by omega
  have h4 : w.toNat / 2 ^ 16 % 256 % 16 = w.toNat / 16 ^ 4 % 16 := by omega
  have h3 : w.toNat / 2 ^ 8 % 256 / 16 = w.toNat / 16 ^ 3 % 16 := by omega
  have h2 : w.toNat / 2 ^ 8 % 256 % 16 = w.toNat / 16 ^ 2 % 16 := by omega
  have h1 : w.toNat % 256 / 16 = w.toNat / 16 ^ 1 % 16 := by omega
  have h0 : w.toNat % 256 % 16 = w.toNat / 16 ^ 0 % 16 := by omega
  rw [h7, h6, h5, h4, h3, h2, h1, h0]

/-- `digest` prints the final state as the standard's hash is printed. -/
lemma digest_eq (hasher : SHA256) : hasher.digest = hasher.finalState.standard.hex := by
  simp only [digest, List.flatMap_assoc, flatMap_hexByte_wordBytes]
  rfl

end SHA256

/-! ## Calls -/

/-- A call on an object. -/
inductive HashCall
  | update (data : Bytes)
  | digest
  | reset

namespace HashCall

/-- The object after the call, and what the call returns. -/
def run (hasher : SHA256) : HashCall → SHA256 × Option Bytes
  | .update data => (hasher.update data, none)
  | .digest => (hasher, some hasher.digest)
  | .reset => (SHA256.reset, none)

/-- A new object after some calls; the constructor resets it. -/
def object (calls : List HashCall) : SHA256 :=
  calls.foldl (fun hasher call => (call.run hasher).1) SHA256.reset

/-- What is fed to the object by one more call. -/
def feed (fed : Bytes) : HashCall → Bytes
  | .update data => fed ++ data
  | .digest => fed
  | .reset => []

/-- What an object has been fed since it was made or last reset. -/
def fed (calls : List HashCall) : Bytes := calls.foldl feed []

/-- One call keeps "the object is a fresh one that was fed this". -/
lemma run_update (data : Bytes) (call : HashCall) :
    (call.run (SHA256.reset.update data)).1 = SHA256.reset.update (feed data call) := by
  cases call with
  | update piece => exact SHA256.update_append _ _ _
  | digest => rfl
  | reset => rfl

lemma object_eq (calls : List HashCall) : object calls = SHA256.reset.update (fed calls) := by
  have hrun : ∀ data, calls.foldl (fun hasher call => (run hasher call).1)
      (SHA256.reset.update data) = SHA256.reset.update (calls.foldl feed data) := by
    induction calls with
    | nil =>
        intro data
        rfl
    | cons call calls ih =>
        intro data
        rw [List.foldl_cons, run_update, ih, List.foldl_cons]
  exact hrun []

end HashCall

/-- **`digest` answers with the SHA-256 of what the object was fed**, in however many pieces and
with whatever calls of `digest` and `reset` in between. -/
theorem digest_correct (calls : List HashCall) (h : (HashCall.fed calls).length < 2 ^ 61) :
    (HashCall.digest.run (HashCall.object calls)).2 =
      some (Fips180.hexDigest (HashCall.fed calls)) := by
  rw [HashCall.object_eq, HashCall.run, SHA256.digest_eq, SHA256.standard_finalState h]
  rfl

/-- Two pieces, with a reset before and a digest between. -/
theorem digest_correct_abc :
    (HashCall.digest.run (HashCall.object [.update (ascii "x"), .reset, .update (ascii "a"),
      .digest, .update (ascii "bc")])).2 = some (Fips180.hexDigest (ascii "abc")) :=
  digest_correct [.update (ascii "x"), .reset, .update (ascii "a"), .digest, .update (ascii "bc")]
    (by decide)

end FileGrid
