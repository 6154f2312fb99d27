import Mathlib.Tactic
import Mathlib.Data.Nat.NthRoot.Defs

/-!
# SHA-256 as the standard has it

The hash function of FIPS 180-4, on messages of whole bytes, in the standard's own terms: words are
32-bit vectors, the schedule is the recurrence for `W_t`, and the constants are what the standard
says they are, the leading bits of the fractional parts of roots of primes.  Nothing here is meant
to be fast, and nothing here knows of a program.

A message is padded (`pad`), cut into 64-byte blocks (`blocks`), and the blocks are folded into the
state from the initial one (`hash`); `hexDigest` prints the result.

The lemmas are what a program that works block by block needs.

* `blocks_append` and `blocks_add` cut a text into blocks in two goes.
* `length_pad` — the padded text is whole blocks, one or two of them after those of the message.
* `schedule_of_lt`, `schedule_of_ge` — the recurrence.
-/

namespace FileGrid

namespace Fips180

/-! ## Functions and constants (sections 4.1.2, 4.2.2 and 5.3.3) -/

def ch (x y z : BitVec 32) : BitVec 32 := (x &&& y) ^^^ (~~~x &&& z)

def maj (x y z : BitVec 32) : BitVec 32 := (x &&& y) ^^^ (x &&& z) ^^^ (y &&& z)

def bigSigma0 (x : BitVec 32) : BitVec 32 :=
  x.rotateRight 2 ^^^ x.rotateRight 13 ^^^ x.rotateRight 22

def bigSigma1 (x : BitVec 32) : BitVec 32 :=
  x.rotateRight 6 ^^^ x.rotateRight 11 ^^^ x.rotateRight 25

def sigma0 (x : BitVec 32) : BitVec 32 := x.rotateRight 7 ^^^ x.rotateRight 18 ^^^ (x >>> 3)

def sigma1 (x : BitVec 32) : BitVec 32 := x.rotateRight 17 ^^^ x.rotateRight 19 ^^^ (x >>> 10)

/-- The first sixty-four primes. -/
def primes : List Nat := (List.range 312).filter Nat.Prime

/-- The first 32 bits of the fractional part of the `n`-th root of `p`. -/
def rootFraction (n p : Nat) : BitVec 32 := BitVec.ofNat 32 (Nat.nthRoot n (p * 2 ^ (32 * n)))

/-- The round constants: cube roots. -/
def roundConstants : List (BitVec 32) := primes.map (rootFraction 3)

/-- The eight words of a hash value, or the eight working variables. -/
@[ext]
structure State where
  (a b c d e f g h : BitVec 32)
deriving DecidableEq

/-- The initial hash value: square roots. -/
def initial : State :=
  ⟨rootFraction 2 2, rootFraction 2 3, rootFraction 2 5, rootFraction 2 7,
    rootFraction 2 11, rootFraction 2 13, rootFraction 2 17, rootFraction 2 19⟩

/-! ## The compression function (section 6.2.2) -/

/-- The `t`-th word of a block, big-endian. -/
def blockWord (block : List UInt8) (t : Nat) : BitVec 32 :=
  BitVec.ofNat 32 (2 ^ 24 * (block.getD (4 * t) 0).toNat + 2 ^ 16 * (block.getD (4 * t + 1) 0).toNat
    + 2 ^ 8 * (block.getD (4 * t + 2) 0).toNat + (block.getD (4 * t + 3) 0).toNat)

/-- The message schedule `W_t`. -/
def schedule (block : List UInt8) (t : Nat) : BitVec 32 :=
  if t < 16 then blockWord block t
  else
    sigma1 (schedule block (t - 2)) + schedule block (t - 7) + sigma0 (schedule block (t - 15)) +
      schedule block (t - 16)
termination_by t

lemma schedule_of_lt (block : List UInt8) {t : Nat} (h : t < 16) :
    schedule block t = blockWord block t := by
  rw [schedule, if_pos h]

lemma schedule_of_ge (block : List UInt8) {t : Nat} (h : 16 ≤ t) :
    schedule block t =
      sigma1 (schedule block (t - 2)) + schedule block (t - 7) +
        sigma0 (schedule block (t - 15)) + schedule block (t - 16) := by
  rw [schedule, if_neg (by omega)]

/-- One round, with its constant and its word. -/
def round (s : State) (k w : BitVec 32) : State :=
  let t1 := s.h + bigSigma1 s.e + ch s.e s.f s.g + k + w
  let t2 := bigSigma0 s.a + maj s.a s.b s.c
  ⟨t1 + t2, s.a, s.b, s.c, s.d + t1, s.e, s.f, s.g⟩

/-- The hash value after one more block. -/
def compress (s : State) (block : List UInt8) : State :=
  let r := (List.range 64).foldl (fun r t => round r (roundConstants.getD t 0) (schedule block t)) s
  ⟨s.a + r.a, s.b + r.b, s.c + r.c, s.d + r.d, s.e + r.e, s.f + r.f, s.g + r.g, s.h + r.h⟩

/-! ## Padding and parsing (sections 5.1.1 and 5.2.1) -/

/-- A length as a 64-bit big-endian integer. -/
def bigEndian64 (n : Nat) : List UInt8 :=
  [7, 6, 5, 4, 3, 2, 1, 0].map fun i => UInt8.ofNat (n / 256 ^ i)

/-- What is appended to a message of this length: the bit 1, zeros up to eight bytes before the end
of a block, and the length in bits. -/
def padding (length : Nat) : List UInt8 :=
  0x80 :: (List.replicate ((119 - length % 64) % 64) 0 ++ bigEndian64 (8 * length))

def pad (m : List UInt8) : List UInt8 := m ++ padding m.length

/-- The first `n` blocks of a text. -/
def blocks : Nat → List UInt8 → List (List UInt8)
  | 0, _ => []
  | n + 1, l => l.take 64 :: blocks n (l.drop 64)

/-- The hash value of a message. -/
def hash (m : List UInt8) : State :=
  (blocks ((pad m).length / 64) (pad m)).foldl compress initial

/-- A word as eight lower-case hexadecimal digits. -/
def hexWord (w : BitVec 32) : List UInt8 :=
  [7, 6, 5, 4, 3, 2, 1, 0].map fun i => UInt8.ofNat (Nat.digitChar (w.toNat / 16 ^ i % 16)).toNat

def State.hex (s : State) : List UInt8 :=
  [s.a, s.b, s.c, s.d, s.e, s.f, s.g, s.h].flatMap hexWord

/-- **The SHA-256 of a message**, in lower-case hexadecimal. -/
def hexDigest (m : List UInt8) : List UInt8 := (hash m).hex

/-! ## The primes, written out -/

/-- Below 324, a number that nothing up to 17 divides is prime. -/
lemma prime_iff {p : Nat} (h : p < 312) :
    p.Prime ↔ 2 ≤ p ∧ ∀ d ∈ List.range' 2 16, d < p → ¬ d ∣ p := by
  constructor
  · intro hp
    refine ⟨hp.two_le, fun d hd hlt hdvd => ?_⟩
    rw [List.mem_range'_1] at hd
    rcases hp.eq_one_or_self_of_dvd d hdvd with h1 | h1 <;> omega
  · rintro ⟨h2, hdiv⟩
    refine Nat.prime_def_le_sqrt.mpr ⟨h2, fun d hd hsqrt hdvd => ?_⟩
    have hsq : d * d ≤ p := Nat.le_sqrt.mp hsqrt
    exact hdiv d (List.mem_range'_1.mpr ⟨hd, by nlinarith⟩) (by nlinarith) hdvd

lemma primes_eq : primes =
    [2, 3, 5, 7, 11, 13, 17, 19, 23, 29, 31, 37, 41, 43, 47, 53, 59, 61, 67, 71, 73, 79, 83, 89, 97,
      101, 103, 107, 109, 113, 127, 131, 137, 139, 149, 151, 157, 163, 167, 173, 179, 181, 191, 193,
      197, 199, 211, 223, 227, 229, 233, 239, 241, 251, 257, 263, 269, 271, 277, 281, 283, 293, 307,
      311] := by
  have htest : primes = (List.range 312).filter fun p =>
      2 ≤ p ∧ ∀ d ∈ List.range' 2 16, d < p → ¬ d ∣ p :=
    List.filter_congr fun p hp => decide_eq_decide.mpr (prime_iff (List.mem_range.mp hp))
  rw [htest]
  decide +kernel

/-! ## Texts in whole blocks -/

lemma length_bigEndian64 (n : Nat) : (bigEndian64 n).length = 8 := rfl

lemma length_pad (m : List UInt8) :
    (pad m).length = 64 * (m.length / 64 + if m.length % 64 < 56 then 1 else 2) := by
  simp only [pad, padding, List.length_append, List.length_cons, List.length_replicate,
    length_bigEndian64]
  split_ifs <;> omega

/-- Blocks are cut off the front, so what follows them does not matter. -/
lemma blocks_append {n : Nat} {l : List UInt8} (h : 64 * n ≤ l.length) (rest : List UInt8) :
    blocks n (l ++ rest) = blocks n l := by
  induction n generalizing l with
  | zero => rfl
  | succ n ih =>
      rw [blocks, blocks, List.take_append_of_le_length (by omega),
        List.drop_append_of_le_length (by omega), ih (by rw [List.length_drop]; omega)]

lemma blocks_add (n k : Nat) (l : List UInt8) :
    blocks (n + k) l = blocks n l ++ blocks k (l.drop (64 * n)) := by
  induction n generalizing l with
  | zero => simp [blocks]
  | succ n ih =>
      rw [Nat.succ_add, blocks, blocks, ih, List.cons_append, List.drop_drop, Nat.mul_succ,
        Nat.add_comm 64]

lemma blocks_one {l : List UInt8} (h : l.length = 64) : blocks 1 l = [l] := by
  rw [blocks, blocks, List.take_of_length_le h.le]

lemma blocks_two {l l' : List UInt8} (h : l.length = 64) (h' : l'.length = 64) :
    blocks 2 (l ++ l') = [l, l'] := by
  rw [blocks, List.take_left' h, List.drop_left' h, blocks_one h']

end Fips180

end FileGrid
