import FileGrid.Common.HealthMonitor
import FileGrid.Common.ServerRegistry

/-!
# The datagrams of heartbeats

`heartbeat_receiver_thread` takes the bytes of a datagram apart: four bytes that say how long the
payload is, and the payload, which goes to the parser of protobuf.  The length is whatever the
sender claims, and the check of it is an addition in 32 bits, which a length of 2^32 - 4 or more
takes around; what is passed to the parser is an `int`.

* `received_iff` — which datagrams pass the check.
* `received_buildFrame` — the frame that `build_frame` makes of a payload passes it, and the parser
  is given the payload.
* **`heartbeat_framed_iff`** — the length that is passed is the one claimed, and lies within the
  datagram, exactly if the claim does not wrap around.
-/

namespace FileGrid

/-! ## Lengths of 32 bits -/

/-- The number that bytes are, the most significant one first. -/
def bigEndian (bytes : Bytes) : Nat := bytes.foldl (fun n b => n * 256 + b.toNat) 0

/-- `htonl`, as the bytes in memory. -/
def htonl (n : UInt32) : Bytes :=
  [n.toNat / 2 ^ 24, n.toNat / 2 ^ 16, n.toNat / 2 ^ 8, n.toNat].map UInt8.ofNat

/-- `ntohl`, of the bytes in memory. -/
def ntohl (bytes : Bytes) : UInt32 := UInt32.ofNat (bigEndian bytes)

lemma bigEndian_lt (bytes : Bytes) : bigEndian bytes < 256 ^ bytes.length := by
  induction bytes using List.reverseRecOn with
  | nil => simp [bigEndian]
  | append_singleton bytes b ih =>
      have hb := b.toNat_lt
      rw [bigEndian, List.foldl_append, List.foldl_cons, List.foldl_nil, ← bigEndian,
        List.length_append, List.length_singleton, pow_succ]
      omega

lemma bigEndian_htonl (n : UInt32) : bigEndian (htonl n) = n.toNat := by
  have hn := n.toNat_lt
  simp only [bigEndian, htonl, List.map_cons, List.map_nil, List.foldl_cons, List.foldl_nil,
    UInt8.toNat_ofNat']
  omega

lemma toNat_ntohl {bytes : Bytes} (h : bytes.length = 4) :
    (ntohl bytes).toNat = bigEndian bytes := by
  have hlt := bigEndian_lt bytes
  rw [h] at hlt
  rw [ntohl, UInt32.toNat_ofNat']
  omega

/-! ## Frames -/

/-- `build_frame`, of a heartbeat that is serialised. -/
def buildFrame (payload : Bytes) : Bytes := htonl (UInt32.ofNat payload.length) ++ payload

/-- A call of `ParseFromArray`: where in the buffer, and the length, an `int`. -/
structure ParseCall where
  offset : Nat
  size : Int
deriving DecidableEq

/-- The bytes of the datagram that the parser is given. -/
def ParseCall.bytes (call : ParseCall) (datagram : Bytes) : Bytes :=
  (datagram.drop call.offset).take call.size.toNat

/-- The part of `heartbeat_receiver_thread` before the parser: what the parser is called with, if
the datagram is not dropped. -/
def receiveDatagram (datagram : Bytes) : Option ParseCall :=
  let n := datagram.length
  if n < 4 then none
  else
    let msgLen := ntohl (datagram.take 4)
    -- `static_cast<size_t>(n) < 4 + msg_len`: the sum is one of `uint32_t`
    if n < (4 + msgLen).toNat then none
    else some { offset := 4, size := wrap32 msgLen.toNat }

/-- The fields of `heart_beat::v1::HeartBeat` that the head reads. -/
structure HeartBeat where
  serverId : Int
  ip : Bytes
  cpuUsage : ℚ
  ramUsage : ℚ
  diskUsage : ℚ
  networkIn : Bytes
  networkOut : Bytes
  networkInBytesPerSec : Nat
  networkOutBytesPerSec : Nat

/-! ## Which datagrams are parsed -/

/-- The length that the first four bytes claim. -/
def claimedLength (datagram : Bytes) : Nat := bigEndian (datagram.take 4)

lemma claimedLength_lt (datagram : Bytes) : claimedLength datagram < 2 ^ 32 := by
  have hlt := bigEndian_lt (datagram.take 4)
  have hpow : 256 ^ (datagram.take 4).length ≤ 256 ^ 4 :=
    Nat.pow_le_pow_right (by norm_num) (List.length_take_le 4 datagram)
  exact hlt.trans_le (hpow.trans (by norm_num))

/-- **Which datagrams pass the check**, and what the parser is then called with. -/
theorem received_iff {datagram : Bytes} {call : ParseCall} :
    receiveDatagram datagram = some call ↔
      4 ≤ datagram.length ∧ (4 + claimedLength datagram) % 2 ^ 32 ≤ datagram.length ∧
        call = { offset := 4, size := wrap32 (claimedLength datagram) } := by
  rw [receiveDatagram]
  dsimp only
  by_cases hshort : datagram.length < 4
  · rw [if_pos hshort]
    simp only [reduceCtorEq, false_iff]
    omega
  · have hclaimed : (ntohl (datagram.take 4)).toNat = claimedLength datagram :=
      toNat_ntohl (by rw [List.length_take]; omega)
    rw [if_neg hshort, UInt32.toNat_add, hclaimed]
    by_cases hlong : datagram.length < (4 + claimedLength datagram) % 2 ^ 32
    · rw [if_pos (by simpa using hlong)]
      simp only [reduceCtorEq, false_iff]
      omega
    · rw [if_neg (by simpa using hlong), Option.some_inj, eq_comm (a := ParseCall.mk _ _)]
      exact ⟨fun heq => ⟨by omega, by omega, heq⟩, fun h => h.2.2⟩

/-- **A frame is received**: the parser is given the payload. -/
theorem received_buildFrame {payload : Bytes} (h : payload.length ≤ 8188) :
    ∃ call, receiveDatagram (buildFrame payload) = some call ∧
      call = { offset := 4, size := payload.length } ∧
      call.bytes (buildFrame payload) = payload := by
  have hlength : (UInt32.ofNat payload.length).toNat = payload.length := by
    rw [UInt32.toNat_ofNat']
    omega
  have hclaimed : claimedLength (buildFrame payload) = payload.length := by
    have htake : (buildFrame payload).take 4 = htonl (UInt32.ofNat payload.length) :=
      List.take_left' rfl
    rw [claimedLength, htake, bigEndian_htonl, hlength]
  have hframe : (buildFrame payload).length = 4 + payload.length := by
    rw [buildFrame, List.length_append]
    rfl
  have hsize : wrap32 (payload.length : Nat) = payload.length :=
    wrap32_of_lt (by omega) (by omega)
  refine ⟨{ offset := 4, size := payload.length }, ?_, rfl, ?_⟩
  · rw [received_iff, hclaimed, hframe, hsize]
    refine ⟨by omega, ?_, rfl⟩
    rw [Nat.mod_eq_of_lt (by omega)]
  · have hdrop : (buildFrame payload).drop 4 = payload := List.drop_left' rfl
    rw [ParseCall.bytes, hdrop, Int.toNat_natCast, List.take_length]

/-! ## When a datagram is framed safely -/

/-- If the parser is called, the length that the datagram claims lies within it, and the parser is
given that many bytes after the first four. -/
def FramedSafely (datagram : Bytes) : Prop :=
  ∀ call, receiveDatagram datagram = some call →
    4 + claimedLength datagram ≤ datagram.length ∧
      call = { offset := 4, size := claimedLength datagram }

/-- One datagram. -/
lemma framedSafely_iff {datagram : Bytes} (h : datagram.length ≤ 8192) :
    FramedSafely datagram ↔ datagram.length < 4 ∨ claimedLength datagram < 2 ^ 32 - 4 := by
  have hlt := claimedLength_lt datagram
  constructor
  · intro hsafe
    by_contra hwraps
    rw [not_or, not_lt, not_lt] at hwraps
    -- the sum wraps around to less than 4, and the parser is called
    obtain ⟨hle, -⟩ := hsafe _ (received_iff.mpr ⟨hwraps.1, by omega, rfl⟩)
    omega
  · intro hclaim call hcall
    obtain ⟨hfour, hpasses, rfl⟩ := received_iff.mp hcall
    have hle : 4 + claimedLength datagram ≤ datagram.length := by omega
    exact ⟨hle, by rw [wrap32_of_lt (by omega) (by omega)]⟩

/-- **When heartbeats are framed safely**: a datagram is, exactly if it has no length or claims less
than 2^32 - 4; and the frame of every payload that fits is received as it was sent. -/
theorem heartbeat_framed_iff (datagram payload : Bytes) (hdatagram : datagram.length ≤ 8192)
    (hpayload : payload.length ≤ 8188) :
    (FramedSafely datagram ↔ datagram.length < 4 ∨ claimedLength datagram < 2 ^ 32 - 4) ∧
      ∃ call, receiveDatagram (buildFrame payload) = some call ∧
        call = { offset := 4, size := payload.length } ∧
        call.bytes (buildFrame payload) = payload :=
  ⟨framedSafely_iff hdatagram, received_buildFrame hpayload⟩

/-- A heartbeat of two bytes. -/
theorem heartbeat_framed_two :
    FramedSafely [0, 0, 0, 2, 8, 1] ∧
      ∃ call, receiveDatagram (buildFrame [8, 1]) = some call ∧
        call = { offset := 4, size := 2 } ∧ call.bytes (buildFrame [8, 1]) = [8, 1] := by
  obtain ⟨hsafe, hframe⟩ :=
    heartbeat_framed_iff [0, 0, 0, 2, 8, 1] [8, 1] (by decide) (by decide)
  exact ⟨hsafe.mpr (Or.inr (by decide)), hframe⟩

/-- **Four bytes make the parser read backwards**: the claimed length is 2^32 - 1, the sum is 3, and
the parser is called with a length of -1. -/
theorem length_wraps_around :
    receiveDatagram [255, 255, 255, 255] = some { offset := 4, size := -1 } ∧
      ¬FramedSafely [255, 255, 255, 255] := by
  have hcall : receiveDatagram [255, 255, 255, 255] = some { offset := 4, size := -1 } := by
    decide
  refine ⟨hcall, fun hsafe => ?_⟩
  exact absurd (hsafe _ hcall).1 (by decide)

end FileGrid
