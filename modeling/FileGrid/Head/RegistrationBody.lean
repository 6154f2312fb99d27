import FileGrid.Core.Quoted
import FileGrid.Head.Registration

/-!
# The body of a self-registration

A node that starts sends the head a text with its identifier, its address and its ports
(`self_register_with_head`), and the head takes it apart again with `extract_json_int` and
`extract_json_string`.  These do not parse: they look for the key in quotation marks anywhere in the
text, then for the next colon, and read what follows.

**What can be mistaken for a key** is a piece between two marks, and the only such piece that the
node chooses is its host.  Of the keys only `host` and `port` are host names, the others have an
underscore; `host` is looked for before the host comes, and if the host is `port`, the next colon
is still the one of the port.

* `extractJsonInt_eq`, `extractJsonString_eq` — the extractors, as a search for the rest of the text
  and not for positions in it.
* **`selfRegistration_decoded`** — the head reads what the node sent.
-/

namespace FileGrid

namespace ControlApi

/-- The key in quotation marks. -/
def quoted (key : String) : Bytes := 34 :: ascii key ++ [34]

lemma suffixAt_findFrom {needle s : Bytes} {pos : Nat} :
    (findFrom needle s pos).map (fun p => s.drop p) = suffixAt needle (s.drop pos) := by
  rw [findFrom, Option.map_map, suffixAt]
  congr 1
  funext p
  rw [Function.comp_apply, List.drop_drop, Nat.add_comm]

/-- **`extract_json_int`**: what stands after the colon that follows the key. -/
lemma extractJsonInt_eq (json : Bytes) (key : String) :
    extractJsonInt json key =
      (((suffixAt (quoted key) json).bind (suffixAt [58])).bind fun rest =>
        stoi ((rest.drop 1).dropWhile fun c => c = 32 ∨ c = 9)).getD 0 := by
  rw [extractJsonInt, suffixAt]
  have hneedle : ascii "\"" ++ ascii key ++ ascii "\"" = quoted key := rfl
  rw [hneedle]
  cases find (quoted key) json with
  | none => rfl
  | some pos =>
      simp only [Option.map_some, Option.bind_some, bind]
      rw [← suffixAt_findFrom]
      have hcolon : ascii ":" = [58] := rfl
      rw [hcolon]
      cases findFrom [58] json pos with
      | none => rfl
      | some pos => simp

/-- **`extract_json_string`**: what stands between the next two quotation marks. -/
lemma extractJsonString_eq (json : Bytes) (key : String) :
    extractJsonString json key =
      ((((suffixAt (quoted key) json).bind (suffixAt [58])).bind (suffixAt [34])).bind fun rest =>
        (find [34] (rest.drop 1)).map fun n => (rest.drop 1).take n).getD [] := by
  rw [extractJsonString, suffixAt]
  have hneedle : ascii "\"" ++ ascii key ++ ascii "\"" = quoted key := rfl
  have hcolon : ascii ":" = [58] := rfl
  have hmark : ascii "\"" = [34] := rfl
  rw [hneedle, hcolon, hmark]
  cases find (quoted key) json with
  | none => rfl
  | some pos =>
      simp only [Option.map_some, Option.bind_some, bind]
      rw [← suffixAt_findFrom]
      cases findFrom [58] json pos with
      | none => rfl
      | some pos =>
          simp only [Option.map_some, Option.bind_some]
          rw [← suffixAt_findFrom]
          cases findFrom [34] json pos with
          | none => rfl
          | some pos =>
              simp only [Option.map_some, Option.bind_some, List.drop_drop, findFrom]
              cases find [34] (json.drop (pos + 1)) with
              | none => rfl
              | some n =>
                  have hlen : n + (pos + 1) - pos - 1 = n := by omega
                  simp [substr, hlen]

/-! ## The text -/

/-- The body that `self_register_with_head` builds. -/
def selfRegisterBody (q : SelfRegistration) : Bytes :=
  FileGrid.selfRegisterBody q.serverId q.host q.port q.transferPort q.publicPort

/-- A number after its colon, up to the next key. -/
def numberPiece (n : Int) : Bytes := 58 :: dec n ++ [44]

lemma selfRegisterBody_eq (q : SelfRegistration) :
    selfRegisterBody q = separated 34 [123]
      [ascii "server_id", numberPiece q.serverId, ascii "host", [58], q.host, [44], ascii "port",
       numberPiece q.port, ascii "transfer_port", numberPiece q.transferPort, ascii "public_port",
       58 :: dec q.publicPort ++ [125]] := by
  have hid : ascii "\x7b\"server_id\":" = 123 :: 34 :: ascii "server_id" ++ [34, 58] := rfl
  have hhost : ascii ",\"host\":\"" = 44 :: 34 :: ascii "host" ++ [34, 58, 34] := rfl
  have hport : ascii "\",\"port\":" = 34 :: 44 :: 34 :: ascii "port" ++ [34, 58] := rfl
  have htransfer : ascii ",\"transfer_port\":" =
    44 :: 34 :: ascii "transfer_port" ++ [34, 58] := rfl
  have hpublic : ascii ",\"public_port\":" = 44 :: 34 :: ascii "public_port" ++ [34, 58] := rfl
  have hclose : ascii "\x7d" = [125] := rfl
  rw [selfRegisterBody, FileGrid.selfRegisterBody, hid, hhost, hport, htransfer, hpublic, hclose]
  simp only [separated, numberPiece, List.append_assoc, List.cons_append, List.nil_append]

/-- A non-empty host of letters, digits, dots and hyphens. -/
structure HostName (host : Bytes) : Prop where
  nonempty : host ≠ []
  bytes : ∀ b ∈ host, isDigit b = true ∨ (65 ≤ b.toNat ∧ b.toNat ≤ 90) ∨
    (97 ≤ b.toNat ∧ b.toNat ≤ 122) ∨ b = 46 ∨ b = 45

/-- The range of `int`. -/
def IsInt (n : Int) : Prop := -2 ^ 31 ≤ n ∧ n ≤ 2 ^ 31 - 1

/-- A registration of a node: numbers of `int`, and a host name. -/
structure Sendable (q : SelfRegistration) : Prop where
  serverId : IsInt q.serverId
  host : HostName q.host
  port : IsInt q.port
  transferPort : IsInt q.transferPort
  publicPort : IsInt q.publicPort

/-- No quotation mark, colon or underscore is part of a host name. -/
lemma HostName.notMem {host : Bytes} (h : HostName host) {b : UInt8}
    (hb : b = 34 ∨ b = 58 ∨ b = 95) : b ∉ host := by
  intro hmem
  have hbytes := h.bytes b hmem
  rcases hb with rfl | rfl | rfl <;> revert hbytes <;> decide

lemma notMem_dec {n : Int} {b : UInt8} (hb : b = 34 ∨ b = 58) : b ∉ dec n := by
  intro hmem
  have hbyte := mem_dec hmem
  rcases hb with rfl | rfl <;> revert hbyte <;> decide

lemma notMem_numberPiece (n : Int) : (34 : UInt8) ∉ numberPiece n := by
  have hdec := notMem_dec (n := n) (Or.inl rfl)
  simp [numberPiece, hdec]

lemma stoi_number {n : Int} (h : IsInt n) {c : UInt8} (hc : isDigit c = false) (s : Bytes) :
    stoi ((dec n ++ c :: s).dropWhile fun c => c = 32 ∨ c = 9) = some n := by
  have hblank : (dec n ++ c :: s).dropWhile (fun c => decide (c = 32 ∨ c = 9)) =
      dec n ++ c :: s := by
    obtain ⟨d, t, hdec, hd⟩ := dec_cons n
    rw [hdec, List.cons_append, List.dropWhile_cons_of_neg]
    rcases hd with hd | rfl
    · rintro hblank
      rcases of_decide_eq_true hblank with rfl | rfl <;> simp [isDigit] at hd
    · decide
  rw [hblank, stoi, readI32_dec h.1 h.2 (stops_cons s hc)]
  rfl

/-! ## What the head reads -/

lemma extractJsonInt_of_suffixAt {json before : Bytes} {key : String} {n : Int} {c : UInt8}
    {s : Bytes} (hfound : suffixAt (quoted key) json = some (before ++ 58 :: (dec n ++ c :: s)))
    (hcolon : (58 : UInt8) ∉ before) (hn : IsInt n) (hc : isDigit c = false) :
    extractJsonInt json key = n := by
  rw [extractJsonInt_eq, hfound, Option.bind_some, suffixAt_singleton hcolon, Option.bind_some,
    List.drop_one, List.tail_cons, stoi_number hn hc, Option.getD_some]

lemma extractJsonString_of_suffixAt {json before value : Bytes} {key : String} {s : Bytes}
    (hfound : suffixAt (quoted key) json = some (before ++ 58 :: 34 :: (value ++ 34 :: s)))
    (hcolon : (58 : UInt8) ∉ before) (hvalue : (34 : UInt8) ∉ value) :
    extractJsonString json key = value := by
  have hmark : suffixAt [34] (58 :: 34 :: (value ++ 34 :: s)) =
      some (34 :: (value ++ 34 :: s)) :=
    suffixAt_singleton (a := [58]) (by decide) _
  have hend : find [34] (value ++ 34 :: s) = some value.length := by
    have hnext := suffixAt_singleton hvalue s
    obtain ⟨n, hn, hdrop⟩ := Option.map_eq_some_iff.mp hnext
    have hlen := congrArg List.length hdrop
    have hshort : n ≤ (value ++ 34 :: s).length := by
      by_contra hlong
      rw [List.drop_eq_nil_of_le (by omega)] at hdrop
      cases hdrop
    simp only [List.length_drop, List.length_append, List.length_cons] at hlen hshort
    rw [hn]
    congr 1
    omega
  rw [extractJsonString_eq, hfound, Option.bind_some, suffixAt_singleton hcolon, Option.bind_some,
    hmark, Option.bind_some, List.drop_one, List.tail_cons, hend]
  simp

/-- What makes a key: neither a quotation mark nor a colon is part of it. -/
def PlainKey (key : String) : Prop := (34 : UInt8) ∉ ascii key ∧ (58 : UInt8) ∉ ascii key

instance (key : String) : Decidable (PlainKey key) := inferInstanceAs (Decidable (_ ∧ _))

/-- **The number after the first piece that is the key.** -/
lemma extractJsonInt_separated {key : String} (hkey : PlainKey key) {first : Bytes}
    (hfirst : (34 : UInt8) ∉ first) (passed : List Bytes)
    (hpassed : ∀ piece ∈ passed, (34 : UInt8) ∉ piece) (hother : ascii key ∉ passed) {n : Int}
    (hn : IsInt n) {c : UInt8} (hc : isDigit c = false) (pieces : List Bytes) :
    extractJsonInt (separated 34 first (passed ++ ascii key :: (58 :: dec n ++ [c]) :: pieces))
      key = n := by
  have hfound := suffixAt_separated_append hkey.1 hfirst passed hpassed hother
    (58 :: dec n ++ [c]) pieces
  obtain ⟨rest, hrest⟩ := exists_separated_eq 34 (58 :: dec n ++ [c]) pieces
  have hcolon : (58 : UInt8) ∉ quoted key := by simp [quoted, hkey.2]
  refine extractJsonInt_of_suffixAt (s := rest) (hfound.trans ?_) hcolon hn hc
  rw [separated, hrest]
  simp [quoted]

lemma ne_numberPiece {key : String} (hkey : PlainKey key) (n : Int) :
    ascii key ≠ numberPiece n := by
  intro heq
  exact hkey.2 (by rw [heq]; simp [numberPiece])

/-- A key with an underscore is no host name. -/
lemma HostName.ne {host key : Bytes} (h : HostName host) (hkey : (95 : UInt8) ∈ key) :
    key ≠ host := by
  rintro rfl
  exact h.notMem (Or.inr (Or.inr rfl)) hkey

section Decoding

variable {q : SelfRegistration} (hq : Sendable q)

include hq

/-- No piece before the last number has a quotation mark. -/
lemma notMem_pieces : ∀ piece ∈ [ascii "server_id", numberPiece q.serverId, ascii "host", [58],
    q.host, [44], ascii "port", numberPiece q.port, ascii "transfer_port",
    numberPiece q.transferPort], (34 : UInt8) ∉ piece := by
  have hhost := hq.host.notMem (Or.inl rfl)
  have hkeys : (34 : UInt8) ∉ ascii "server_id" ∧ (34 : UInt8) ∉ ascii "host" ∧
      (34 : UInt8) ∉ ascii "port" ∧ (34 : UInt8) ∉ ascii "transfer_port" := by decide +kernel
  simp [notMem_numberPiece, hhost, hkeys]

lemma serverId_decoded : extractJsonInt (selfRegisterBody q) "server_id" = q.serverId := by
  rw [selfRegisterBody_eq]
  exact extractJsonInt_separated (by decide +kernel) (by decide) [] (by simp) (by simp)
    hq.serverId rfl _

lemma host_decoded : extractJsonString (selfRegisterBody q) "host" = q.host := by
  rw [selfRegisterBody_eq]
  have hkey : PlainKey "host" := by decide +kernel
  have hbrace : (34 : UInt8) ∉ [(123 : UInt8)] := by decide
  have hother : ascii "host" ∉ [ascii "server_id", numberPiece q.serverId] := by
    have hid : ascii "host" ≠ ascii "server_id" := by decide +kernel
    simp [hid, ne_numberPiece hkey]
  have hfound := suffixAt_separated_append hkey.1 hbrace
    [ascii "server_id", numberPiece q.serverId]
    (fun piece hpiece => notMem_pieces hq piece (List.mem_append_left
      [ascii "host", [58], q.host, [44], ascii "port", _, ascii "transfer_port", _] hpiece))
    hother [58] [q.host, [44], ascii "port", numberPiece q.port, ascii "transfer_port",
      numberPiece q.transferPort, ascii "public_port", 58 :: dec q.publicPort ++ [125]]
  have hcolon : (58 : UInt8) ∉ quoted "host" := by decide +kernel
  obtain ⟨rest, hrest⟩ : ∃ rest, separated 34 q.host [[44], ascii "port", numberPiece q.port,
      ascii "transfer_port", numberPiece q.transferPort, ascii "public_port",
      58 :: dec q.publicPort ++ [125]] = q.host ++ 34 :: rest := ⟨_, rfl⟩
  refine extractJsonString_of_suffixAt (s := rest) (hfound.trans ?_) hcolon
    (hq.host.notMem (Or.inl rfl))
  rw [separated, separated, hrest]
  simp [quoted]

/-- If the host is `port`, it is found in place of the key; the next colon is the same. -/
lemma port_decoded : extractJsonInt (selfRegisterBody q) "port" = q.port := by
  rw [selfRegisterBody_eq]
  have hkey : PlainKey "port" := by decide +kernel
  have hbrace : (34 : UInt8) ∉ [(123 : UInt8)] := by decide
  have hother : ascii "port" ∉ [ascii "server_id", numberPiece q.serverId, ascii "host", [58]] := by
    have hkeys : ascii "port" ≠ ascii "server_id" ∧ ascii "port" ≠ ascii "host" ∧
        ascii "port" ≠ [58] := by decide +kernel
    simp [hkeys, ne_numberPiece hkey]
  have hpassed : ∀ piece ∈ [ascii "server_id", numberPiece q.serverId, ascii "host", [58]],
      (34 : UInt8) ∉ piece := fun piece hpiece => notMem_pieces hq piece
    (List.mem_append_left [q.host, [44], ascii "port", _, ascii "transfer_port", _] hpiece)
  by_cases hhost : ascii "port" = q.host
  · have hfound := suffixAt_separated_append hkey.1 hbrace _ hpassed hother
      [44] [ascii "port", numberPiece q.port, ascii "transfer_port",
        numberPiece q.transferPort, ascii "public_port", 58 :: dec q.publicPort ++ [125]]
    rw [← hhost]
    have hcolon : (58 : UInt8) ∉ quoted "port" ++ 44 :: quoted "port" := by decide +kernel
    obtain ⟨rest, hrest⟩ := exists_separated_eq 34 (numberPiece q.port)
      [ascii "transfer_port", numberPiece q.transferPort, ascii "public_port",
        58 :: dec q.publicPort ++ [125]]
    refine extractJsonInt_of_suffixAt (s := rest) (c := 44) (hfound.trans ?_) hcolon hq.port rfl
    rw [separated, separated, separated, hrest]
    simp [quoted, numberPiece]
  · refine extractJsonInt_separated hkey (by decide) [ascii "server_id", numberPiece q.serverId,
      ascii "host", [58], q.host, [44]] (fun piece hpiece => ?_) ?_ hq.port rfl _
    · exact notMem_pieces hq piece
        (List.mem_append_left [ascii "port", _, ascii "transfer_port", _] hpiece)
    · have hcomma : ascii "port" ≠ [44] := by decide +kernel
      simp only [List.mem_cons, not_or] at hother ⊢
      simp [hother, hhost, hcomma]

/-- The keys with an underscore are not among the pieces before the port. -/
lemma notMem_upTo_port {key : String} (hkey : PlainKey key) (hscore : (95 : UInt8) ∈ ascii key)
    (hid : ascii key ≠ ascii "server_id") :
    ascii key ∉ [ascii "server_id", numberPiece q.serverId, ascii "host", [58], q.host, [44],
      ascii "port", numberPiece q.port] := by
  have hwithout : ∀ piece : Bytes, (95 : UInt8) ∉ piece → ascii key ≠ piece := by
    rintro piece hpiece rfl
    exact hpiece hscore
  have hkeys : (95 : UInt8) ∉ ascii "host" ∧ (95 : UInt8) ∉ ascii "port" := by decide +kernel
  simp [hid, ne_numberPiece hkey, hwithout _ hkeys.1, hwithout _ hkeys.2, hwithout [58],
    hwithout [44], hq.host.ne hscore]

lemma transferPort_decoded :
    extractJsonInt (selfRegisterBody q) "transfer_port" = q.transferPort := by
  rw [selfRegisterBody_eq]
  have hkey : PlainKey "transfer_port" := by decide +kernel
  refine extractJsonInt_separated hkey (by decide) _ (fun piece hpiece => ?_)
    (notMem_upTo_port hq hkey (by decide +kernel) (by decide +kernel)) hq.transferPort rfl _
  exact notMem_pieces hq piece (List.mem_append_left [ascii "transfer_port", _] hpiece)

lemma publicPort_decoded : extractJsonInt (selfRegisterBody q) "public_port" = q.publicPort := by
  rw [selfRegisterBody_eq]
  have hkey : PlainKey "public_port" := by decide +kernel
  have hother := notMem_upTo_port hq hkey (by decide +kernel) (by decide +kernel)
  have htransfer : ascii "public_port" ≠ ascii "transfer_port" := by decide +kernel
  refine extractJsonInt_separated hkey (by decide) _ (notMem_pieces hq) ?_ hq.publicPort rfl []
  simp only [List.mem_cons, not_or] at hother ⊢
  simp [hother, htransfer, ne_numberPiece hkey]

end Decoding

/-- **The head reads what the node sent**: for numbers of `int` and any host name, the five values
that `handle_self_register` takes from the body are the ones the body was made of. -/
theorem selfRegistration_decoded (q : SelfRegistration) (hq : Sendable q) :
    selfRegistrationOf (selfRegisterBody q) = q := by
  rw [selfRegistrationOf, serverId_decoded hq, host_decoded hq, port_decoded hq,
    transferPort_decoded hq, publicPort_decoded hq]

/-- A host that is called like a key, and numbers at both ends of the range. -/
theorem selfRegistration_decoded_hostPort :
    let q : SelfRegistration := ⟨-2 ^ 31, ascii "port", 8080, 2 ^ 31 - 1, -1⟩
    Sendable q ∧ selfRegistrationOf (selfRegisterBody q) = q := by
  intro q
  have hq : Sendable q :=
    { serverId := by simp [q, IsInt]
      host := ⟨by decide +kernel, by decide +kernel⟩
      port := by simp [q, IsInt]
      transferPort := by simp [q, IsInt]
      publicPort := by simp [q, IsInt] }
  exact ⟨hq, selfRegistration_decoded q hq⟩

end ControlApi

end FileGrid
