import FileGrid.Core.Map

/-!
# A store of hashes with expiry

What a Redis server is to a program that only keeps hashes in it: keys, each with a map of fields
and perhaps a time at which it expires, and a clock in milliseconds.

* `HSET` merges fields into a hash and makes the hash if it is missing; `HDEL` takes a field out,
  and the key with its last field; `DEL` takes the key out; neither `HSET` nor `HDEL` touches the
  expiry of a key that stays.
* `EXPIRE` sets the expiry of a key that is there; `elapse` lets time pass and drops what is due.
* `HGETALL` and `SCAN` read.

A hash without fields is no key, so `StoredHash` carries that it has one.  Each command has one
lemma that says what `HGETALL` finds after it, and one for the expiry.

A script is read one key at a time: `hgetall_foldl_exec` says that a key sees the commands that are
about it and no others, and `expiry_foldl_exec_spares` that a field the script spares keeps its key.

A client may lose the connection at any command.  `execAll` runs a script up to the first command
that fails, whether that command took effect or not, and `execAll_eq` says that this is a prefix of
the script.
-/

namespace FileGrid

/-- A hash that is there: it has a field. -/
structure StoredHash (F V : Type) [Ord F] where
  fields : Map F V
  expireAt : Option Nat
  nonempty : fields.isEmpty = false

structure HashStore (K F V : Type) [Ord K] [Ord F] where
  now : Nat := 0
  hashes : Map K (StoredHash F V) := ∅

inductive HashCommand (K F V : Type)
  | hset (key : K) (fields : List (F × V))
  | hdel (key : K) (field : F)
  | del (key : K)
  | expire (key : K) (seconds : Nat)

/-- How a command ends for the client: it is answered; it fails and had no effect; or it took effect
and the answer was lost. -/
inductive CommandOutcome
  | answered
  | failed
  | unanswered
deriving DecidableEq

namespace HashStore

variable {K F V : Type} [Ord K] [Std.TransOrd K] [Ord F] [Std.TransOrd F]

/-! ## Commands -/

/-- `HGETALL`; a key that is not there has no fields. -/
def hgetall (s : HashStore K F V) (key : K) : Map F V :=
  ((s.hashes[key]?).map (·.fields)).getD ∅

def expiry (s : HashStore K F V) (key : K) : Option Nat := (s.hashes[key]?).bind (·.expireAt)

/-- `SCAN`, to its end. -/
def scan (s : HashStore K F V) : List K := s.hashes.toList.map (·.1)

/-- The fields of a key are replaced. -/
def setFields (s : HashStore K F V) (key : K) (fields : Map F V) : HashStore K F V :=
  if h : fields.isEmpty = true then { s with hashes := s.hashes.erase key }
  else
    let hash : StoredHash F V :=
      { fields, expireAt := s.expiry key, nonempty := Bool.eq_false_of_not_eq_true h }
    { s with hashes := s.hashes.insert key hash }

def exec (s : HashStore K F V) : HashCommand K F V → HashStore K F V
  | .hset key fields =>
      s.setFields key (fields.foldl (fun h p => h.insert p.1 p.2) (s.hgetall key))
  | .hdel key field => s.setFields key ((s.hgetall key).erase field)
  | .del key => { s with hashes := s.hashes.erase key }
  | .expire key seconds =>
      { s with hashes := s.hashes.modify key fun h =>
          { h with expireAt := some (s.now + 1000 * seconds) } }

/-- Time passes, in milliseconds. -/
def elapse (s : HashStore K F V) (time : Nat) : HashStore K F V :=
  { now := s.now + time
    hashes := s.hashes.filter fun _ h => h.expireAt.all (s.now + time < ·) }

/-- A script, up to the first command that fails. -/
def execAll (s : HashStore K F V) :
    List (HashCommand K F V) → List CommandOutcome → HashStore K F V
  | [], _ => s
  | c :: cs, os =>
      match os.headD .answered with
      | .answered => execAll (s.exec c) cs os.tail
      | .failed => s
      | .unanswered => s.exec c

/-- How many of `n` commands take effect. -/
def executed : Nat → List CommandOutcome → Nat
  | 0, _ => 0
  | n + 1, os =>
      match os.headD .answered with
      | .answered => executed n os.tail + 1
      | .failed => 0
      | .unanswered => 1

/-- **What takes effect of a script is a prefix of it.** -/
theorem execAll_eq (s : HashStore K F V) (cs : List (HashCommand K F V))
    (os : List CommandOutcome) :
    s.execAll cs os = (cs.take (executed cs.length os)).foldl exec s := by
  induction cs generalizing s os with
  | nil => simp [execAll]
  | cons c cs ih =>
      rw [execAll, List.length_cons, executed]
      cases os.headD .answered with
      | answered => simp [ih]
      | failed => simp
      | unanswered => simp

lemma executed_nil (n : Nat) : executed n [] = n := by
  induction n with
  | zero => rfl
  | succ n ih => simp [executed, ih]

/-- A script none of whose commands fails. -/
lemma execAll_nil (s : HashStore K F V) (cs : List (HashCommand K F V)) :
    s.execAll cs [] = cs.foldl exec s := by
  rw [execAll_eq, executed_nil, List.take_length]

/-! ## What is found after a command -/

variable [Std.LawfulEqOrd K] [DecidableEq K]

@[simp] lemma hgetall_setFields (s : HashStore K F V) (key k : K) (fields : Map F V) :
    (s.setFields key fields).hgetall k = if k = key then fields else s.hgetall k := by
  unfold setFields
  split_ifs with hempty hk hk
  · simp [hgetall, hk, Std.ExtTreeMap.isEmpty_iff.mp hempty]
  · simp [hgetall, hk]
  · simp [hgetall, hk]
  · simp [hgetall, hk]

omit [Std.TransOrd F] [Std.LawfulEqOrd K] [DecidableEq K] in
/-- A hash that is there has a field, and the other way round. -/
lemma isEmpty_hgetall {s : HashStore K F V} {key : K} :
    (s.hgetall key).isEmpty = true ↔ s.hashes[key]? = none := by
  unfold hgetall
  cases h : s.hashes[key]? with
  | none => simp
  | some hash => simp [hash.nonempty]

omit [Std.TransOrd F] [DecidableEq K] in
lemma mem_scan {s : HashStore K F V} {key : K} :
    key ∈ s.scan ↔ (s.hgetall key).isEmpty = false := by
  rw [← Bool.not_eq_true, isEmpty_hgetall]
  simp only [scan, List.mem_map, Prod.exists, Map.mem_toList, exists_and_right, exists_eq_right]
  exact Option.ne_none_iff_exists'.symm

lemma expiry_setFields (s : HashStore K F V) (key k : K) (fields : Map F V) :
    (s.setFields key fields).expiry k =
      if k = key ∧ fields.isEmpty = true then none else s.expiry k := by
  unfold setFields
  by_cases hempty : fields.isEmpty = true
  · rw [dif_pos hempty]
    by_cases hk : k = key
    · simp [expiry, hk, hempty]
    · simp [expiry, hk]
  · rw [dif_neg hempty]
    by_cases hk : k = key
    · simp [expiry, hk, hempty]
    · simp [expiry, hk]

omit [Std.LawfulEqOrd K] [DecidableEq K] in
@[simp] lemma now_exec (s : HashStore K F V) (c : HashCommand K F V) : (s.exec c).now = s.now := by
  cases c with
  | hset key fields => simp only [exec, setFields]; split_ifs <;> rfl
  | hdel key field => simp only [exec, setFields]; split_ifs <;> rfl
  | del key => rfl
  | expire key seconds => rfl

/-! ### `HSET` -/

@[simp] lemma hgetall_hset (s : HashStore K F V) (key k : K) (fields : List (F × V)) :
    (s.exec (.hset key fields)).hgetall k =
      if k = key then fields.foldl (fun h p => h.insert p.1 p.2) (s.hgetall key)
      else s.hgetall k := by
  simp [exec]

lemma isEmpty_foldl_insert (fields : List (F × V)) (h : Map F V) :
    (fields.foldl (fun h p => h.insert p.1 p.2) h).isEmpty = true →
      h.isEmpty = true := by
  induction fields generalizing h with
  | nil => exact id
  | cons p fields ih =>
      intro hempty
      have hinsert := ih _ hempty
      simp at hinsert

@[simp] lemma expiry_hset (s : HashStore K F V) (key k : K) (fields : List (F × V)) :
    (s.exec (.hset key fields)).expiry k = s.expiry k := by
  simp only [exec, expiry_setFields]
  split_ifs with hempty
  · -- there was no such key
    have hnone := isEmpty_hgetall.mp (isEmpty_foldl_insert _ _ hempty.2)
    rw [expiry, hempty.1, hnone]
    rfl
  · rfl

/-! ### `HDEL` and `DEL` -/

@[simp] lemma hgetall_hdel (s : HashStore K F V) (key k : K) (field : F) :
    (s.exec (.hdel key field)).hgetall k =
      if k = key then (s.hgetall key).erase field else s.hgetall k := by
  simp [exec]

lemma expiry_hdel (s : HashStore K F V) (key k : K) (field : F) :
    (s.exec (.hdel key field)).expiry k =
      if k = key ∧ ((s.hgetall key).erase field).isEmpty = true then none else s.expiry k := by
  simp only [exec, expiry_setFields]

@[simp] lemma hgetall_del (s : HashStore K F V) (key k : K) :
    (s.exec (.del key)).hgetall k = if k = key then ∅ else s.hgetall k := by
  simp only [exec, hgetall, Map.get_erase]
  split_ifs <;> rfl

/-! ### `EXPIRE` and the passage of time -/

@[simp] lemma hgetall_expire (s : HashStore K F V) (key k : K) (seconds : Nat) :
    (s.exec (.expire key seconds)).hgetall k = s.hgetall k := by
  simp only [exec, hgetall, Map.get_modify]
  split_ifs with hk
  · subst hk
    simp only [Option.map_map]
    rfl
  · rfl

lemma expiry_expire (s : HashStore K F V) (key k : K) (seconds : Nat) :
    (s.exec (.expire key seconds)).expiry k =
      if k = key ∧ (s.hgetall key).isEmpty = false then some (s.now + 1000 * seconds)
      else s.expiry k := by
  simp only [exec, expiry, Map.get_modify, ← Bool.not_eq_true, isEmpty_hgetall]
  by_cases hk : k = key
  · subst hk
    cases s.hashes[k]? <;> simp
  · simp [hk]

omit [Std.TransOrd F] [DecidableEq K] in
lemma hashes_elapse {s : HashStore K F V} {key : K} {time : Nat}
    (h : ∀ e, s.expiry key = some e → s.now + time < e) :
    (s.elapse time).hashes[key]? = s.hashes[key]? := by
  simp only [elapse, Std.ExtTreeMap.getElem?_filter']
  cases hkey : s.hashes[key]? with
  | none => rfl
  | some hash =>
      rw [Option.filter_eq_some_iff]
      refine ⟨rfl, ?_⟩
      cases hexpire : hash.expireAt with
      | none => rfl
      | some e => simpa using h e (by simp [expiry, hkey, hexpire])

omit [Std.TransOrd F] [DecidableEq K] in
lemma hgetall_elapse {s : HashStore K F V} {key : K} {time : Nat}
    (h : ∀ e, s.expiry key = some e → s.now + time < e) :
    (s.elapse time).hgetall key = s.hgetall key := by
  rw [hgetall, hashes_elapse h, hgetall]

omit [Std.TransOrd F] [DecidableEq K] in
lemma expiry_elapse {s : HashStore K F V} {key : K} {time : Nat}
    (h : ∀ e, s.expiry key = some e → s.now + time < e) :
    (s.elapse time).expiry key = s.expiry key := by
  rw [expiry, hashes_elapse h, expiry]

omit [Std.TransOrd F] [DecidableEq K] in
/-- A key that is due is gone. -/
lemma hgetall_elapse_of_due {s : HashStore K F V} {key : K} {time e : Nat}
    (h : s.expiry key = some e) (hdue : e ≤ s.now + time) : (s.elapse time).hgetall key = ∅ := by
  obtain ⟨hash, hkey, hexpire⟩ := Option.bind_eq_some_iff.mp h
  have hgone : (s.elapse time).hashes[key]? = none := by
    simp only [elapse, Std.ExtTreeMap.getElem?_filter', hkey, Option.filter_some, hexpire,
      Option.all_some, decide_eq_true_eq, if_neg (Nat.not_lt.mpr hdue)]
  rw [hgetall, hgone]
  rfl

omit [DecidableEq K] in
/-- Time brings no field back. -/
lemma get_elapse_eq_none {s : HashStore K F V} {key : K} {field : F}
    (h : (s.hgetall key)[field]? = none) (time : Nat) :
    ((s.elapse time).hgetall key)[field]? = none := by
  cases hexpiry : s.expiry key with
  | none => rw [hgetall_elapse (by simp [hexpiry]), h]
  | some e =>
      by_cases hdue : e ≤ s.now + time
      · simp [hgetall_elapse_of_due hexpiry hdue]
      · rw [hgetall_elapse (by rw [hexpiry]; rintro e' he'; cases he'; omega), h]

end HashStore

/-! ## Scripts -/

namespace HashCommand

variable {K F V : Type} [Ord F] [Std.TransOrd F]

def key : HashCommand K F V → K
  | .hset key _ => key
  | .hdel key _ => key
  | .del key => key
  | .expire key _ => key

/-- What a command makes of the fields of its key. -/
def applyTo (h : Map F V) : HashCommand K F V → Map F V
  | .hset _ fields => fields.foldl (fun h p => h.insert p.1 p.2) h
  | .hdel _ field => h.erase field
  | .del _ => ∅
  | .expire _ _ => h

/-- The command does not touch this field. -/
def Keeps (field : F) : HashCommand K F V → Prop
  | .hset _ fields => field ∉ fields.map (·.1)
  | .hdel _ field' => field' ≠ field
  | .del _ => False
  | .expire _ _ => True

/-- The command does not touch this field, and no expiry. -/
def Spares (field : F) : HashCommand K F V → Prop
  | .expire _ _ => False
  | c => c.Keeps field

omit [Ord F] [Std.TransOrd F] in
lemma Spares.keeps {field : F} {c : HashCommand K F V} (h : c.Spares field) : c.Keeps field := by
  cases c with
  | expire key seconds => trivial
  | _ => exact h

end HashCommand

namespace HashStore

variable {K F V : Type} [Ord K] [Std.TransOrd K] [Ord F] [Std.TransOrd F] [Std.LawfulEqOrd K]
  [DecidableEq K]

lemma hgetall_exec (s : HashStore K F V) (c : HashCommand K F V) (k : K) :
    (s.exec c).hgetall k = if c.key = k then c.applyTo (s.hgetall k) else s.hgetall k := by
  by_cases hk : c.key = k
  · subst hk
    cases c <;> simp [HashCommand.key, HashCommand.applyTo]
  · cases c <;> simp [HashCommand.key] at hk ⊢ <;> simp [hk, Ne.symm hk]

/-- **A key sees the commands that are about it**, in their order. -/
theorem hgetall_foldl_exec (cs : List (HashCommand K F V)) (s : HashStore K F V) (k : K) :
    (cs.foldl exec s).hgetall k =
      (cs.filter (·.key = k)).foldl HashCommand.applyTo (s.hgetall k) := by
  induction cs generalizing s with
  | nil => rfl
  | cons c cs ih =>
      rw [List.foldl_cons, ih, hgetall_exec]
      by_cases hk : c.key = k
      · simp [hk]
      · simp [hk]

omit [Std.LawfulEqOrd K] [DecidableEq K] in
lemma now_foldl_exec (cs : List (HashCommand K F V)) (s : HashStore K F V) :
    (cs.foldl exec s).now = s.now := by
  induction cs generalizing s with
  | nil => rfl
  | cons c cs ih => rw [List.foldl_cons, ih, now_exec]

lemma hashes_exec_of_ne {s : HashStore K F V} {c : HashCommand K F V} {k : K} (h : c.key ≠ k) :
    (s.exec c).hashes[k]? = s.hashes[k]? := by
  have hset : ∀ (key : K) (fields : Map F V), key ≠ k →
      (s.setFields key fields).hashes[k]? = s.hashes[k]? := by
    intro key fields hne
    simp only [setFields]
    split_ifs
    · simp [Ne.symm hne]
    · simp [Ne.symm hne]
  cases c with
  | hset key fields => exact hset key _ h
  | hdel key field => exact hset key _ h
  | del key => exact (Map.get_erase _ _ _).trans (if_neg (Ne.symm h))
  | expire key seconds => exact (Map.get_modify _ _ _ _).trans (if_neg (Ne.symm h))

lemma hashes_foldl_exec_of_ne {cs : List (HashCommand K F V)} {k : K} (h : ∀ c ∈ cs, c.key ≠ k)
    (s : HashStore K F V) : (cs.foldl exec s).hashes[k]? = s.hashes[k]? := by
  induction cs generalizing s with
  | nil => rfl
  | cons c cs ih =>
      rw [List.foldl_cons, ih fun c hc => h c (List.mem_cons_of_mem _ hc),
        hashes_exec_of_ne (h c List.mem_cons_self)]

section

variable [Std.LawfulEqOrd F] [DecidableEq F]

lemma get_exec_keeps {c : HashCommand K F V} {field : F} (h : c.Keeps field) (s : HashStore K F V)
    (k : K) : ((s.exec c).hgetall k)[field]? = (s.hgetall k)[field]? := by
  rw [hgetall_exec]
  split_ifs
  · cases c with
    | hset key fields => exact Map.get_foldl_insert_of_notMem h _
    | hdel key field' => exact (Map.get_erase _ _ _).trans (if_neg (Ne.symm h))
    | del key => exact h.elim
    | expire key seconds => rfl
  · rfl

/-- **A script that does not touch a field** leaves it as it is. -/
theorem get_foldl_exec_keeps {cs : List (HashCommand K F V)} {field : F}
    (h : ∀ c ∈ cs, c.Keeps field) (s : HashStore K F V) (k : K) :
    ((cs.foldl exec s).hgetall k)[field]? = (s.hgetall k)[field]? := by
  induction cs generalizing s with
  | nil => rfl
  | cons c cs ih =>
      rw [List.foldl_cons, ih fun c hc => h c (List.mem_cons_of_mem _ hc),
        get_exec_keeps (h c List.mem_cons_self)]

/-- **If it sets no expiry either, a key that has the field stays**, and expires when it did. -/
theorem expiry_foldl_exec_spares {cs : List (HashCommand K F V)} {field : F}
    (h : ∀ c ∈ cs, c.Spares field) (s : HashStore K F V) {k : K}
    (hsome : ((s.hgetall k)[field]?).isSome) : (cs.foldl exec s).expiry k = s.expiry k := by
  induction cs generalizing s with
  | nil => rfl
  | cons c cs ih =>
      have hspares := h c List.mem_cons_self
      have hsame := get_exec_keeps hspares.keeps s k
      rw [List.foldl_cons, ih (fun c hc => h c (List.mem_cons_of_mem _ hc)) _ (by rwa [hsame])]
      cases c with
      | hset key fields => exact expiry_hset s key k fields
      | hdel key field' =>
          rw [expiry_hdel, if_neg]
          rintro ⟨rfl, hempty⟩
          rw [hgetall_hdel, if_pos rfl, Std.ExtTreeMap.isEmpty_iff.mp hempty] at hsame
          rw [← hsame] at hsome
          simp at hsome
      | del key => exact hspares.elim
      | expire key seconds => exact hspares.elim

end

/-- A script that only takes fields out. -/
lemma get_foldl_hdel [Std.LawfulEqOrd F] [DecidableEq F] (ps : List (K × F)) (s : HashStore K F V)
    (k : K) (field : F) :
    (((ps.map fun p => HashCommand.hdel p.1 p.2).foldl exec s).hgetall k)[field]? =
      if (k, field) ∈ ps then none else (s.hgetall k)[field]? := by
  induction ps generalizing s with
  | nil => simp
  | cons p ps ih =>
      rw [List.map_cons, List.foldl_cons, ih, hgetall_hdel]
      by_cases hk : k = p.1
      · subst hk
        by_cases hfield : field = p.2
        · simp [hfield]
        · simp [hfield, Prod.ext_iff]
      · simp [hk, Prod.ext_iff]

omit [Ord K] [Std.TransOrd K] [Ord F] [Std.TransOrd F] [Std.LawfulEqOrd K] in
/-- A script put together from one part for each element of a list, about keys of its own. -/
lemma filter_key_flatMap {α : Type} {k : K} {own : α → Prop} [DecidablePred own]
    {part : α → List (HashCommand K F V)} (h : ∀ a, ∀ c ∈ part a, c.key = k ↔ own a) (l : List α) :
    (l.flatMap part).filter (·.key = k) = (l.filter own).flatMap part := by
  induction l with
  | nil => rfl
  | cons a l ih =>
      rw [List.flatMap_cons, List.filter_append, ih]
      by_cases ha : own a
      · rw [List.filter_cons_of_pos (by simpa using ha), List.flatMap_cons,
          List.filter_eq_self.mpr fun c hc => by simpa using (h a c hc).mpr ha]
      · rw [List.filter_cons_of_neg (by simpa using ha),
          List.filter_eq_nil_iff.mpr fun c hc => by simpa using mt (h a c hc).mp ha,
          List.nil_append]

end HashStore

end FileGrid
