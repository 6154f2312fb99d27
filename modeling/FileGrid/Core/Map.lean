import FileGrid.Core.Scan

/-!
# Ordered maps

`std::map` is the standard library's extensional tree map over `compare`: iteration is `toList`,
in increasing order of the keys.  The library states its lookup lemmas up to `compare k k' = .eq`;
the keys here are compared lawfully, so the lemmas below say the same with equality of keys.
-/

namespace FileGrid

/-- `std::map<K, V>`. -/
abbrev Map (K V : Type) [Ord K] := Std.ExtTreeMap K V compare

namespace Map

variable {K V : Type} [Ord K] [Std.TransOrd K] [Std.LawfulEqOrd K]

lemma mem_toList {m : Map K V} {k : K} {v : V} : (k, v) ∈ m.toList ↔ m[k]? = some v :=
  Std.ExtTreeMap.mem_toList_iff_getElem?_eq_some

/-- `for (auto &[k, v] : m)` with an update of `v` in place. -/
@[simp] lemma get_map {W : Type} (m : Map K V) (f : K → V → W) (k : K) :
    (Std.ExtTreeMap.map f m)[k]? = m[k]?.map (f k) :=
  Std.ExtTreeMap.getElem?_map

lemma nodup_keys_toList (m : Map K V) : (m.toList.map (·.1)).Nodup := by
  rw [List.Nodup, List.pairwise_map]
  exact Std.ExtTreeMap.distinct_keys_toList.imp fun h => by simpa using h

omit [Std.LawfulEqOrd K] in
/-- What is visited later has a larger key. -/
lemma key_lt_of_toList_eq {m : Map K V} {before after : List (K × V)} {p q : K × V}
    (h : m.toList = before ++ p :: after) (hq : q ∈ after) : compare p.1 q.1 = .lt := by
  have hordered : m.toList.Pairwise fun a b => compare a.1 b.1 = .lt :=
    Std.ExtTreeMap.ordered_keys_toList
  rw [h] at hordered
  exact (List.pairwise_cons.mp (List.pairwise_append.mp hordered).2.1).1 q hq

/-- The first value that a search through the values finds is the one under the smallest key. -/
lemma find_values_eq_some_iff {m : Map K V} {p : V → Bool} {v : V} :
    (m.toList.map (·.2)).find? p = some v ↔
      p v = true ∧ ∃ k : K, m[k]? = some v ∧
        ∀ (k' : K) (w : V), compare k' k = .lt → m[k']? = some w → p w = false := by
  have hordered : m.toList.Pairwise fun a b => compare a.1 b.1 = .lt :=
    Std.ExtTreeMap.ordered_keys_toList
  rw [List.find?_map, Option.map_eq_some_iff]
  constructor
  · rintro ⟨⟨k, v⟩, hfind, rfl⟩
    obtain ⟨hp, before, after, hsplit, hbefore⟩ := List.find?_eq_some_iff_append.mp hfind
    refine ⟨hp, k, mem_toList.mp (by simp [hsplit]), fun k' w hlt hw => ?_⟩
    -- what has a smaller key was visited before
    have hmem := mem_toList.mpr hw
    rw [hsplit] at hordered
    rw [hsplit, List.mem_append, List.mem_cons] at hmem
    rcases hmem with hmem | heq | hmem
    · simpa using hbefore _ hmem
    · have hkey : k' = k := congrArg Prod.fst heq
      simp [hkey] at hlt
    · have hgt := (List.pairwise_cons.mp (List.pairwise_append.mp hordered).2.1).1 _ hmem
      exact absurd hlt (Std.OrientedCmp.not_lt_of_lt hgt)
  · rintro ⟨hp, k, hk, hfirst⟩
    obtain ⟨before, after, hsplit⟩ := List.append_of_mem (mem_toList.mpr hk)
    refine ⟨(k, v), ?_, rfl⟩
    rw [List.find?_eq_some_iff_append]
    refine ⟨hp, before, after, hsplit, fun q hq => ?_⟩
    rw [hsplit] at hordered
    have hlt := (List.pairwise_append.mp hordered).2.2 q hq (k, v) List.mem_cons_self
    have hget : m[q.1]? = some q.2 := mem_toList.mp (by simp [hsplit, hq])
    simpa using hfirst q.1 q.2 hlt hget

/-- **A scan of a map finds the first of its largest entries.** -/
theorem scan_first_largest (m : Map K V) (size : V → Nat) (k₀ : K)
    (hsome : ∃ (k : K) (v : V), m[k]? = some v ∧ 0 < size v) :
    let best := m.toList.foldl
      (fun (best : K × Nat) p => if best.2 < size p.2 then (p.1, size p.2) else best) (k₀, 0)
    ∃ v, m[best.1]? = some v ∧ ∀ (k : K) (w : V), m[k]? = some w →
      size w ≤ size v ∧ (size w = size v → k ≠ best.1 → compare best.1 k = .lt) := by
  intro best
  obtain ⟨hle, hbest⟩ := foldl_first_largest (fun p : K × V => p.1) (fun p => size p.2) k₀ m.toList
  obtain ⟨k₁, v₁, hk₁, hpos⟩ := hsome
  rcases hbest with hzero | ⟨before, p, after, hlist, hp, hbefore⟩
  · have hfirst := hle (k₁, v₁) (mem_toList.mpr hk₁)
    rw [hzero] at hfirst
    exact absurd hpos (not_lt.mpr hfirst)
  · have hbest : best = (p.1, size p.2) := hp
    rw [hbest]
    refine ⟨p.2, mem_toList.mp (by rw [hlist]; simp), fun k w hw => ?_⟩
    have hmem : (k, w) ∈ m.toList := mem_toList.mpr hw
    have hsize := hle (k, w) hmem
    rw [hp] at hsize
    refine ⟨hsize, fun hsame hne => ?_⟩
    -- an entry of the same size is not among those before, and is not the one that was found
    rw [hlist] at hmem
    rcases List.mem_append.mp hmem with hmem | hmem
    · exact absurd hsame (hbefore (k, w) hmem).ne
    · rcases List.mem_cons.mp hmem with heq | hmem
      · exact absurd (congrArg Prod.fst heq) hne
      · exact key_lt_of_toList_eq hlist hmem

variable [DecidableEq K]

/-- `m[k] = v`, read back at any key. -/
@[simp] lemma get_insert (m : Map K V) (k k' : K) (v : V) :
    (m.insert k v)[k']? = if k' = k then some v else m[k']? := by
  rw [Std.ExtTreeMap.getElem?_insert]
  simp only [Std.LawfulEqCmp.compare_eq_iff_eq, eq_comm (a := k)]

/-- `m.erase(k)`, read back at any key. -/
@[simp] lemma get_erase (m : Map K V) (k k' : K) :
    (m.erase k)[k']? = if k' = k then none else m[k']? := by
  rw [Std.ExtTreeMap.getElem?_erase]
  simp only [Std.LawfulEqCmp.compare_eq_iff_eq, eq_comm (a := k)]

/-- An update of the value stored under `k`, if there is one. -/
@[simp] lemma get_modify (m : Map K V) (k k' : K) (f : V → V) :
    (m.modify k f)[k']? = if k' = k then m[k]?.map f else m[k']? := by
  rw [Std.ExtTreeMap.getElem?_modify]
  simp only [Std.LawfulEqCmp.compare_eq_iff_eq, eq_comm (a := k)]

/-- Updates at distinct keys, one after another: each key sees its own update and no other. -/
lemma get_foldl_modify {W : Type} (f : W → V → V) : ∀ (us : List (K × W)) (m : Map K V) (k : K),
    (us.map (·.1)).Nodup →
    (us.foldl (fun m u => m.modify u.1 (f u.2)) m)[k]? =
      m[k]?.map fun v => (us.find? (·.1 = k)).elim v fun u => f u.2 v
  | [], m, k, _ => by simp
  | u :: us, m, k, h => by
      simp only [List.map_cons, List.nodup_cons] at h
      rw [List.foldl_cons, get_foldl_modify f us _ k h.2, get_modify]
      by_cases hk : k = u.1
      · subst hk
        -- no later update has this key
        have hnone : us.find? (fun p => decide (p.1 = u.1)) = none := by
          rw [List.find?_eq_none]
          intro p hp hpu
          exact h.1 (List.mem_map.mpr ⟨p, hp, by simpa using hpu⟩)
        simp [hnone, Option.map_map]
        rfl
      · simp [hk, Ne.symm hk]

/-- The same for the updates an iteration over a map makes. -/
lemma get_foldl_modify_toList {W : Type} (f : W → V → V) (us : Map K W) (m : Map K V) (k : K) :
    (us.toList.foldl (fun m u => m.modify u.1 (f u.2)) m)[k]? =
      m[k]?.map fun v => us[k]?.elim v fun w => f w v := by
  rw [get_foldl_modify f _ m k (nodup_keys_toList us)]
  congr 1
  funext v
  cases hk : us[k]? with
  | none =>
      have : us.toList.find? (fun p => decide (p.1 = k)) = none := by
        rw [List.find?_eq_none]
        rintro ⟨k', w⟩ hp hk'
        simp only [decide_eq_true_eq] at hk'
        rw [mem_toList, hk', hk] at hp
        cases hp
      simp [this]
  | some w =>
      have hmem : (k, w) ∈ us.toList := mem_toList.mpr hk
      cases hfind : us.toList.find? (fun p => decide (p.1 = k)) with
      | none => exact absurd hmem (fun h => by simpa using List.find?_eq_none.mp hfind _ h)
      | some p =>
          obtain ⟨k', w'⟩ := p
          have hk' : k' = k := by simpa using List.find?_some hfind
          have hw' : us[k']? = some w' := mem_toList.mp (List.mem_of_find?_eq_some hfind)
          rw [hk', hk] at hw'
          simp [Option.some.inj hw']

/-- A new key is visited along with the others. -/
lemma toList_insert_perm {m : Map K V} {k : K} (h : m[k]? = none) (v : V) :
    (m.insert k v).toList.Perm ((k, v) :: m.toList) := by
  have hnodup : ∀ m : Map K V, m.toList.Nodup := fun m => List.Nodup.of_map _ (nodup_keys_toList m)
  have hfresh : (k, v) ∉ m.toList := by
    rw [mem_toList, h]
    simp
  refine (List.perm_ext_iff_of_nodup (hnodup _) (List.nodup_cons.mpr ⟨hfresh, hnodup m⟩)).mpr ?_
  rintro ⟨k', w⟩
  rw [mem_toList, get_insert, List.mem_cons, mem_toList]
  by_cases hk : k' = k
  · simp [hk, h, eq_comm]
  · simp [hk]

/-- A key that is there is visited along with the others. -/
lemma toList_perm_erase {m : Map K V} {k : K} {v : V} (h : m[k]? = some v) :
    m.toList.Perm ((k, v) :: (m.erase k).toList) := by
  have hback : (m.erase k).insert k v = m := by
    refine Std.ExtTreeMap.ext_getElem? fun k' => ?_
    rw [get_insert, get_erase]
    split_ifs with hk
    · rw [hk, h]
    · rfl
  have hperm := toList_insert_perm (m := m.erase k) (k := k) (by rw [get_erase, if_pos rfl]) v
  rwa [hback] at hperm

lemma erase_of_none {m : Map K V} {k : K} (h : m[k]? = none) : m.erase k = m := by
  refine Std.ExtTreeMap.ext_getElem? fun k' => ?_
  rw [get_erase]
  split_ifs with hk
  · rw [hk, h]
  · rfl

lemma insert_insert (m : Map K V) (k : K) (v w : V) : (m.insert k v).insert k w = m.insert k w := by
  refine Std.ExtTreeMap.ext_getElem? fun k' => ?_
  simp only [get_insert]
  split_ifs <;> rfl

lemma erase_insert (m : Map K V) (k : K) (v : V) : (m.insert k v).erase k = m.erase k := by
  refine Std.ExtTreeMap.ext_getElem? fun k' => ?_
  simp only [get_insert, get_erase]
  split_ifs <;> rfl

/-- Insertions whose values depend on the key only, in whatever order. -/
lemma get_foldl_insert {val : K → V} {l : List (K × V)} (h : ∀ p ∈ l, p.2 = val p.1) (m : Map K V)
    (k : K) : (l.foldl (fun m p => m.insert p.1 p.2) m)[k]? =
      if k ∈ l.map (·.1) then some (val k) else m[k]? := by
  induction l generalizing m with
  | nil => simp
  | cons p l ih =>
      rw [List.foldl_cons, ih (fun q hq => h q (List.mem_cons_of_mem _ hq)), get_insert,
        h p List.mem_cons_self, List.map_cons]
      by_cases hk : k = p.1
      · simp [hk]
      · simp only [List.mem_cons, hk, false_or, if_false]

lemma get_foldl_insert_of_notMem {l : List (K × V)} {k : K} (h : k ∉ l.map (·.1)) (m : Map K V) :
    (l.foldl (fun m p => m.insert p.1 p.2) m)[k]? = m[k]? := by
  induction l generalizing m with
  | nil => rfl
  | cons p l ih =>
      rw [List.map_cons, List.mem_cons, not_or] at h
      rw [List.foldl_cons, ih h.2, get_insert, if_neg h.1]

lemma exists_get_foldl_insert {l : List (K × V)} {k : K} (h : k ∈ l.map (·.1)) (m : Map K V) :
    ∃ v, (k, v) ∈ l ∧ (l.foldl (fun m p => m.insert p.1 p.2) m)[k]? = some v := by
  induction l generalizing m with
  | nil => simp at h
  | cons p l ih =>
      rw [List.foldl_cons]
      by_cases hk : k ∈ l.map (·.1)
      · obtain ⟨v, hv, hget⟩ := ih hk (m.insert p.1 p.2)
        exact ⟨v, List.mem_cons_of_mem _ hv, hget⟩
      · rw [List.map_cons, List.mem_cons] at h
        obtain rfl := h.resolve_right hk
        refine ⟨p.2, List.mem_cons_self, ?_⟩
        rw [get_foldl_insert_of_notMem hk, get_insert, if_pos rfl]

/-- A key with one value to be inserted, if any. -/
lemma get_foldl_insert_unique {l : List (K × V)} {k : K} {v : V} {c : Prop} [Decidable c]
    (h : ∀ w, (k, w) ∈ l ↔ c ∧ w = v) (m : Map K V) :
    (l.foldl (fun m p => m.insert p.1 p.2) m)[k]? = if c then some v else m[k]? := by
  split_ifs with hc
  · have hmem : k ∈ l.map (·.1) := List.mem_map.mpr ⟨(k, v), (h v).mpr ⟨hc, rfl⟩, rfl⟩
    obtain ⟨w, hw, hget⟩ := exists_get_foldl_insert hmem m
    rw [hget, ((h w).mp hw).2]
  · refine get_foldl_insert_of_notMem (fun hmem => ?_) m
    obtain ⟨⟨k', w⟩, hw, rfl⟩ := List.mem_map.mp hmem
    exact hc ((h w).mp hw).1

/-- **The last of several insertions under a key is the one that counts.** -/
theorem get_foldl_insert_last (l : List (K × V)) (k : K) :
    (l.foldl (fun m p => m.insert p.1 p.2) (∅ : Map K V))[k]? =
      ((l.filter (·.1 = k)).getLast?).map (·.2) := by
  induction l using List.reverseRecOn with
  | nil => simp
  | append_singleton l p ih =>
      rw [List.foldl_append, List.foldl_cons, List.foldl_nil, get_insert, ih, List.filter_append]
      by_cases hk : p.1 = k
      · simp [hk]
      · simp [hk, Ne.symm hk]

/-- The entry of a key, picked out of an iteration. -/
lemma filter_key_toList (m : Map K V) (k : K) :
    m.toList.filter (·.1 = k) = (m[k]?).toList.map fun v => (k, v) := by
  cases hk : m[k]? with
  | none =>
      simp only [Option.toList_none, List.map_nil, List.filter_eq_nil_iff, decide_eq_true_eq]
      rintro ⟨k', v⟩ hmem rfl
      rw [mem_toList, hk] at hmem
      cases hmem
  | some v =>
      have hnodup : (m.toList.filter (·.1 = k)).Nodup :=
        (List.Nodup.of_map _ (nodup_keys_toList m)).filter _
      refine List.perm_singleton.mp
        ((List.perm_ext_iff_of_nodup hnodup (List.nodup_singleton (k, v))).mpr ?_)
      rintro ⟨k', w⟩
      simp only [List.mem_filter, mem_toList, decide_eq_true_eq, List.mem_singleton,
        Prod.mk.injEq]
      constructor
      · rintro ⟨hget, rfl⟩
        exact ⟨rfl, Option.some.inj (hget.symm.trans hk)⟩
      · rintro ⟨rfl, rfl⟩
        exact ⟨hk, rfl⟩

/-! ## Grouping -/

/-- `for (x : l) groups[key(x)].push_back(x);` -/
def groupBy (key : V → K) (l : List V) : Map K (List V) :=
  l.foldl (fun m x => m.insert (key x) ((m[key x]?).getD [] ++ [x])) ∅

/-- A group is the sublist of the elements with its key, and there are no empty groups. -/
lemma get_groupBy (key : V → K) (l : List V) (k : K) :
    (groupBy key l)[k]? =
      if l.filter (key · = k) = [] then none else some (l.filter (key · = k)) := by
  -- induction from the right, the way the loop extends the groups
  induction l using List.reverseRecOn with
  | nil => simp [groupBy]
  | append_singleton l x ih =>
      have hstep : groupBy key (l ++ [x]) =
          (groupBy key l).insert (key x) (((groupBy key l)[key x]?).getD [] ++ [x]) := by
        simp [groupBy]
      rw [hstep, get_insert]
      by_cases hk : k = key x
      · subst hk
        rw [ih]
        by_cases hnil : l.filter (key · = key x) = []
        · simp [hnil]
        · simp [hnil]
      · rw [if_neg hk, ih]
        simp [Ne.symm hk]

lemma mem_toList_groupBy {key : V → K} {l : List V} {k : K} {g : List V} :
    (k, g) ∈ (groupBy key l).toList ↔ g = l.filter (key · = k) ∧ g ≠ [] := by
  rw [mem_toList, get_groupBy]
  constructor
  · intro h
    split_ifs at h with hnil
    cases h
    exact ⟨rfl, hnil⟩
  · rintro ⟨rfl, hne⟩
    rw [if_neg hne]

end Map

end FileGrid
