import FileGrid.Core.Bytes
import FileGrid.Core.Map

/-!
# The registry of cluster servers

`dfg::ServerRegistry`: a map from identifiers to entries, and the counter the next identifier is
taken from.  The counter is a `std::atomic<int>`, so it wraps around.

`addServer_cases` says everything one call can do, and `addServer_get` what it leaves in the map:
a call for a new address **overwrites whatever the counter's value already names**.  Keeping the
counter above every identifier in use is the caller's affair; `Fresh` is that state of the
registry, and `Fresh.addServer` and `Fresh.removeServer` say which operations keep it.
-/

namespace FileGrid

/-- The value of an `int` computation that is reduced modulo `2 ^ 32`. -/
def wrap32 (n : Int) : Int := Int.bmod n (2 ^ 32)

/-- The same for a `long long`. -/
def wrap64 (n : Int) : Int := Int.bmod n (2 ^ 64)

lemma wrap32_of_lt {n : Int} (hlo : -2 ^ 31 ≤ n) (hhi : n < 2 ^ 31) : wrap32 n = n := by
  unfold wrap32
  rw [Int.bmod_eq_of_le (by norm_num; omega) (by norm_num; omega)]

/-- `dfg::ServerEntry`.  The time of registration is not kept: nothing reads it. -/
structure ServerEntry where
  id : Int
  host : Bytes
  port : Int
  transferPort : Int := -1
  publicPort : Int := -1
  status : Bytes := ascii "active"
deriving DecidableEq

/-- `host:port`, the string a server is known by everywhere else. -/
def addressOf (host : Bytes) (port : Int) : Bytes := host ++ ascii ":" ++ dec port

/-- `ServerEntry::address`. -/
def ServerEntry.address (e : ServerEntry) : Bytes := addressOf e.host e.port

/-- `dfg::ServerRegistry`. -/
structure ServerRegistry where
  servers : Map Int ServerEntry := ∅
  nextId : Int := 1

namespace ServerRegistry

/-- An entry of the registry has this host and port. -/
def Registered (r : ServerRegistry) (host : Bytes) (port : Int) : Prop :=
  ∃ (i : Int) (e : ServerEntry), r.servers[i]? = some e ∧ e.host = host ∧ e.port = port

/-- The duplicate check of `add_server`: the first entry with this host and port. -/
def findDuplicate (r : ServerRegistry) (host : Bytes) (port : Int) :
    Option (Int × ServerEntry) :=
  r.servers.toList.find? fun p => p.2.host = host ∧ p.2.port = port

/-- `add_server`: the identifier of the entry, and the registry afterwards. -/
def addServer (r : ServerRegistry) (host : Bytes) (port transferPort publicPort : Int) :
    Int × ServerRegistry :=
  match r.findDuplicate host port with
  | some (existingId, _) => (existingId, r)
  | none =>
      let id := r.nextId
      let entry : ServerEntry := { id, host, port, transferPort, publicPort }
      (id, { servers := r.servers.insert id entry, nextId := wrap32 (r.nextId + 1) })

/-- `remove_server`: whether there was an entry, and the registry afterwards. -/
def removeServer (r : ServerRegistry) (id : Int) : Bool × ServerRegistry :=
  match r.servers[id]? with
  | none => (false, r)
  | some _ => (true, { r with servers := r.servers.erase id })

/-- `get_all`. -/
def getAll (r : ServerRegistry) : List ServerEntry := r.servers.toList.map (·.2)

/-- `get_addresses`. -/
def getAddresses (r : ServerRegistry) : List Bytes :=
  (r.getAll.filter (·.status = ascii "active")).map (·.address)

/-- `set_next_id`. -/
def setNextId (r : ServerRegistry) (id : Int) : ServerRegistry := { r with nextId := id }

/-- `count`. -/
def count (r : ServerRegistry) : Int := wrap32 r.servers.size

/-! ## What a call does -/

lemma findDuplicate_some {r : ServerRegistry} {host : Bytes} {port i : Int} {e : ServerEntry}
    (h : r.findDuplicate host port = some (i, e)) :
    r.servers[i]? = some e ∧ e.host = host ∧ e.port = port := by
  have hp := List.find?_some h
  have hm := List.mem_of_find?_eq_some h
  simp only [decide_eq_true_eq] at hp
  exact ⟨Map.mem_toList.mp hm, hp⟩

lemma findDuplicate_none {r : ServerRegistry} {host : Bytes} {port : Int}
    (h : r.findDuplicate host port = none) : ¬ r.Registered host port := by
  rintro ⟨i, e, he, hhost, hport⟩
  have := List.find?_eq_none.mp h (i, e) (Map.mem_toList.mpr he)
  simp [hhost, hport] at this

/-- **Everything `addServer` can do**: find the address registered and change nothing, or enter
it under the counter's value and advance the counter. -/
theorem addServer_cases (r : ServerRegistry) (host : Bytes) (port tp pp : Int) :
    (∃ i e, r.servers[i]? = some e ∧ e.host = host ∧ e.port = port ∧
      r.addServer host port tp pp = (i, r)) ∨
    (¬ r.Registered host port ∧ r.addServer host port tp pp =
      (r.nextId, { servers := r.servers.insert r.nextId
                     { id := r.nextId, host, port, transferPort := tp, publicPort := pp },
                   nextId := wrap32 (r.nextId + 1) })) := by
  unfold addServer
  cases hd : r.findDuplicate host port with
  | some p =>
      obtain ⟨i, e⟩ := p
      obtain ⟨he, hhost, hport⟩ := findDuplicate_some hd
      exact Or.inl ⟨i, e, he, hhost, hport, rfl⟩
  | none => exact Or.inr ⟨findDuplicate_none hd, rfl⟩

@[simp] lemma setNextId_servers (r : ServerRegistry) (id : Int) :
    (r.setNextId id).servers = r.servers := rfl

lemma removeServer_get (r : ServerRegistry) (id k : Int) :
    (r.removeServer id).2.servers[k]? = if k = id then none else r.servers[k]? := by
  unfold removeServer
  cases h : r.servers[id]? with
  | none =>
      by_cases hk : k = id
      · simp [hk, h]
      · simp [hk]
  | some e => simp

@[simp] lemma removeServer_nextId (r : ServerRegistry) (id : Int) :
    (r.removeServer id).2.nextId = r.nextId := by
  unfold removeServer
  cases r.servers[id]? <;> rfl

/-! ## A counter above every identifier in use -/

/-- Every identifier in use is below the counter. -/
def Fresh (r : ServerRegistry) : Prop := ∀ (i : Int) e, r.servers[i]? = some e → i < r.nextId

lemma fresh_empty : Fresh {} := by
  intro i e h
  simp at h

/-- With the counter above every identifier in use, no entry is overwritten. -/
lemma Fresh.addServer_get {r : ServerRegistry} (hf : r.Fresh) {host : Bytes} {port tp pp i : Int}
    {e : ServerEntry} (he : r.servers[i]? = some e) :
    (r.addServer host port tp pp).2.servers[i]? = some e := by
  rcases addServer_cases r host port tp pp with ⟨_, _, -, -, -, h⟩ | ⟨-, h⟩
  · rw [h]; exact he
  · have hi : i ≠ r.nextId := ne_of_lt (hf i e he)
    simp [h, hi, he]

/-- An addition keeps the counter above every identifier, short of its wrapping around. -/
lemma Fresh.addServer {r : ServerRegistry} (hf : r.Fresh) (hlo : 0 ≤ r.nextId)
    (hhi : r.nextId < 2 ^ 31 - 1) (host : Bytes) (port tp pp : Int) :
    (r.addServer host port tp pp).2.Fresh := by
  rcases addServer_cases r host port tp pp with ⟨_, _, -, -, -, h⟩ | ⟨-, h⟩
  · rw [h]; exact hf
  · intro i e he
    simp only [h, Map.get_insert] at he ⊢
    rw [wrap32_of_lt (by omega) (by omega)]
    split_ifs at he with hi
    · omega
    · have := hf i e he
      omega

lemma Fresh.removeServer {r : ServerRegistry} (hf : r.Fresh) (id : Int) :
    (r.removeServer id).2.Fresh := by
  intro i e he
  rw [removeServer_get] at he
  rw [removeServer_nextId]
  split_ifs at he
  exact hf i e he

end ServerRegistry

end FileGrid
