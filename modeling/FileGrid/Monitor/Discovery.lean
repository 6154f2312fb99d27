import FileGrid.Monitor.Stability

/-!
# Bad registrations

The texts that `discover_head_servers` reads come from anyone who can write to a node.  The map of
the servers is cleared first and filled child by child, and a value that is no number, under a key
that wants one, throws out of the loop; `monitor_loop` catches that after the election.

* **What throws.**  `isSome_parseServerData`: whether a text is read depends on its tokens, one by
  one, and not on the server it is read into.
* **What is lost.**  `discoverChildren_complete_iff`: discovery ends in order exactly if every text
  is read; then every child with a text has an entry, and keeps it in the health checks.  If it does
  not, there is no election in the round (`round_eq`).

**`bad_registration_hides_iff`** puts the two together.
-/

namespace FileGrid

/-! ## What throws -/

/-- The value of the key is a number, if `parse_server_data` reads one there. -/
def NumericField (stod : Bytes → Option Double) (key value : Bytes) : Bool :=
  if key = ascii "ip" then true
  else if key = ascii "port" then (stoi value).isSome
  else if key = ascii "status" then true
  else if key = ascii "cpu_usage" then (stod value).isSome
  else if key = ascii "memory_usage" then (stod value).isSome
  else if key = ascii "active_connections" then (stoi value).isSome
  else if key = ascii "last_update" then (stoll value).isSome
  else true

/-- The token is read without an exception; one without `=` is skipped. -/
def TokenParses (stod : Bytes → Option Double) (token : Bytes) : Bool :=
  match find (ascii "=") token with
  | none => true
  | some eqPos => NumericField stod (token.take eqPos) (token.drop (eqPos + 1))

/-- The text is read without an exception. -/
def RecordParses (stod : Bytes → Option Double) (data : Bytes) : Bool :=
  (data.splitOn 44).all (TokenParses stod)

lemma isSome_parseServerField (stod : Bytes → Option Double) (info : HeadServerInfo)
    (token : Bytes) : (parseServerField stod info token).isSome = TokenParses stod token := by
  rw [parseServerField, TokenParses]
  cases find (ascii "=") token with
  | none => rfl
  | some eqPos =>
      dsimp only [NumericField]
      split_ifs <;> simp

lemma isSome_parseServerData (stod : Bytes → Option Double) (data : Bytes) (info : HeadServerInfo) :
    (parseServerData stod data info).isSome = RecordParses stod data := by
  rw [parseServerData, RecordParses]
  generalize data.splitOn 44 = tokens
  induction tokens generalizing info with
  | nil => rfl
  | cons token tokens ih =>
      rw [List.foldlM_cons, List.all_cons, ← isSome_parseServerField stod info token]
      cases parseServerField stod info token with
      | none => rfl
      | some next => exact ih next

/-- A record of a head server: comma-separated `key=value` pairs, with a number under every key that
wants one. -/
structure WellFormedRecord (stod : Bytes → Option Double) (data : Bytes) : Prop where
  nonempty : data ≠ []
  pairs : ∀ token ∈ data.splitOn 44, (find (ascii "=") token).isSome
  parses : RecordParses stod data = true

namespace Monitor

/-! ## What discovery leaves -/

/-- **Discovery ends in order exactly if every text is read.** -/
lemma discoverChildren_complete_iff (stod : Bytes → Option Double) (children : List Child)
    (m : Monitor) : (discoverChildren stod children m).1 = true ↔
      ∀ child ∈ children, child.data ≠ [] → RecordParses stod child.data = true := by
  induction children generalizing m with
  | nil => simp [discoverChildren]
  | cons child children ih =>
      rw [discoverChildren, List.forall_mem_cons]
      split_ifs with hdata
      · rw [ih]
        simp [hdata]
      · dsimp only
        have hparse := isSome_parseServerData stod child.data
          { port := child.port, lastHealthCheck := m.probing.clock + child.delay }
        cases hinfo : parseServerData stod child.data
            { port := child.port, lastHealthCheck := m.probing.clock + child.delay } with
        | none =>
            rw [hinfo] at hparse
            simp [hdata, ← hparse]
        | some info =>
            rw [hinfo] at hparse
            simp only [ih, ← hparse, Option.isSome_some, implies_true, true_and]

lemma mem_serverIds_discoverChildren (stod : Bytes → Option Double) (children : List Child)
    {m : Monitor} {id : Bytes} (h : id ∈ m.serverIds) :
    id ∈ (discoverChildren stod children m).2.serverIds := by
  refine discoverChildren_rule stod (id ∈ ·.serverIds) (fun _ _ h => h) ?_ children h
  intro m child info _ h
  rw [mem_serverIds] at h ⊢
  obtain ⟨info', hinfo'⟩ := h
  simp only [Map.get_insert]
  split_ifs
  · exact ⟨_, rfl⟩
  · exact ⟨info', hinfo'⟩

lemma mem_serverIds_of_complete (stod : Bytes → Option Double) {children : List Child} {m : Monitor}
    (h : (discoverChildren stod children m).1 = true) {child : Child} (hchild : child ∈ children)
    (hdata : child.data ≠ []) : child.name ∈ (discoverChildren stod children m).2.serverIds := by
  induction children generalizing m with
  | nil => simp at hchild
  | cons first children ih =>
      rw [discoverChildren] at h ⊢
      split_ifs at h ⊢ with hfirst
      · rcases List.mem_cons.mp hchild with rfl | hchild
        · exact absurd hfirst hdata
        · exact ih h hchild
      · dsimp only at h ⊢
        cases hinfo : parseServerData stod first.data
            { port := first.port, lastHealthCheck := m.probing.clock + first.delay } with
        | none =>
            rw [hinfo] at h
            exact Bool.noConfusion h
        | some info =>
            rw [hinfo] at h
            rcases List.mem_cons.mp hchild with rfl | hchild
            · refine mem_serverIds_discoverChildren stod children ?_
              rw [mem_serverIds]
              simp
            · exact ih h hchild

lemma mem_serverIds_healthCheck (r : Round) (m : Monitor) (id id' : Bytes) :
    id' ∈ (m.healthCheck r id).serverIds ↔ id' ∈ m.serverIds := by
  rw [mem_serverIds, mem_serverIds, healthCheck]
  cases hinfo : m.headServers[id]? with
  | none => rfl
  | some info =>
      simp only [Map.get_insert]
      by_cases heq : id' = id
      · rw [heq, hinfo]
        simp only [if_true]
        exact ⟨fun _ => ⟨_, rfl⟩, fun _ => ⟨_, rfl⟩⟩
      · simp only [if_neg heq]

lemma mem_serverIds_healthChecks (r : Round) (m : Monitor) (id' : Bytes) :
    id' ∈ (m.healthChecks r).serverIds ↔ id' ∈ m.serverIds := by
  have hfold : ∀ ids : List Bytes,
      id' ∈ (ids.foldl (healthCheck r) m).serverIds ↔ id' ∈ m.serverIds := by
    intro ids
    induction ids using List.reverseRecOn with
    | nil => rfl
    | append_singleton ids id ih => rw [List.foldl_concat, mem_serverIds_healthCheck, ih]
  exact hfold m.serverIds

/-! ## The round -/

/-- The state in which the round calls `perform_leader_election`, if it does. -/
def electionState (stod : Bytes → Option Double) (m : Monitor) (r : Round) : Option Monitor :=
  if (discoverHeadServers stod m r).1 then some (beforeElection stod m r) else none

lemma round_eq (stod : Bytes → Option Double) (m : Monitor) (r : Round) :
    round stod m r =
      match electionState stod m r with
      | some m' => (m'.performLeaderElection r).sleep r
      | none => (discoverHeadServers stod m r).2.sleep r := by
  rw [round, electionState, beforeElection]
  rcases discoverHeadServers stod m r with ⟨complete, m'⟩
  cases complete with
  | true => rfl
  | false => rfl

/-- Every child with a well-formed record is discovered, and the election of the round is performed,
over all of them. -/
structure HidesNone (stod : Bytes → Option Double) (m : Monitor) (r : Round) : Prop where
  discovered : ∀ child ∈ r.children, WellFormedRecord stod child.data →
    child.name ∈ (discoverHeadServers stod m r).2.serverIds
  elected : ∃ m', electionState stod m r = some m' ∧
    ∀ child ∈ r.children, WellFormedRecord stod child.data → child.name ∈ m'.serverIds

/-- **No registration is hidden, and the election takes place, exactly if** every child whose text
is not empty has one that is read without an exception. -/
theorem bad_registration_hides_iff (stod : Bytes → Option Double) (m : Monitor) (r : Round) :
    HidesNone stod m r ↔
      ∀ child ∈ r.children, child.data ≠ [] → RecordParses stod child.data = true := by
  have hcomplete := discoverChildren_complete_iff stod r.children { m with headServers := ∅ }
  rw [← hcomplete]
  constructor
  · rintro ⟨-, m', hstate, -⟩
    rw [electionState] at hstate
    split_ifs at hstate with hfound
    exact hfound
  · intro hfound
    have hmem : ∀ child ∈ r.children, WellFormedRecord stod child.data →
        child.name ∈ (discoverHeadServers stod m r).2.serverIds := fun child hchild hrecord =>
      mem_serverIds_of_complete stod hfound hchild hrecord.nonempty
    refine ⟨hmem, beforeElection stod m r, if_pos hfound, ?_⟩
    intro child hchild hrecord
    exact (mem_serverIds_healthChecks r _ child.name).mpr (hmem child hchild hrecord)

/-- A text with all the numbers. -/
def goodText : String :=
  "ip=10.0.0.2,port=9669,cpu_usage=5,memory_usage=7,active_connections=0,last_update=1"

/-- The first child has a bad port: the second is not discovered, and there is no election. -/
theorem bad_port_hides_next :
    let r := roundOf [childOf "a" "ip=10.0.0.1,port=none", childOf "b" goodText] fun _ => true
    ascii "b" ∉ (discoverHeadServers stodWhole {} r).2.serverIds ∧
      (electionState stodWhole {} r).isNone ∧ ¬HidesNone stodWhole {} r := by
  intro r
  have hgood : WellFormedRecord stodWhole (ascii goodText) :=
    ⟨by decide, by decide +kernel, by decide +kernel⟩
  have hhidden : ascii "b" ∉ (discoverHeadServers stodWhole {} r).2.serverIds := by decide +kernel
  refine ⟨hhidden, ?_, fun h => hhidden (h.discovered (childOf "b" goodText) ?_ hgood)⟩
  · rw [Option.isNone_iff_eq_none, electionState, if_neg (by decide +kernel)]
  · exact List.mem_cons_of_mem _ List.mem_cons_self

end Monitor

end FileGrid
