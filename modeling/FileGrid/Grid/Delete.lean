import FileGrid.Grid.Memory

/-!
# One attempt to delete a file

`handle_client_delete` sends one `DELETE_CHUNK` for each record of a file and drops the file from
the metadata if every node answered `SUCCESS`.  A node deletes the chunks that its registry has, and
answers `ERROR` for one that it has already deleted.

* `Followed` — what the records of a file have to be like for the messages to be about its chunks.
* `Knows`, `Forgot`, `BaseRuns` — what the node of a record has in its registry, and whether it
  runs.
* `DeleteEnv.Whole`, `DeleteEnv.keyRead` — a node reads a message with one `recv` that does not
  wait, so that it may find nothing, or a part of the message.  What it takes for the key may then
  be the key of another chunk, of this file or of another one.
* `deleteChunks_success` — when every node runs, knows its chunk and reads its message, and all can
  be reached, all is deleted.
* `deleteChunks_misses` — when no message is read as one about a chunk that its node has, nothing
  happens.
* `deleteChunks_through`, `deleteChunks_fails` — a node that reads its message forgets its chunk,
  and a chunk that is forgotten fails the attempt.
* `deleteChunks_command` — so does a name with a command word in it.
-/

namespace FileGrid

/-! ## The records of a file -/

/-- The servers can be told to delete a chunk: each has a node of its own, which listens on the
transfer port and on the base port. -/
structure Administered (d : Deployment) (dir : Nat → Bytes) : Prop extends Addressed d dir where
  node : ∀ a, d.Registers a → ∃ n, d.transferNode a = some n ∧ d.baseNode a = some n
  ownNode : ∀ a b, d.Registers a → d.Registers b → d.baseNode a = d.baseNode b → a = b

/-- The records of a file lead to its chunks: their identifiers are `int`s, the nodes read their
keys in full, and no two of them are about one chunk of one node. -/
structure Followed (d : Deployment) (f : Bytes) (ps : List Placement) : Prop where
  name : Word f
  id : ∀ p ∈ ps, wrap32 p.chunkId = p.chunkId
  key : ∀ p ∈ ps, (chunkKey f p.chunkId).length < 1010
  distinct : (ps.map fun p => (d.baseNode p.server, p.chunkId)).Nodup

/-- The node of the record has the chunk in its registry. -/
def Knows (d : Deployment) (f : Bytes) (nodes : Nodes) (p : Placement) : Prop :=
  ∃ n, d.baseNode p.server = some n ∧
    ((nodes n).chunkRegistry[chunkKey f p.chunkId]?).isSome = true

/-- The node of the record does not have the chunk in its registry. -/
def Forgot (d : Deployment) (f : Bytes) (nodes : Nodes) (p : Placement) : Prop :=
  ∀ n, d.baseNode p.server = some n → (nodes n).chunkRegistry[chunkKey f p.chunkId]? = none

/-- The node of the record runs. -/
def BaseRuns (d : Deployment) (nodes : Nodes) (p : Placement) : Prop :=
  ∃ n, d.baseNode p.server = some n ∧ (nodes n).running = true

section

variable {d : Deployment} {f : Bytes} {nodes nodes' : Nodes} {p q : Placement}

lemma Followed.tail {ps : List Placement} (h : Followed d f (p :: ps)) : Followed d f ps :=
  ⟨h.name, fun q hq => h.id q (List.mem_cons_of_mem p hq),
    fun q hq => h.key q (List.mem_cons_of_mem p hq), h.distinct.of_cons⟩

lemma entry_of_undisturbed (h : Undisturbed (otherKeys f) nodes nodes') {c : Int}
    (hkey : (chunkKey f c).length < 1010) (n : Nat) :
    (nodes' n).chunkRegistry[chunkKey f c]? = (nodes n).chunkRegistry[chunkKey f c]? := by
  refine (h n).entry _ fun hmem => ?_
  exact absurd (hmem c rfl) (by omega)

lemma Knows.undisturbed (h : Knows d f nodes p) (hkey : (chunkKey f p.chunkId).length < 1010)
    (hstep : Undisturbed (otherKeys f) nodes nodes') : Knows d f nodes' p := by
  obtain ⟨n, hn, hknows⟩ := h
  exact ⟨n, hn, by rw [entry_of_undisturbed hstep hkey]; exact hknows⟩

lemma Forgot.undisturbed (h : Forgot d f nodes p) (hkey : (chunkKey f p.chunkId).length < 1010)
    (hstep : Undisturbed (otherKeys f) nodes nodes') : Forgot d f nodes' p := by
  intro n hn
  rw [entry_of_undisturbed hstep hkey]
  exact h n hn

lemma BaseRuns.undisturbed {keys : Set Bytes} (h : BaseRuns d nodes p)
    (hstep : Undisturbed keys nodes nodes') : BaseRuns d nodes' p := by
  obtain ⟨n, hn, hrun⟩ := h
  exact ⟨n, hn, (hstep n).running.trans hrun⟩

/-! ## One message -/

/-- The request that deletes a chunk on the node of a record. -/
def deleteRequest (d : Deployment) (link : Link) (removes : Bool) (key : Bytes) (nodes : Nodes)
    (p : Placement) : Nodes × Option (Option Bytes) :=
  request nodes (d.baseNode p.server) link fun node => node.deleteReply removes key

/-- The reply that the head takes for a deletion. -/
def answered (response : Option (Option Bytes)) : Bool :=
  (response.join.bind (find (ascii "SUCCESS"))).isSome

variable {link : Link} {removes : Bool} {key : Bytes}

lemma deleteRequest_silent (h : link = .down ∨ ¬ BaseRuns d nodes p) :
    deleteRequest d link removes key nodes p = (nodes, none) := by
  unfold deleteRequest request
  cases hn : d.baseNode p.server with
  | none => rfl
  | some n =>
      refine if_pos (h.imp_right fun hruns => ?_)
      simpa using fun hrun => hruns ⟨n, hn, hrun⟩

lemma deleteRequest_nodes (hlink : link ≠ .down) {n : Nat} (hn : d.baseNode p.server = some n)
    (hrun : (nodes n).running = true) :
    (deleteRequest d link removes key nodes p).1 =
      Function.update nodes n ((nodes n).deleteChunk removes key).1 := by
  have hthrough : ¬ (link = .down ∨ (nodes n).running = false) := by
    rintro (h | h)
    · exact hlink h
    · rw [hrun] at h
      cases h
  unfold deleteRequest request
  rw [hn]
  dsimp only
  rw [if_neg hthrough]
  rfl

/-- Whatever becomes of the message, it disturbs the entry of its key at most. -/
lemma deleteRequest_undisturbed (d : Deployment) (link : Link) (removes : Bool) (key : Bytes)
    (nodes : Nodes) (p : Placement) :
    Undisturbed {key} nodes (deleteRequest d link removes key nodes p).1 :=
  undisturbed_request link fun n => Node.undisturbed_deleteChunk (nodes n) removes key

/-- And that only on the node of its record. -/
lemma deleteRequest_get (d : Deployment) (link : Link) (removes : Bool) (key : Bytes)
    (nodes : Nodes) (p : Placement) (n : Nat) (k : Bytes) :
    ((deleteRequest d link removes key nodes p).1 n).chunkRegistry[k]? =
        (nodes n).chunkRegistry[k]? ∨
      (d.baseNode p.server = some n ∧ k = key ∧
        ((deleteRequest d link removes key nodes p).1 n).chunkRegistry[k]? = none) := by
  rcases request_cases nodes (d.baseNode p.server) link fun node => node.deleteReply removes key
    with heq | ⟨n', hn', -, heq, -⟩
  · exact Or.inl (by rw [deleteRequest, heq])
  · rw [deleteRequest, heq]
    by_cases hnn : n = n'
    · subst hnn
      rw [Function.update_self]
      by_cases hk : k = key
      · exact Or.inr ⟨hn', hk, (Node.get_deleteChunk _ _ _ _).trans (if_pos hk)⟩
      · exact Or.inl ((Node.get_deleteChunk _ _ _ _).trans (if_neg hk))
    · exact Or.inl (by rw [Function.update_of_ne hnn])

lemma deleteRequest_forgets (hlink : link ≠ .down) (hrun : BaseRuns d nodes p) :
    Forgot d f (deleteRequest d link removes (chunkKey f p.chunkId) nodes p).1 p := by
  obtain ⟨n, hn, hrun⟩ := hrun
  intro n' hn'
  obtain rfl : n = n' := Option.some.inj (hn.symm.trans hn')
  rw [deleteRequest_nodes hlink hn hrun, Function.update_self]
  exact (Node.get_deleteChunk _ _ _ _).trans (if_pos rfl)

lemma Forgot.deleteRequest (h : Forgot d f nodes q) (link : Link) (removes : Bool) (key : Bytes)
    (p : Placement) : Forgot d f (deleteRequest d link removes key nodes p).1 q := by
  intro n hn
  rcases deleteRequest_get d link removes key nodes p n (chunkKey f q.chunkId) with
    heq | ⟨-, -, heq⟩
  · rw [heq]
    exact h n hn
  · exact heq

lemma Knows.deleteRequest (h : Knows d f nodes q) (link : Link) (removes : Bool)
    (hne : (d.baseNode q.server, q.chunkId) ≠ (d.baseNode p.server, p.chunkId)) :
    Knows d f (deleteRequest d link removes (chunkKey f p.chunkId) nodes p).1 q := by
  obtain ⟨n, hn, hknows⟩ := h
  refine ⟨n, hn, ?_⟩
  rcases deleteRequest_get d link removes (chunkKey f p.chunkId) nodes p n
    (chunkKey f q.chunkId) with heq | ⟨hn', hk, -⟩
  · rw [heq]
    exact hknows
  · refine absurd ?_ hne
    rw [hn, hn', (chunkKey_injective hk).2]

lemma baseRuns_deleteRequest (link : Link) (removes : Bool) (key : Bytes) (p q : Placement) :
    BaseRuns d (deleteRequest d link removes key nodes p).1 q ↔ BaseRuns d nodes q := by
  have hstep := deleteRequest_undisturbed d link removes key nodes p
  constructor
  · rintro ⟨n, hn, hrun⟩
    exact ⟨n, hn, (hstep n).running.symm.trans hrun⟩
  · exact fun h => h.undisturbed hstep

/-- The message reaches a running node that has the chunk in its registry. -/
def Hits (d : Deployment) (link : Link) (key : Bytes) (nodes : Nodes) (p : Placement) : Prop :=
  link ≠ .down ∧ ∃ n, d.baseNode p.server = some n ∧ (nodes n).running = true ∧
    ((nodes n).chunkRegistry[key]?).isSome = true

lemma Hits.undisturbed (hstep : Undisturbed ∅ nodes nodes') (h : Hits d link key nodes' p) :
    Hits d link key nodes p := by
  obtain ⟨hlink, n, hn, hrun, hknows⟩ := h
  rw [(hstep n).entry key (Set.notMem_empty key)] at hknows
  exact ⟨hlink, n, hn, (hstep n).running.symm.trans hrun, hknows⟩

/-- **A message that hits nothing** has no effect, and is not answered with `SUCCESS`. -/
lemma deleteRequest_misses (removes : Bool) (h : ¬ Hits d link key nodes p) :
    Undisturbed ∅ nodes (deleteRequest d link removes key nodes p).1 ∧
      answered (deleteRequest d link removes key nodes p).2 = false := by
  by_cases hthrough : link = .down ∨ ¬ BaseRuns d nodes p
  · rw [deleteRequest_silent hthrough]
    exact ⟨Undisturbed.refl ∅ nodes, rfl⟩
  rw [not_or, not_not] at hthrough
  obtain ⟨hlink, n, hn, hrun⟩ := hthrough
  have hmissing : (nodes n).chunkRegistry[key]? = none :=
    Option.not_isSome_iff_eq_none.mp fun hknows => h ⟨hlink, n, hn, hrun, hknows⟩
  constructor
  · intro n'
    refine ⟨(deleteRequest_undisturbed d link removes key nodes p n').running, fun k _ => ?_⟩
    rcases deleteRequest_get d link removes key nodes p n' k with heq | ⟨hn', rfl, hnone⟩
    · exact heq
    · obtain rfl : n = n' := Option.some.inj (hn.symm.trans hn')
      rw [hnone, hmissing]
  · rcases request_cases nodes (d.baseNode p.server) link fun node => node.deleteReply removes key
      with heq | ⟨n', hn', -, -, hresp⟩
    · rw [deleteRequest, heq]
      rfl
    · obtain rfl : n = n' := Option.some.inj (hn.symm.trans hn')
      have hfail : ((nodes n).deleteChunk removes key).2 ≠ true := by
        rw [ne_eq, Node.deleteChunk_succeeds, hmissing]
        simp
      rcases hresp with hresp | hresp
      · rw [deleteRequest, hresp]
        rfl
      · rw [deleteRequest, hresp, Node.deleteReply, if_neg hfail]
        rfl

lemma Forgot.not_hits (h : Forgot d f nodes p) :
    ¬ Hits d link (chunkKey f p.chunkId) nodes p := by
  rintro ⟨-, n, hn, -, hknows⟩
  rw [h n hn] at hknows
  cases hknows

/-- A running node that knows a chunk deletes it. -/
lemma answered_knows (hknows : Knows d f nodes p) (hrun : BaseRuns d nodes p) :
    answered (deleteRequest d .up true (chunkKey f p.chunkId) nodes p).2 = true := by
  obtain ⟨n, hn, hknows⟩ := hknows
  obtain ⟨n', hn', hrun⟩ := hrun
  obtain rfl : n = n' := Option.some.inj (hn.symm.trans hn')
  have hdeletes : ((nodes n).deleteChunk true (chunkKey f p.chunkId)).2 = true :=
    Node.deleteChunk_succeeds.mpr ⟨rfl, hknows⟩
  rw [deleteRequest, request_up hn hrun, Node.deleteReply, if_pos hdeletes]
  rfl

end

/-! ## What is read of a message -/

namespace DeleteEnv

variable (env : DeleteEnv) (i : Nat) (f : Bytes) (p : Placement)

/-- The key that the node of a record reads. -/
def keyRead : Bytes := messageKey (env.read i (deleteMessage f p.chunkId))

/-- All of the key is there when the node reads. -/
def Whole : Prop := 13 + (chunkKey f p.chunkId).length ≤ env.arrived i

/-- A node that does not read the verb does not hear the message. -/
def heard : Link := if env.arrived i < 13 then .down else env.link i

variable {env i f p}

lemma keyRead_of_whole (hf : Word f) (hkey : (chunkKey f p.chunkId).length < 1010)
    (h : env.Whole i f p) : env.keyRead i f p = chunkKey f p.chunkId := by
  obtain ⟨eol, heol, hmsg⟩ := take_deleteMessage (f := f) (c := p.chunkId)
    (m := min 1023 (env.arrived i)) (le_min (by omega) h)
  rw [keyRead, read, hmsg, messageKey, readWord_delete (word_chunkKey hf p.chunkId) heol]
  rfl

/-- A part of the message about chunk 12 is a message about chunk 1. -/
example : let p : Placement := { chunkId := 12, server := [], path := [], checksum := [] }
    keyRead { arrived := fun _ => 22 } 0 (ascii "f") p = chunkKey (ascii "f") 1 := by decide

lemma heard_of_whole (h : env.Whole i f p) : env.heard i = env.link i :=
  if_neg (by unfold Whole at h; omega)

end DeleteEnv

/-- A node that does not read the verb closes the connection. -/
lemma emergencyMessage_unread {env : DeleteEnv} {i : Nat} (h : env.arrived i < 13) (f : Bytes)
    (c : Int) (node : Node) (removes : Bool) :
    node.emergencyMessage removes (env.read i (deleteMessage f c)) = (node, none) := by
  have hread : env.read i (deleteMessage f c) <+: ascii "DELETE_CHUNK" := by
    have hmsg : deleteMessage f c =
        ascii "DELETE_CHUNK" ++ ([32] ++ chunkKey f c ++ ascii "\n") := by
      simp [deleteMessage, ascii]
    have hverb : (ascii "DELETE_CHUNK").length = 12 := rfl
    rw [DeleteEnv.read, hmsg, List.take_append_of_le_length (by omega)]
    exact List.take_prefix _ _
  have hnone : NoCommand (env.read i (deleteMessage f c)) := fun w hw hoccurs =>
    (commandWords_spec w hw).2.2.1 (hoccurs.trans hread.isInfix)
  rw [emergencyMessage_of_noCommand hnone, if_neg]
  intro hoccurs
  exact absurd (hoccurs.trans hread.isInfix).length_le (by decide)

/-- What a node makes of a message, if the name has no command word in it. -/
lemma emergencyMessage_read {f : Bytes} (hnone : NoCommand f) (env : DeleteEnv) (i : Nat) (c : Int)
    (node : Node) (removes : Bool) :
    node.emergencyMessage removes (env.read i (deleteMessage f c)) =
      if env.arrived i < 13 then (node, none)
      else node.deleteReply removes (messageKey (env.read i (deleteMessage f c))) := by
  by_cases harrived : env.arrived i < 13
  · rw [if_pos harrived, emergencyMessage_unread harrived]
  · rw [if_neg harrived, emergencyMessage_of_noCommand (noCommand_deleteMessage hnone env i c),
      if_pos]
    have htake : (deleteMessage f c).take 13 = ascii "DELETE_CHUNK " := by
      rw [deleteMessage, List.append_assoc]
      exact List.take_left' rfl
    rw [DeleteEnv.read, ← htake]
    exact (List.take_prefix_take_left (by omega)).isInfix

/-! ## One attempt -/

section

variable {d : Deployment} {f : Bytes} {ps : List Placement} {env : DeleteEnv}

/-- The loop of a delete, for a name without a command word: one request for each record. -/
lemma deleteChunks_cons {p : Placement} (hfol : Followed d f (p :: ps)) (hnone : NoCommand f)
    (env : DeleteEnv) (i : Nat) (nodes : Nodes) :
    deleteChunks d env f i ((p :: ps).map (·.location)) nodes =
      let step := deleteRequest d (env.heard i) (env.removes i) (env.keyRead i f p) nodes p
      ((deleteChunks d env f (i + 1) (ps.map (·.location)) step.1).1,
        answered step.2 && (deleteChunks d env f (i + 1) (ps.map (·.location)) step.1).2) := by
  have hid : p.location.chunkId = p.chunkId := hfol.id p List.mem_cons_self
  have hhandle : (fun node : Node => node.emergencyMessage (env.removes i)
      (env.read i (deleteMessage f p.chunkId))) = fun node =>
        if env.arrived i < 13 then (node, none)
        else node.deleteReply (env.removes i) (env.keyRead i f p) := by
    funext node
    exact emergencyMessage_read hnone env i p.chunkId node (env.removes i)
  rw [List.map_cons, deleteChunks, hid, hhandle]
  by_cases harrived : env.arrived i < 13
  · -- nothing happens, whether or not the node is reached
    simp only [if_pos harrived]
    rw [DeleteEnv.heard, if_pos harrived, deleteRequest_silent (Or.inl rfl)]
    rcases request_cases nodes (d.baseNode p.location.serverIp) (env.link i)
      (fun node => (node, (none : Option Bytes))) with heq | ⟨n, -, -, hnodes, hresp⟩
    · rw [heq]
      rfl
    · rw [Function.update_eq_self] at hnodes
      generalize request nodes (d.baseNode p.location.serverIp) (env.link i)
        (fun node => (node, (none : Option Bytes))) = result at hnodes hresp ⊢
      obtain ⟨nodes', response⟩ := result
      dsimp only at hnodes hresp ⊢
      subst hnodes
      rcases hresp with rfl | rfl
      · rfl
      · rfl
  · simp only [if_neg harrived]
    rw [DeleteEnv.heard, if_neg harrived]
    rfl

/-- **When all nodes run and know their chunks, all is deleted.** -/
lemma deleteChunks_success (hfol : Followed d f ps) (hnone : NoCommand f)
    (hup : ∀ i, env.link i = .up ∧ env.removes i = true) (i : Nat) {nodes : Nodes}
    (hwhole : ∀ j p, ps[j]? = some p → env.Whole (i + j) f p)
    (hknows : ∀ p ∈ ps, Knows d f nodes p) (hruns : ∀ p ∈ ps, BaseRuns d nodes p) :
    (deleteChunks d env f i (ps.map (·.location)) nodes).2 = true := by
  induction ps generalizing i nodes with
  | nil => rfl
  | cons p ps ih =>
      have hfirst : env.Whole i f p := hwhole 0 p rfl
      rw [deleteChunks_cons hfol hnone, DeleteEnv.heard_of_whole hfirst, (hup i).1, (hup i).2,
        DeleteEnv.keyRead_of_whole hfol.name (hfol.key p List.mem_cons_self) hfirst]
      dsimp only
      rw [Bool.and_eq_true]
      refine ⟨answered_knows (hknows p List.mem_cons_self) (hruns p List.mem_cons_self), ?_⟩
      refine ih hfol.tail (i + 1) (fun j q hq => ?_) (fun q hq => ?_) fun q hq => ?_
      · rw [show i + 1 + j = i + (j + 1) by omega]
        exact hwhole (j + 1) q hq
      · refine (hknows q (List.mem_cons_of_mem p hq)).deleteRequest .up true fun heq => ?_
        have hdistinct := hfol.distinct
        rw [List.map_cons, List.nodup_cons] at hdistinct
        exact hdistinct.1 (List.mem_map.mpr ⟨q, hq, heq⟩)
      · exact (baseRuns_deleteRequest .up true _ p q).mpr (hruns q (List.mem_cons_of_mem p hq))

/-- **When no message hits anything, nothing happens**, and the attempt fails. -/
lemma deleteChunks_misses (hfol : Followed d f ps) (hnone : NoCommand f) (env : DeleteEnv) (i : Nat)
    (nodes : Nodes) (h : ∀ j p, ps[j]? = some p →
      ¬ Hits d (env.heard (i + j)) (env.keyRead (i + j) f p) nodes p) :
    Undisturbed ∅ nodes (deleteChunks d env f i (ps.map (·.location)) nodes).1 ∧
      (ps ≠ [] → (deleteChunks d env f i (ps.map (·.location)) nodes).2 = false) := by
  induction ps generalizing i nodes with
  | nil => exact ⟨Undisturbed.refl ∅ nodes, fun hne => absurd rfl hne⟩
  | cons p ps ih =>
      obtain ⟨hstep, hfails⟩ := deleteRequest_misses (env.removes i) (h 0 p rfl)
      rw [deleteChunks_cons hfol hnone]
      refine ⟨hstep.trans (ih hfol.tail (i + 1) _ fun j q hq hhits => ?_).1, fun _ => ?_⟩
      · rw [show i + 1 + j = i + (j + 1) by omega] at hhits
        exact h (j + 1) q hq (hhits.undisturbed hstep)
      · dsimp only
        rw [Nat.add_zero] at hfails
        rw [hfails, Bool.false_and]

lemma Forgot.deleteChunks (hfol : Followed d f ps) (hnone : NoCommand f) (env : DeleteEnv) (i : Nat)
    {nodes : Nodes} {q : Placement} (h : Forgot d f nodes q) :
    Forgot d f (deleteChunks d env f i (ps.map (·.location)) nodes).1 q := by
  induction ps generalizing i nodes with
  | nil => exact h
  | cons p ps ih =>
      rw [deleteChunks_cons hfol hnone]
      exact ih hfol.tail (i + 1) (h.deleteRequest (env.heard i) (env.removes i) _ p)

/-- The messages that the nodes do not read in part: a node reads the key, or not even the verb. -/
def DeleteEnv.NotInPart (env : DeleteEnv) (f : Bytes) (ps : List Placement) : Prop :=
  ∀ i p, ps[i]? = some p → env.arrived i < 13 ∨ env.Whole i f p

/-- **A chunk that is forgotten fails the attempt**, as does a message that is not read. -/
lemma deleteChunks_fails (hfol : Followed d f ps) (hnone : NoCommand f) (i : Nat)
    {nodes : Nodes} {j : Nat} {q : Placement} (hq : ps[j]? = some q)
    (h : env.arrived (i + j) < 13 ∨ env.Whole (i + j) f q ∧ Forgot d f nodes q) :
    (deleteChunks d env f i (ps.map (·.location)) nodes).2 = false := by
  induction ps generalizing i j nodes with
  | nil => cases hq
  | cons p ps ih =>
      rw [deleteChunks_cons hfol hnone]
      dsimp only
      cases j with
      | zero =>
          obtain rfl : p = q := Option.some.inj hq
          have hmisses : ¬ Hits d (env.heard i) (env.keyRead i f p) nodes p := by
            rcases h with hunread | ⟨hwhole, hforgot⟩
            · exact fun hhits => hhits.1 (if_pos hunread)
            · have hkey :=
                DeleteEnv.keyRead_of_whole hfol.name (hfol.key p List.mem_cons_self) hwhole
              rw [Nat.add_zero] at hkey
              rw [hkey]
              exact hforgot.not_hits
          rw [(deleteRequest_misses (env.removes i) hmisses).2, Bool.false_and]
      | succ j =>
          rw [show i + (j + 1) = i + 1 + j by omega] at h
          rw [ih hfol.tail (i + 1) hq (h.imp_right fun hboth =>
            ⟨hboth.1, hboth.2.deleteRequest (env.heard i) (env.removes i) _ p⟩), Bool.and_false]

lemma deleteChunks_of_forgot (hfol : Followed d f ps) (hnone : NoCommand f)
    (hpart : env.NotInPart f ps) {nodes : Nodes} {q : Placement} (hq : q ∈ ps)
    (h : Forgot d f nodes q) :
    (deleteChunks d env f 0 (ps.map (·.location)) nodes).2 = false := by
  obtain ⟨j, hj⟩ := List.mem_iff_getElem?.mp hq
  refine deleteChunks_fails hfol hnone 0 hj ?_
  rw [Nat.zero_add]
  exact (hpart j q hj).imp_right fun hwhole => ⟨hwhole, h⟩

/-- **A node that reads the message forgets its chunk.** -/
lemma deleteChunks_through (hfol : Followed d f ps) (hnone : NoCommand f) (i : Nat) {nodes : Nodes}
    {j : Nat} {q : Placement} (hq : ps[j]? = some q) (hwhole : env.Whole (i + j) f q)
    (hlink : env.link (i + j) ≠ .down) (hrun : BaseRuns d nodes q) :
    Forgot d f (deleteChunks d env f i (ps.map (·.location)) nodes).1 q := by
  induction ps generalizing i j nodes with
  | nil => cases hq
  | cons p ps ih =>
      rw [deleteChunks_cons hfol hnone]
      cases j with
      | zero =>
          obtain rfl : p = q := Option.some.inj hq
          have hwhole : env.Whole i f p := hwhole
          rw [DeleteEnv.heard_of_whole hwhole,
            DeleteEnv.keyRead_of_whole hfol.name (hfol.key p List.mem_cons_self) hwhole]
          exact (deleteRequest_forgets hlink hrun).deleteChunks hfol.tail hnone env (i + 1)
      | succ j =>
          rw [show i + (j + 1) = i + 1 + j by omega] at hwhole hlink
          exact ih hfol.tail (i + 1) hq hwhole hlink ((baseRuns_deleteRequest _ _ _ p q).mpr hrun)

/-- A name with a command word in it fails the attempt: the nodes answer `OK`. -/
lemma deleteChunks_command (hfol : Followed d f ps) (hcommand : ¬ NoCommand f) (hne : ps ≠ [])
    (hpart : env.NotInPart f ps) (nodes : Nodes) :
    (deleteChunks d env f 0 (ps.map (·.location)) nodes).2 = false := by
  cases ps with
  | nil => exact absurd rfl hne
  | cons p ps =>
      have hid : p.location.chunkId = p.chunkId := hfol.id p List.mem_cons_self
      have hkey := hfol.key p List.mem_cons_self
      have hreply : ∀ node : Node, (node.emergencyMessage (env.removes 0)
          (env.read 0 (deleteMessage f p.chunkId))).2.bind (find (ascii "SUCCESS")) = none := by
        intro node
        rcases hpart 0 p rfl with hunread | hwhole
        · rw [emergencyMessage_unread hunread]
          rfl
        · simp only [NoCommand, not_forall, not_not] at hcommand
          obtain ⟨w, hw, hoccurs⟩ := hcommand
          obtain ⟨eol, heol, hmsg⟩ := take_deleteMessage (f := f) (c := p.chunkId)
            (m := min 1023 (env.arrived 0)) (le_min (by omega) hwhole)
          rw [DeleteEnv.read, hmsg, emergencyMessage_command hw
            ((infix_deleteMessage hw f p.chunkId heol).mpr hoccurs)]
          rfl
      rw [List.map_cons, deleteChunks, hid]
      dsimp only
      rcases request_cases nodes (d.baseNode p.location.serverIp) (env.link 0) fun node =>
        node.emergencyMessage (env.removes 0) (env.read 0 (deleteMessage f p.chunkId)) with
          heq | ⟨n, -, -, -, hresp | hresp⟩
      · rw [heq]
        rfl
      · rw [hresp]
        rfl
      · rw [hresp, Option.join_some, hreply]
        rfl

end

lemma handleClientDelete_eq {d : Deployment} {f : Bytes} (hf : f ≠ []) (env : DeleteEnv)
    (nodes : Nodes) (m : MetadataMap) :
    handleClientDelete d env nodes m f =
      if m.placementsOf f = [] then (nodes, m, ascii "ERROR: File not found\n")
      else if (deleteChunks d env f 0 ((m.placementsOf f).map (·.location)) nodes).2 = true then
        ((deleteChunks d env f 0 ((m.placementsOf f).map (·.location)) nodes).1, m.deleteEntry f,
          ascii "SUCCESS\n")
      else ((deleteChunks d env f 0 ((m.placementsOf f).map (·.location)) nodes).1, m,
        ascii "ERROR: Could not delete chunks\n") := by
  unfold handleClientDelete
  simp only [getChunkLocations_eq hf, List.map_eq_nil_iff]

/-- The attempt succeeds when there are records and all their chunks are deleted, and only then is
the file dropped. -/
lemma handleClientDelete_success_iff {d : Deployment} {f : Bytes} (hf : f ≠ []) (env : DeleteEnv)
    (nodes : Nodes) (m : MetadataMap) :
    (handleClientDelete d env nodes m f).2.2 = ascii "SUCCESS\n" ↔ m.placementsOf f ≠ [] ∧
      (deleteChunks d env f 0 ((m.placementsOf f).map (·.location)) nodes).2 = true := by
  have hnotFound : ascii "ERROR: File not found\n" ≠ ascii "SUCCESS\n" := by decide
  have hfailed : ascii "ERROR: Could not delete chunks\n" ≠ ascii "SUCCESS\n" := by decide
  rw [handleClientDelete_eq hf]
  by_cases hnil : m.placementsOf f = []
  · simp [hnil, hnotFound]
  · rw [if_neg hnil]
    by_cases hall : (deleteChunks d env f 0 ((m.placementsOf f).map (·.location)) nodes).2 = true
    · simp [hnil, hall]
    · simp [hall, hfailed]

lemma handleClientDelete_metadata {d : Deployment} {f : Bytes} (hf : f ≠ []) (env : DeleteEnv)
    (nodes : Nodes) (m : MetadataMap) :
    (handleClientDelete d env nodes m f).2.1 =
      if (handleClientDelete d env nodes m f).2.2 = ascii "SUCCESS\n" then m.deleteEntry f
      else m := by
  have hsuccess := handleClientDelete_success_iff (d := d) hf env nodes m
  by_cases h : (handleClientDelete d env nodes m f).2.2 = ascii "SUCCESS\n"
  · obtain ⟨hne, hall⟩ := hsuccess.mp h
    rw [if_pos h, handleClientDelete_eq hf, if_neg hne, if_pos hall]
  · rw [if_neg h, handleClientDelete_eq hf]
    by_cases hnil : m.placementsOf f = []
    · rw [if_pos hnil]
    · rw [if_neg hnil, if_neg fun hall => h (hsuccess.mpr ⟨hnil, hall⟩)]

end FileGrid
