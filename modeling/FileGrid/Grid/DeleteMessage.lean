import FileGrid.Grid.Steps

/-!
# The message that deletes a chunk

`handle_client_delete` asks a node to delete a chunk with a line of text, `DELETE_CHUNK <key>`, on
the port where the node also listens for orders to stop and to restart.  The listener does not look
at where a command stands in the line: it searches the whole line for `DEAD` and `KILL`, then for
`RESTART`, and only then for `DELETE_CHUNK `.  The key carries the name of the file, which is the
client's choice.

**Where a command word can be.**  No command word has a blank or an underscore in it, so in the
message of a delete it can only stand inside the file name (`infix_deleteMessage`).

**What reaches `delete_chunk`.**  `deleteMessage_dispatch_iff`: a node handles the message as the
deletion of its key exactly when the name contains no command word and the key fits the buffer the
listener reads into.  `delete_stops_node` is a file name that stops the node instead.
-/

namespace FileGrid

/-! ## The dispatch -/

/-- The words `emergency_listener` stops or restarts its node for. -/
def commandWords : List Bytes := [ascii "DEAD", ascii "KILL", ascii "RESTART"]

/-- The name contains no command word. -/
def NoCommand (filename : Bytes) : Prop := ∀ w ∈ commandWords, ¬ w <:+: filename

instance (filename : Bytes) : Decidable (NoCommand filename) :=
  inferInstanceAs (Decidable (∀ w ∈ commandWords, ¬ w <:+: filename))

/-- What a node answers when it is asked to delete this key. -/
def Node.deleteReply (node : Node) (removes : Bool) (key : Bytes) : Node × Option Bytes :=
  ((node.deleteChunk removes key).1,
    some (if (node.deleteChunk removes key).2 then ascii "SUCCESS\n" else ascii "ERROR\n"))

/-- A message with a command word in it is not taken for a deletion. -/
lemma emergencyMessage_command {msg w : Bytes} (hw : w ∈ commandWords) (h : w <:+: msg)
    (node : Node) (removes : Bool) :
    (node.emergencyMessage removes msg).2 = some (ascii "OK\n") := by
  unfold Node.emergencyMessage
  simp only [isSome_find]
  by_cases hdead : ascii "DEAD" <:+: msg ∨ ascii "KILL" <:+: msg
  · rw [if_pos hdead]
  · rw [if_neg hdead, if_pos]
    simp only [commandWords, List.mem_cons, List.not_mem_nil, or_false] at hw
    rcases hw with rfl | rfl | rfl
    · exact absurd (Or.inl h) hdead
    · exact absurd (Or.inr h) hdead
    · exact h

/-- A message without a command word in it is a deletion, or none that the node knows. -/
lemma emergencyMessage_of_noCommand {msg : Bytes} (hnone : NoCommand msg) (node : Node)
    (removes : Bool) : node.emergencyMessage removes msg =
      if ascii "DELETE_CHUNK " <:+: msg then
        node.deleteReply removes (messageKey msg)
      else (node, none) := by
  have hdead : ¬ (ascii "DEAD" <:+: msg ∨ ascii "KILL" <:+: msg) := by
    rintro (h | h)
    · exact hnone _ (by simp [commandWords]) h
    · exact hnone _ (by simp [commandWords]) h
  have hrestart : ¬ ascii "RESTART" <:+: msg := hnone _ (by simp [commandWords])
  unfold Node.emergencyMessage
  simp only [isSome_find]
  rw [if_neg hdead, if_neg hrestart]
  rfl

/-- A deletion without a command word in it deletes the first word after byte 13. -/
lemma emergencyMessage_delete {msg key rest : Bytes} (hnone : NoCommand msg)
    (hdelete : ascii "DELETE_CHUNK " <:+: msg) (hkey : readWord (msg.drop 13) = some (key, rest))
    (node : Node) (removes : Bool) :
    node.emergencyMessage removes msg = node.deleteReply removes key := by
  rw [emergencyMessage_of_noCommand hnone, if_pos hdelete, messageKey, hkey]
  rfl

/-! ## The message -/

/-- Of a command word: it has neither of the separators of the message in it, it does not occur in
the message's own verb, and it has a capital in it. -/
lemma commandWords_spec : ∀ w ∈ commandWords, (32 : UInt8) ∉ w ∧ (95 : UInt8) ∉ w ∧
    ¬ w <:+: ascii "DELETE_CHUNK" ∧ w.any (fun b => 65 ≤ b.toNat && b.toNat ≤ 90) = true := by
  decide

/-- **A command word in the message of a delete stands in the file name.** -/
theorem infix_deleteMessage {w : Bytes} (hw : w ∈ commandWords) (f : Bytes) (c : Int)
    {eol : Bytes} (heol : eol ⊆ [10]) :
    w <:+: ascii "DELETE_CHUNK " ++ chunkKey f c ++ eol ↔ w <:+: f := by
  obtain ⟨hblank, hunder, hverb, hcapital⟩ := commandWords_spec w hw
  have hform : ascii "DELETE_CHUNK " ++ chunkKey f c ++ eol =
      ascii "DELETE_CHUNK" ++ 32 :: (f ++ 95 :: (ascii "chunk_" ++ dec c ++ eol)) := by
    simp [chunkKey, ascii]
  have htail : ¬ w <:+: ascii "chunk_" ++ dec c ++ eol := by
    intro h
    obtain ⟨b, hb, hcap⟩ := List.any_eq_true.mp hcapital
    simp only [Bool.and_eq_true, decide_eq_true_eq] at hcap
    rcases List.mem_append.mp (h.subset hb) with hb | hb
    · rcases List.mem_append.mp hb with hb | hb
      · have hlow : (ascii "chunk_").all (fun b => 90 < b.toNat) = true := by decide
        have := List.all_eq_true.mp hlow b hb
        simp only [decide_eq_true_eq] at this
        omega
      · rcases mem_dec hb with hb | rfl
        · simp only [isDigit, Bool.and_eq_true, decide_eq_true_eq] at hb
          omega
        · simp at hcap
    · have hnl : b = 10 := by simpa using heol hb
      rw [hnl] at hcap
      simp at hcap
  rw [hform, infix_append_cons hblank, infix_append_cons hunder]
  simp only [hverb, htail, false_or, or_false]

/-- The message as it is read, if its key is: all of it, up to the newline. -/
lemma take_deleteMessage {f : Bytes} {c : Int} {m : Nat} (h : 13 + (chunkKey f c).length ≤ m) :
    ∃ eol : Bytes, eol ⊆ [10] ∧
      (deleteMessage f c).take m = ascii "DELETE_CHUNK " ++ chunkKey f c ++ eol := by
  have hlen : (ascii "DELETE_CHUNK " ++ chunkKey f c).length ≤ m := by
    rw [List.length_append]
    exact h
  refine ⟨(ascii "\n").take (m - (ascii "DELETE_CHUNK " ++ chunkKey f c).length), ?_, ?_⟩
  · rw [show ascii "\n" = [10] from by decide]
    exact List.take_subset _ _
  · rw [deleteMessage, List.take_append, List.take_of_length_le hlen]

/-- A longer key arrives without its end. -/
lemma take_deleteMessage_of_long {f : Bytes} {c : Int} (h : 1010 < (chunkKey f c).length) :
    (deleteMessage f c).take 1023 = ascii "DELETE_CHUNK " ++ (chunkKey f c).take 1010 := by
  have hverb : (ascii "DELETE_CHUNK ").length = 13 := by decide
  have hlen : 1023 ≤ (ascii "DELETE_CHUNK " ++ chunkKey f c).length := by
    rw [List.length_append]
    omega
  rw [deleteMessage, List.take_append_of_le_length hlen, List.take_append, hverb,
    List.take_of_length_le (by omega)]

/-- The key of the message, as the listener reads it. -/
lemma readWord_delete {key eol : Bytes} (hkey : Word key) (heol : eol ⊆ [10]) :
    readWord ((ascii "DELETE_CHUNK " ++ key ++ eol).drop 13) = some (key, eol) := by
  have hdrop : (ascii "DELETE_CHUNK " ++ key ++ eol).drop 13 = key ++ eol := by
    rw [List.append_assoc]
    rfl
  rw [hdrop]
  refine readWord_append hkey ?_
  intro b hb
  have : b = 10 := by simpa using heol (List.mem_of_mem_head? hb)
  rw [this]
  rfl

lemma noSpace_chunkKey {f : Bytes} (hf : ∀ b ∈ f, isSpace b = false) (c : Int) :
    Word (chunkKey f c) := by
  refine ⟨by simp [chunkKey, ascii], fun b hb => ?_⟩
  rcases List.mem_append.mp hb with hb | hb
  · rcases List.mem_append.mp hb with hb | hb
    · exact hf b hb
    · exact noSpace_iff.mp (by decide) b hb
  · exact (word_dec c).2 b hb

/-- **The message deletes its key**, if the name contains no command word and the key is read. -/
lemma emergencyMessage_deleteMessage {f : Bytes} (hf : ∀ b ∈ f, isSpace b = false) {c : Int}
    (hnone : NoCommand f) {m : Nat} (hlen : 13 + (chunkKey f c).length ≤ m) (node : Node)
    (removes : Bool) :
    node.emergencyMessage removes ((deleteMessage f c).take m) =
      node.deleteReply removes (chunkKey f c) := by
  obtain ⟨eol, heol, hmsg⟩ := take_deleteMessage hlen
  rw [hmsg]
  refine emergencyMessage_delete ?_ ?_ (readWord_delete (noSpace_chunkKey hf c) heol) node
    removes
  · intro w hw
    rw [infix_deleteMessage hw f c heol]
    exact hnone w hw
  · rw [List.append_assoc]
    exact (List.prefix_append _ _).isInfix

/-- A node that has this key in its registry. -/
def nodeWith (key : Bytes) : Node := { chunkRegistry := (∅ : Map Bytes Bytes).insert key [] }

lemma deleteReply_nodeWith (key : Bytes) :
    ((nodeWith key).deleteReply true key).2 = some (ascii "SUCCESS\n") := by
  simp [Node.deleteReply, Node.deleteChunk, nodeWith]

lemma deleteReply_nodeWith_ne {key key' : Bytes} (h : key' ≠ key) :
    ((nodeWith key).deleteReply true key').2 = some (ascii "ERROR\n") := by
  simp [Node.deleteReply, Node.deleteChunk, nodeWith, h]

/-- **When the message of a delete is a delete.**  For a name without white space, every node that
finds the message whole when it reads handles it as the deletion of the key it carries, and neither
stops nor restarts, exactly when no command word occurs in the name and the key fits the listener's
buffer. -/
theorem deleteMessage_dispatch_iff (f : Bytes) (hf : ∀ b ∈ f, isSpace b = false) (c : Int) :
    (∀ (node : Node) (removes : Bool),
      node.emergencyMessage removes ((deleteMessage f c).take 1023) =
        node.deleteReply removes (chunkKey f c)) ↔
    NoCommand f ∧ (chunkKey f c).length ≤ 1010 := by
  constructor
  · intro h
    -- a node that has the key answers `SUCCESS`
    have hreply : ((nodeWith (chunkKey f c)).emergencyMessage true
        ((deleteMessage f c).take 1023)).2 = some (ascii "SUCCESS\n") := by
      rw [h]
      exact deleteReply_nodeWith _
    have hok : some (ascii "OK\n") ≠ some (ascii "SUCCESS\n") := by decide
    have herror : some (ascii "ERROR\n") ≠ some (ascii "SUCCESS\n") := by decide
    have hlen : (chunkKey f c).length ≤ 1010 := by
      by_contra hlong
      rw [not_le] at hlong
      rw [take_deleteMessage_of_long hlong] at hreply
      by_cases hnone : NoCommand (ascii "DELETE_CHUNK " ++ (chunkKey f c).take 1010)
      · -- only the beginning of the key is deleted, which the node does not know
        have hne : (chunkKey f c).take 1010 ≠ chunkKey f c := by
          intro heq
          have := congrArg List.length heq
          rw [List.length_take] at this
          omega
        have hword := (noSpace_chunkKey hf c).take (show 0 < 1010 by omega)
        have hread := readWord_delete hword (List.nil_subset [10])
        rw [List.append_nil] at hread
        rw [emergencyMessage_delete hnone (List.prefix_append _ _).isInfix hread,
          deleteReply_nodeWith_ne hne] at hreply
        exact herror hreply
      · simp only [NoCommand, not_forall, not_not] at hnone
        obtain ⟨w, hw, hoccurs⟩ := hnone
        rw [emergencyMessage_command hw hoccurs] at hreply
        exact hok hreply
    refine ⟨fun w hw hoccurs => ?_, hlen⟩
    obtain ⟨eol, heol, hmsg⟩ := take_deleteMessage (show 13 + (chunkKey f c).length ≤ 1023 by omega)
    rw [hmsg, emergencyMessage_command hw ((infix_deleteMessage hw f c heol).mpr hoccurs)] at hreply
    exact hok hreply
  · rintro ⟨hnone, hlen⟩ node removes
    exact emergencyMessage_deleteMessage hf hnone (by omega) node removes

/-- A file name of an ordinary kind, whose deletion stops every node that holds the file. -/
def deadlines : Bytes := ascii "DEADLINES.txt"

theorem deleteMessage_dispatch_iff_instance :
    (∀ (node : Node) (removes : Bool),
      node.emergencyMessage removes ((deleteMessage (ascii "notes.txt") 3).take 1023) =
        node.deleteReply removes (chunkKey (ascii "notes.txt") 3)) ∧
    ¬∀ (node : Node) (removes : Bool),
      node.emergencyMessage removes ((deleteMessage deadlines 3).take 1023) =
        node.deleteReply removes (chunkKey deadlines 3) := by
  constructor
  · exact (deleteMessage_dispatch_iff (ascii "notes.txt") (noSpace_iff.mp (by decide)) 3).mpr
      ⟨by decide, by decide⟩
  · intro h
    have hnone := ((deleteMessage_dispatch_iff deadlines (noSpace_iff.mp (by decide)) 3).mp h).1
    exact absurd hnone (by decide)

/-- **A delete stops a node**: the node that holds chunk 0 of `DEADLINES.txt` is asked to delete
it; it answers `OK`, keeps the chunk in its registry, and stops. -/
theorem delete_stops_node :
    let node := nodeWith (chunkKey deadlines 0)
    let result := node.emergencyMessage true ((deleteMessage deadlines 0).take 1023)
    Word deadlines ∧ node.running = true ∧ result.1.running = false ∧
      result.2 = some (ascii "OK\n") ∧
      result.1.chunkRegistry[chunkKey deadlines 0]? = some [] := by
  decide +kernel

end FileGrid
