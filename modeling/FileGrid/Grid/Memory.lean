import FileGrid.Grid.Sound

/-!
# What the nodes remember

`Sound` is about the bytes on the disks; a registry may forget a chunk and lose nothing by it.  A
delete is different: `delete_chunk` knows only the chunks of its registry.  So this file follows the
registries themselves through the steps of a grid.

`Undisturbed` says that every node runs as before and that the registries have changed for the given
keys only.  **`undisturbed_serveClient`**: a request about another file leaves the entries of a file
as they are and stops no node, provided that it is not a delete of a name with a command word in it,
and that no node takes what it reads of a delete for a message about this file.
-/

namespace FileGrid

/-- Every node is undisturbed. -/
def Undisturbed (keys : Set Bytes) (nodes nodes' : Nodes) : Prop :=
  ∀ n, Node.Undisturbed keys (nodes n) (nodes' n)

section

variable {keys : Set Bytes} {nodes nodes' nodes'' : Nodes}

lemma Undisturbed.refl (keys : Set Bytes) (nodes : Nodes) : Undisturbed keys nodes nodes :=
  fun n => Node.Undisturbed.refl keys (nodes n)

lemma Undisturbed.trans (h : Undisturbed keys nodes nodes')
    (h' : Undisturbed keys nodes' nodes'') : Undisturbed keys nodes nodes'' :=
  fun n => (h n).trans (h' n)

lemma Undisturbed.mono {keys' : Set Bytes} (h : Undisturbed keys nodes nodes')
    (hsub : keys ⊆ keys') : Undisturbed keys' nodes nodes' :=
  fun n => (h n).mono hsub

lemma undisturbed_request {β : Type} {target : Option Nat} (link : Link)
    {handle : Node → Node × β}
    (h : ∀ n, Node.Undisturbed keys (nodes n) (handle (nodes n)).1) :
    Undisturbed keys nodes (request nodes target link handle).1 := by
  intro n
  rcases request_cases nodes target link handle with heq | ⟨k, -, -, heq, -⟩
  · rw [heq]
    exact Node.Undisturbed.refl keys (nodes n)
  · rw [heq]
    by_cases hn : n = k
    · subst hn
      rw [Function.update_self]
      exact h n
    · rw [Function.update_of_ne hn]
      exact Node.Undisturbed.refl keys (nodes n)

end

/-! ## The messages of the base port -/

/-- A message without a command word stops no node, and deletes at most the key it carries. -/
lemma undisturbed_emergencyMessage {msg : Bytes} (hnone : NoCommand msg) (node : Node)
    (removes : Bool) : Node.Undisturbed {messageKey msg} node
      (node.emergencyMessage removes msg).1 := by
  rw [emergencyMessage_of_noCommand hnone]
  by_cases hdelete : ascii "DELETE_CHUNK " <:+: msg
  · rw [if_pos hdelete]
    exact Node.undisturbed_deleteChunk node removes _
  · rw [if_neg hdelete]
    exact Node.Undisturbed.refl _ node

/-- The message of a delete has no command word in it that is not in the name. -/
lemma noCommand_deleteMessage {f : Bytes} (hnone : NoCommand f) (env : DeleteEnv) (i : Nat)
    (c : Int) : NoCommand (env.read i (deleteMessage f c)) := by
  intro w hw hoccurs
  have hmsg : deleteMessage f c = ascii "DELETE_CHUNK " ++ chunkKey f c ++ [10] := rfl
  have hwhole : w <:+: ascii "DELETE_CHUNK " ++ chunkKey f c ++ [10] := by
    rw [← hmsg]
    exact hoccurs.trans (List.take_prefix _ _).isInfix
  exact hnone w hw ((infix_deleteMessage hw f c (by simp)).mp hwhole)

/-! ## The requests of clients -/

section

variable {d : Deployment} {dir : Nat → Bytes} {g : Grid}

lemma undisturbed_gridTransfers (env : TransferEnv) (nodes : Nodes) (filename : Bytes)
    (pending : List Transfer) :
    Undisturbed (Set.range (chunkKey filename) ∪ {[]}) nodes
      (gridTransfers d env nodes filename pending).1 := by
  refine runPool_invariant (fun s => Undisturbed _ nodes s) (Undisturbed.refl _ nodes) ?_
  intro s i t _ hs
  have hsend : Undisturbed (Set.range (chunkKey filename) ∪ {[]}) s
      (request s (d.transferNode t.server) (env.link i) fun node =>
        node.storeChunk (env.fault i) (env.epochUs i)
          (chunkMessage filename t.chunkId t.data).chunkId
          (chunkMessage filename t.chunkId t.data).data).1 := by
    refine undisturbed_request (env.link i) fun n => ?_
    refine (Node.undisturbed_storeChunk (s n) (env.fault i) (env.epochUs i) _ _).mono ?_
    rintro k rfl
    rcases chunkMessage_chunkId filename t.data t.chunkId with hk | hk
    · exact Or.inl ⟨t.chunkId, hk.symm⟩
    · exact Or.inr hk
  exact hs.trans hsend

lemma undisturbed_upload (env : RequestEnv) (g : Grid) (initialReq stream : Bytes) :
    Undisturbed {k | k = [] ∨ ∃ r, parseUploadRequest d.chunkSize initialReq = .ok r ∧
      k ∈ Set.range (chunkKey r.filename)} g.nodes
      (gridUpload d env g initialReq stream).1.nodes := by
  rcases upload_state (gridTransfers d env.transfers) (d.uploadEnv env) g.nodes g.metadata
    initialReq stream with heq | ⟨r, hparse, heq⟩
  · rw [show (gridUpload d env g initialReq stream).1.nodes = g.nodes from heq]
    exact Undisturbed.refl _ g.nodes
  · rw [show (gridUpload d env g initialReq stream).1.nodes = _ from heq]
    refine (undisturbed_gridTransfers env.transfers g.nodes r.filename _).mono ?_
    rintro k (hk | hk)
    · exact Or.inr ⟨r, hparse, hk⟩
    · exact Or.inl hk

lemma undisturbed_download (env : DownloadEnv) (nodes : Nodes) (m : MetadataMap)
    (filename : Bytes) :
    Undisturbed (Set.range (chunkKey filename)) nodes
      (streamFileToClient d env nodes m filename).1 := by
  unfold streamFileToClient streamFileToClientOn
  dsimp only
  by_cases hnil : (getChunkLocations m filename).1 = []
  · rw [if_pos hnil]
    exact Undisturbed.refl _ nodes
  · rw [if_neg hnil]
    have hreplies : Undisturbed (Set.range (chunkKey filename)) nodes
        (hashReplies d env nodes filename (getChunkLocations m filename).1).1 := by
      refine runPool_invariant (fun s => Undisturbed _ nodes s) (Undisturbed.refl _ nodes) ?_
      intro s i loc _ hs
      have hread : Undisturbed (Set.range (chunkKey filename)) s
          (request s (d.transferNode loc.serverIp) (env.link i) fun node =>
            node.retrieveChunk (chunkKey filename loc.chunkId) loc.filePath).1 := by
        refine undisturbed_request (env.link i) fun n => ?_
        refine (Node.undisturbed_retrieveChunk (s n) _ _).mono ?_
        rintro k rfl
        exact ⟨loc.chunkId, rfl⟩
      exact hs.trans hread
    split
    · exact hreplies
    · exact hreplies

lemma undisturbed_deleteChunks {f : Bytes} (hf : Word f) (hnone : NoCommand f) (env : DeleteEnv)
    (i : Nat) (locs : List ChunkLocation) (nodes : Nodes) :
    Undisturbed (deletedKeys env f) nodes (deleteChunks d env f i locs nodes).1 := by
  induction locs generalizing i nodes with
  | nil => exact Undisturbed.refl _ nodes
  | cons loc locs ih =>
      have hstep : Undisturbed (deletedKeys env f) nodes
          (request nodes (d.baseNode loc.serverIp) (env.link i) fun node => node.emergencyMessage
            (env.removes i) (env.read i (deleteMessage f loc.chunkId))).1 := by
        refine undisturbed_request (env.link i) fun n => ?_
        refine (undisturbed_emergencyMessage (noCommand_deleteMessage hnone env i loc.chunkId)
          (nodes n) (env.removes i)).mono ?_
        intro k hk
        rw [Set.mem_singleton_iff.mp hk]
        exact messageKey_mem_deletedKeys hf env i loc.chunkId
      exact hstep.trans (ih (i + 1) _)

/-- The keys that are none of the file's, or too long for a node to read them in full. -/
def otherKeys (f : Bytes) : Set Bytes := {k | ∀ c, chunkKey f c = k → 1010 ≤ k.length}

lemma range_subset_otherKeys {f f' : Bytes} (h : f' ≠ f) :
    Set.range (chunkKey f') ⊆ otherKeys f := by
  rintro k ⟨c', rfl⟩ c heq
  exact absurd (chunkKey_injective heq).1.symm h

/-- **A request about another file does not disturb the chunks of this one.** -/
theorem undisturbed_serveClient (hg : g.Sound d dir) (env : RequestEnv) {received f : Bytes}
    (hf : ¬ (ActsOn d received f ∨ MistakenFor env.delete received f))
    (hnone : ∀ f', clientRequest received = .delete f' → NoCommand f') (stream : Bytes) :
    Undisturbed (otherKeys f) g.nodes (serveClient d env g received stream).nodes := by
  obtain ⟨hf, hmistaken⟩ := not_or.mp hf
  unfold ActsOn at hf
  unfold serveClient
  cases hreq : clientRequest received with
  | download filename =>
      rw [hreq] at hf
      exact (undisturbed_download env.download g.nodes g.metadata filename).mono
        (range_subset_otherKeys hf)
  | delete filename =>
      rw [hreq] at hf
      dsimp only
      unfold handleClientDelete
      dsimp only
      by_cases hnil : (getChunkLocations g.metadata filename).1 = []
      · rw [if_pos hnil]
        exact Undisturbed.refl _ g.nodes
      · rw [if_neg hnil]
        -- a file with locations is recorded, so its name is a word
        obtain ⟨loc, hloc⟩ := List.exists_mem_of_ne_nil _ hnil
        obtain ⟨p, hp, -⟩ := mem_getChunkLocations hloc
        have hdelete := undisturbed_deleteChunks (d := d) (hg.records.word hp)
          (hnone filename hreq) env.delete 0 (getChunkLocations g.metadata filename).1 g.nodes
        have hkeys : deletedKeys env.delete filename ⊆ otherKeys f := by
          rintro k (hk | hk | ⟨i, c', harrived, hk⟩)
          · exact range_subset_otherKeys hf hk
          · exact fun c _ => hk
          · exact fun c heq => absurd
              ⟨filename, hreq, i, c, c', harrived, hk.trans heq.symm⟩ hmistaken
        split_ifs
        · exact hdelete.mono hkeys
        · exact hdelete.mono hkeys
  | upload initialReq =>
      rw [hreq] at hf
      refine (undisturbed_upload env g initialReq stream).mono ?_
      rintro k (rfl | ⟨r, hparse, hk⟩)
      · exact fun c heq => absurd heq (by simp [chunkKey, ascii])
      · exact range_subset_otherKeys (fun heq => hf ⟨r, hparse, heq⟩) hk
  | list => exact Undisturbed.refl _ g.nodes
  | unknown => exact Undisturbed.refl _ g.nodes

end

end FileGrid
