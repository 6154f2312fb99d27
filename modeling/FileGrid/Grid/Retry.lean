import FileGrid.Grid.Delete
import FileGrid.Grid.Durability

/-!
# Which files can be deleted

Two things decide whether a file that was uploaded can be deleted again.

* A file without records is not found.  An empty file has none, so **`delete_uploaded_iff`**: an
  uploaded file can be deleted when it is not empty and has no command word in its name, and every
  node reads its message in full.
* A node answers `ERROR` for a chunk that it has already deleted.  An attempt that fails has deleted
  the chunks on the nodes it did reach, and every later attempt fails on these.
  **`delete_retry_iff`**: after failed attempts a file can be deleted when none of them has made a
  node delete anything, and none of its nodes was restarted, which makes it forget its chunks.

Both conditions are exact unless a node reads a message in part, and takes it for one about another
chunk.

The file is `Intact` as long as no step `Reaches` one of its chunks, and `Spoiled` from then on.
-/

namespace FileGrid

/-! ## Steps between the upload and the last attempt -/

/-- A request about another file that the head survives, that stops no node, and that no node takes
for one about this file. -/
def GridOp.Quiet (d : Deployment) (f : Bytes) : GridOp → Prop
  | .client env received _ =>
      ¬ (ActsOn d received f ∨ MistakenFor env.delete received f) ∧ ¬ CrashesHead d received ∧
        ∀ f', clientRequest received = .delete f' → NoCommand f'
  | _ => False

/-- A request about another file, a node that stops or is started again, or an attempt to delete
the file. -/
def GridOp.Retry (d : Deployment) (f : Bytes) : GridOp → Prop
  | .client env received stream =>
      GridOp.Quiet d f (.client env received stream) ∨ clientRequest received = .delete f
  | .crash _ => True
  | .restart _ => True
  | .failover _ _ _ => False

/-- The step makes a node forget a chunk: it reads a message of an attempt to delete the file as the
deletion of a chunk that it has, or it is started again. -/
def Reaches (d : Deployment) (f : Bytes) (g : Grid) : GridOp → Prop
  | .client env received _ => clientRequest received = .delete f ∧
      ∃ i p, (g.metadata.placementsOf f)[i]? = some p ∧
        Hits d (env.delete.heard i) (env.delete.keyRead i f p) g.nodes p
  | .restart n => ∃ p ∈ g.metadata.placementsOf f, d.baseNode p.server = some n
  | _ => False

/-- Of an attempt to delete the file, no node reads a message in part. -/
def GridOp.NotInPart (f : Bytes) (ps : List Placement) : GridOp → Prop
  | .client env received _ => clientRequest received = .delete f → env.delete.NotInPart f ps
  | _ => True

/-- The file is as it was: its records are there, and every node knows its chunk. -/
structure Intact (d : Deployment) (dir : Nat → Bytes) (f : Bytes) (ps : List Placement) (g : Grid) :
    Prop where
  sound : g.Sound d dir
  records : g.metadata.placementsOf f = ps
  knows : ∀ p ∈ ps, Knows d f g.nodes p

/-- The records of the file are gone, or one of its chunks is forgotten. -/
structure Spoiled (d : Deployment) (dir : Nat → Bytes) (f : Bytes) (ps : List Placement)
    (g : Grid) : Prop where
  sound : g.Sound d dir
  spoiled : g.metadata.placementsOf f = [] ∨
    (g.metadata.placementsOf f = ps ∧ ∃ p ∈ ps, Forgot d f g.nodes p)

section

variable {d : Deployment} {dir : Nat → Bytes} {f : Bytes} {ps : List Placement} {g : Grid}

lemma serveClient_delete (env : RequestEnv) {received : Bytes}
    (h : clientRequest received = .delete f) (stream : Bytes) :
    serveClient d env g received stream =
      { nodes := (handleClientDelete d env.delete g.nodes g.metadata f).1
        metadata := (handleClientDelete d env.delete g.nodes g.metadata f).2.1 } := by
  unfold serveClient
  rw [h]

/-- A quiet step leaves the records of the file and the registries alone. -/
lemma quiet_step (hd : Addressed d dir) (hg : g.Sound d dir) {op : GridOp} (hop : op.Quiet d f) :
    (gridStep d g op).metadata.placementsOf f = g.metadata.placementsOf f ∧
      Undisturbed (otherKeys f) g.nodes (gridStep d g op).nodes := by
  cases op with
  | client env received stream =>
      exact ⟨(leavesAlone_serveClient hd hg env received stream).placements f hop.1,
        undisturbed_serveClient hg env hop.1 hop.2.2 stream⟩
  | crash n => exact hop.elim
  | restart n => exact hop.elim
  | failover env health dead => exact hop.elim

/-- No step adds records to the file. -/
lemma records_step (hd : Addressed d dir) (hg : g.Sound d dir) (hf : f ≠ []) {op : GridOp}
    (hop : op.Retry d f) :
    (gridStep d g op).metadata.placementsOf f = g.metadata.placementsOf f ∨
      (gridStep d g op).metadata.placementsOf f = [] := by
  cases op with
  | client env received stream =>
      rcases hop with hquiet | hdelete
      · exact Or.inl (quiet_step hd hg hquiet).1
      · rw [gridStep, serveClient_delete env hdelete]
        dsimp only
        rw [handleClientDelete_metadata hf]
        split_ifs
        · exact Or.inr ((MetadataMap.placements_deleteEntry _ _ _ hf).trans (if_pos rfl))
        · exact Or.inl rfl
  | crash n => exact Or.inl rfl
  | restart n => exact Or.inl rfl
  | failover env health dead => exact hop.elim

lemma crash_get (g : Grid) (n n' : Nat) (k : Bytes) :
    ((gridStep d g (.crash n)).nodes n').chunkRegistry[k]? = (g.nodes n').chunkRegistry[k]? := by
  rw [gridStep]
  by_cases hn : n' = n
  · rw [hn]
    dsimp only
    rw [Function.update_self]
    rfl
  · dsimp only
    rw [Function.update_of_ne hn]

lemma restart_get (g : Grid) (n n' : Nat) (k : Bytes) :
    ((gridStep d g (.restart n)).nodes n').chunkRegistry[k]? =
      if n' = n then none else (g.nodes n').chunkRegistry[k]? := by
  rw [gridStep]
  dsimp only
  by_cases hn : n' = n
  · rw [hn, Function.update_self, if_pos rfl]
    simp [Node.restart]
  · rw [Function.update_of_ne hn, if_neg hn]

/-- **A step that does not reach the chunks leaves the file intact.** -/
lemma intact_step (hd : Addressed d dir) (hfol : Followed d f ps) (hnone : NoCommand f)
    (hne : ps ≠ []) (h : Intact d dir f ps g) {op : GridOp} (hop : op.Retry d f)
    (hreach : ¬ Reaches d f g op) : Intact d dir f ps (gridStep d g op) := by
  have hsound := sound_gridStep hd h.sound op
  cases op with
  | client env received stream =>
      rcases hop with hquiet | hdelete
      · obtain ⟨hrecords, hstep⟩ := quiet_step hd h.sound hquiet
        exact ⟨hsound, hrecords.trans h.records,
          fun p hp => (h.knows p hp).undisturbed (hfol.key p hp) hstep⟩
      · obtain ⟨hstep, hfails⟩ := deleteChunks_misses hfol hnone env.delete 0 g.nodes
          (fun j p hp hhits => by
            rw [Nat.zero_add] at hhits
            exact hreach ⟨hdelete, j, p, by rw [h.records]; exact hp, hhits⟩)
        refine ⟨hsound, ?_, fun p hp => ?_⟩
        · rw [gridStep, serveClient_delete env hdelete, handleClientDelete_eq hfol.name.1,
            h.records, if_neg hne, if_neg (by simp [hfails hne])]
          exact h.records
        · rw [gridStep, serveClient_delete env hdelete, handleClientDelete_eq hfol.name.1,
            h.records, if_neg hne, if_neg (by simp [hfails hne])]
          exact (h.knows p hp).undisturbed (hfol.key p hp)
            (hstep.mono (Set.empty_subset (otherKeys f)))
  | crash n =>
      refine ⟨hsound, h.records, fun p hp => ?_⟩
      obtain ⟨n', hn', hknows⟩ := h.knows p hp
      exact ⟨n', hn', by rw [crash_get]; exact hknows⟩
  | restart n =>
      refine ⟨hsound, h.records, fun p hp => ?_⟩
      obtain ⟨n', hn', hknows⟩ := h.knows p hp
      have hother : n' ≠ n := by
        rintro rfl
        exact hreach ⟨p, by rw [h.records]; exact hp, hn'⟩
      exact ⟨n', hn', by rw [restart_get, if_neg hother]; exact hknows⟩
  | failover env health dead => exact hop.elim

/-- **A step that reaches a chunk spoils the file.** -/
lemma spoiled_of_reaches (hd : Addressed d dir) (hfol : Followed d f ps) (hnone : NoCommand f)
    (h : Intact d dir f ps g) {op : GridOp} (hpart : op.NotInPart f ps)
    (hreach : Reaches d f g op) : Spoiled d dir f ps (gridStep d g op) := by
  have hsound := sound_gridStep hd h.sound op
  cases op with
  | client env received stream =>
      obtain ⟨hdelete, i, p, hp, hheard, n, hn, hrun, -⟩ := hreach
      rw [h.records] at hp
      -- the node reads the verb, and hence the key
      have hwhole : env.delete.Whole i f p :=
        (hpart hdelete i p hp).resolve_left fun hunread => hheard (if_pos hunread)
      rw [DeleteEnv.heard_of_whole hwhole] at hheard
      have hforgot : Forgot d f (deleteChunks d env.delete f 0 (ps.map (·.location)) g.nodes).1 p :=
        deleteChunks_through hfol hnone 0 hp (by rwa [Nat.zero_add]) (by rwa [Nat.zero_add])
          ⟨n, hn, hrun⟩
      refine ⟨hsound, ?_⟩
      have hne : ps ≠ [] := List.ne_nil_of_mem (List.mem_of_getElem? hp)
      rw [gridStep, serveClient_delete env hdelete, handleClientDelete_eq hfol.name.1, h.records,
        if_neg hne]
      split_ifs
      · exact Or.inl ((MetadataMap.placements_deleteEntry _ _ _ hfol.name.1).trans (if_pos rfl))
      · exact Or.inr ⟨h.records, p, List.mem_of_getElem? hp, hforgot⟩
  | restart n =>
      obtain ⟨p, hp, hn⟩ := hreach
      rw [h.records] at hp
      refine ⟨hsound, Or.inr ⟨h.records, p, hp, fun n' hn' => ?_⟩⟩
      rw [restart_get, if_pos (Option.some.inj (hn'.symm.trans hn))]
  | crash n => exact hreach.elim
  | failover env health dead => exact hreach.elim

/-- **What is spoiled stays spoiled.** -/
lemma spoiled_step (hd : Addressed d dir) (hfol : Followed d f ps) (hnone : NoCommand f)
    (h : Spoiled d dir f ps g) {op : GridOp} (hop : op.Retry d f) (hpart : op.NotInPart f ps) :
    Spoiled d dir f ps (gridStep d g op) := by
  refine ⟨sound_gridStep hd h.sound op, ?_⟩
  rcases h.spoiled with hnil | ⟨hrecords, p, hp, hforgot⟩
  · rcases records_step hd h.sound hfol.name.1 hop with hsame | hgone
    · exact Or.inl (hsame.trans hnil)
    · exact Or.inl hgone
  cases op with
  | client env received stream =>
      rcases hop with hquiet | hdelete
      · obtain ⟨hsame, hstep⟩ := quiet_step hd h.sound hquiet
        exact Or.inr ⟨hsame.trans hrecords, p, hp, hforgot.undisturbed (hfol.key p hp) hstep⟩
      · have hfails : ¬ (deleteChunks d env.delete f 0 (ps.map (·.location)) g.nodes).2 = true := by
          rw [deleteChunks_of_forgot hfol hnone (hpart hdelete) hp hforgot]
          simp
        rw [gridStep, serveClient_delete env hdelete, handleClientDelete_eq hfol.name.1, hrecords,
          if_neg (List.ne_nil_of_mem hp), if_neg hfails]
        exact Or.inr ⟨hrecords, p, hp, hforgot.deleteChunks hfol hnone env.delete 0⟩
  | crash n =>
      refine Or.inr ⟨hrecords, p, hp, fun n' hn' => ?_⟩
      rw [crash_get]
      exact hforgot n' hn'
  | restart n =>
      refine Or.inr ⟨hrecords, p, hp, fun n' hn' => ?_⟩
      rw [restart_get]
      split_ifs
      · rfl
      · exact hforgot n' hn'
  | failover env health dead => exact hop.elim

lemma intact_run (hd : Addressed d dir) (hfol : Followed d f ps) (hnone : NoCommand f)
    (hne : ps ≠ []) {ops : List GridOp} (hops : ∀ op ∈ ops, op.Retry d f)
    (h : Intact d dir f ps g)
    (hall : AlongRun (gridStep d) (fun g op => ¬ Reaches d f g op) g ops) :
    Intact d dir f ps (gridRun d g ops) := by
  induction ops generalizing g with
  | nil => exact h
  | cons op ops ih =>
      exact ih (fun op' hop' => hops op' (List.mem_cons_of_mem op hop'))
        (intact_step hd hfol hnone hne h (hops op List.mem_cons_self) hall.1) hall.2

/-- After any other run it is spoiled, if no node has read a message in part. -/
lemma spoiled_run (hd : Addressed d dir) (hfol : Followed d f ps) (hnone : NoCommand f)
    (hne : ps ≠ []) {ops : List GridOp} (hops : ∀ op ∈ ops, op.Retry d f)
    (hpart : ∀ op ∈ ops, op.NotInPart f ps) (h : Intact d dir f ps g)
    (hall : ¬ AlongRun (gridStep d) (fun g op => ¬ Reaches d f g op) g ops) :
    Spoiled d dir f ps (gridRun d g ops) := by
  induction ops generalizing g with
  | nil => exact absurd trivial hall
  | cons op ops ih =>
      have hop := hops op List.mem_cons_self
      have hrest : ∀ op' ∈ ops, op'.Retry d f ∧ op'.NotInPart f ps := fun op' hop' =>
        ⟨hops op' (List.mem_cons_of_mem op hop'), hpart op' (List.mem_cons_of_mem op hop')⟩
      by_cases hreach : Reaches d f g op
      · refine List.foldlRecOn (motive := Spoiled d dir f ps) ops _
          (spoiled_of_reaches hd hfol hnone h (hpart op List.mem_cons_self) hreach) ?_
        exact fun g hg op' hop' =>
          spoiled_step hd hfol hnone hg (hrest op' hop').1 (hrest op' hop').2
      · exact ih (fun op' hop' => (hrest op' hop').1) (fun op' hop' => (hrest op' hop').2)
          (intact_step hd hfol hnone hne h hop hreach) fun hrun => hall ⟨hreach, hrun⟩

/-- The records of the file after a run are those of the upload, or none. -/
lemma records_run (hd : Addressed d dir) (hf : f ≠ []) (h : Intact d dir f ps g)
    {ops : List GridOp} (hops : ∀ op ∈ ops, op.Retry d f) :
    (gridRun d g ops).metadata.placementsOf f = [] ∨
      (gridRun d g ops).metadata.placementsOf f = ps := by
  have hrun : (gridRun d g ops).Sound d dir ∧
      ((gridRun d g ops).metadata.placementsOf f = [] ∨
        (gridRun d g ops).metadata.placementsOf f = ps) := by
    refine List.foldlRecOn (motive := fun g : Grid => g.Sound d dir ∧
      (g.metadata.placementsOf f = [] ∨ g.metadata.placementsOf f = ps)) ops _
        ⟨h.sound, Or.inr h.records⟩ ?_
    rintro g ⟨hg, hrec⟩ op hop
    refine ⟨sound_gridStep hd hg op, ?_⟩
    rcases records_step hd hg hf (hops op hop) with hsame | hgone
    · rw [hsame]
      exact hrec
    · exact Or.inl hgone
  exact hrun.2

section

variable {ops : List GridOp} {env : DeleteEnv}

/-- **When the last attempt succeeds**: the nodes still know their chunks and read their
messages. -/
lemma delete_succeeds (hd : Addressed d dir) (hfol : Followed d f ps) (h : Intact d dir f ps g)
    (hops : ∀ op ∈ ops, op.Retry d f)
    (hruns : ∀ p ∈ ps, BaseRuns d (gridRun d g ops).nodes p)
    (hup : ∀ i, env.link i = .up ∧ env.removes i = true) (hne : ps ≠ []) (hnone : NoCommand f)
    (hwhole : ∀ i p, ps[i]? = some p → env.Whole i f p)
    (hall : AlongRun (gridStep d) (fun g op => ¬ Reaches d f g op) g ops) :
    (handleClientDelete d env (gridRun d g ops).nodes (gridRun d g ops).metadata f).2.2 =
        ascii "SUCCESS\n" := by
  have hend := intact_run hd hfol hnone hne hops h hall
  rw [handleClientDelete_success_iff hfol.name.1, hend.records]
  refine ⟨hne, deleteChunks_success hfol hnone hup 0 (fun j p hp => ?_) hend.knows hruns⟩
  rw [Nat.zero_add]
  exact hwhole j p hp

/-- It succeeds in no other case, if no node reads a message in part. -/
lemma delete_succeeds_only (hd : Addressed d dir) (hfol : Followed d f ps)
    (h : Intact d dir f ps g) (hops : ∀ op ∈ ops, op.Retry d f)
    (hpart : ∀ op ∈ ops, op.NotInPart f ps) (hlast : env.NotInPart f ps)
    (hsuccess : (handleClientDelete d env (gridRun d g ops).nodes
      (gridRun d g ops).metadata f).2.2 = ascii "SUCCESS\n") :
    ps ≠ [] ∧ NoCommand f ∧ (∀ i p, ps[i]? = some p → env.Whole i f p) ∧
      AlongRun (gridStep d) (fun g op => ¬ Reaches d f g op) g ops := by
  rw [handleClientDelete_success_iff hfol.name.1] at hsuccess
  obtain ⟨hrecords, hdeleted⟩ := hsuccess
  have hsame := (records_run hd hfol.name.1 h hops).resolve_left hrecords
  rw [hsame] at hrecords hdeleted
  have hnone : NoCommand f := by
    by_contra hcommand
    rw [deleteChunks_command hfol hcommand hrecords hlast] at hdeleted
    cases hdeleted
  refine ⟨hrecords, hnone, fun i p hp => (hlast i p hp).resolve_left fun hunread => ?_, ?_⟩
  · rw [deleteChunks_fails hfol hnone 0 hp (Or.inl (by rwa [Nat.zero_add]))] at hdeleted
    cases hdeleted
  · by_contra hall
    rcases (spoiled_run hd hfol hnone hrecords hops hpart h hall).spoiled with
      hnil | ⟨-, p, hp, hforgot⟩
    · exact hrecords (hsame.symm.trans hnil)
    · rw [deleteChunks_of_forgot hfol hnone hlast hp hforgot] at hdeleted
      cases hdeleted

end

end

/-! ## After an upload -/

/-- A file whose request line arrives whole and whose messages arrive. -/
structure Uploadable (chunkSize : Nat) (f content : Bytes) : Prop where
  positive : 0 < chunkSize
  name : Word f
  nul : (0 : UInt8) ∉ f
  request : (uploadRequest chunkSize f content).length < 1023
  small : ∀ (i : Nat) (data : Bytes), (clientChunks chunkSize content)[i]? = some data →
    ChunkData.byteSize { chunkId := chunkKey f i, filename := f, data } < 2 ^ 31

lemma Uploadable.key_length {chunkSize : Nat} {f content : Bytes}
    (h : Uploadable chunkSize f content)
    (hcount : (clientChunks chunkSize content).length ≤ 2 ^ 31) {i : Nat}
    (hi : i < (clientChunks chunkSize content).length) : (chunkKey f i).length < 1010 := by
  have hrequest := h.request
  have hdigits : (natDec i).length ≤ 10 := length_natDec_le (by omega) (by omega)
  have h6 : (ascii "UPLOAD").length = 6 := rfl
  have h7 : (ascii "_chunk_").length = 7 := rfl
  have h64 : (clientHash content).length = 64 := by rw [clientHash_eq, length_sha256]
  simp only [uploadRequest, List.length_append, List.length_cons] at hrequest
  simp only [chunkKey, dec_natCast, List.length_append]
  omega

section

variable {d : Deployment} {dir : Nat → Bytes} {f : Bytes} {g : Grid} {env : RequestEnv}

/-- A node that reports a transfer runs and knows the chunk. -/
lemma knows_gridTransfers (nodes : Nodes) {pending : List Transfer}
    (hsmall : ∀ t ∈ pending, ChunkData.byteSize
      { chunkId := chunkKey f t.chunkId, filename := f, data := t.data } < 2 ^ 31)
    {i : Nat} {t : Transfer} (ht : pending[i]? = some t) {path : Bytes}
    (hpath : (gridTransfers d env.transfers nodes f pending).2[i]? = some (some path)) :
    ∃ n, d.transferNode t.server = some n ∧
      ((gridTransfers d env.transfers nodes f pending).1 n).running = true ∧
      (((gridTransfers d env.transfers nodes f pending).1 n).chunkRegistry[chunkKey f
        t.chunkId]?).isSome = true := by
  obtain ⟨outcome, hget, hpost⟩ := (gridTransfers_rule d env.transfers nodes f pending
    (fun _ => True)
    (fun s _ t outcome => ∀ path, outcome = some path → ∃ n, d.transferNode t.server = some n ∧
      (s n).running = true ∧ ((s n).chunkRegistry[chunkKey f t.chunkId]?).isSome = true) trivial
    (by
      intro s j t hj _
      refine ⟨trivial, fun path hpath => ?_⟩
      rcases sendChunkToServer_cases d s (env.transfers.link j) (env.transfers.fault j)
        (env.transfers.epochUs j) t.server f t.chunkId t.data with heq | ⟨n, hn, hrun, heq, hreport⟩
      · rw [heq] at hpath
        cases hpath
      · have hreport := hreport path hpath
        rw [chunkMessage_of_small (hsmall t (List.mem_of_getElem? hj))] at heq hreport
        refine ⟨n, hn, ?_, ?_⟩
        · rw [heq, Function.update_self, Node.running_storeChunk]
          exact hrun
        · rw [heq, Function.update_self]
          exact Node.isSome_storeChunk hreport)
    (by
      intro s j t j' t' outcome _ _ _ _ hpost path hpath
      obtain ⟨n, hn, hrun, hknows⟩ := hpost path hpath
      refine ⟨n, hn, ?_⟩
      rcases sendChunkToServer_cases d s (env.transfers.link j) (env.transfers.fault j)
        (env.transfers.epochUs j) t.server f t.chunkId t.data with heq | ⟨k, -, -, heq, -⟩
      · rw [heq]
        exact ⟨hrun, hknows⟩
      · rw [heq]
        by_cases hnk : n = k
        · subst hnk
          rw [Function.update_self]
          exact ⟨(Node.running_storeChunk _ _ _ _ _).trans hrun,
            Node.isSome_of_storeChunk hknows _ _ _ _⟩
        · rw [Function.update_of_ne hnk]
          exact ⟨hrun, hknows⟩)).2 i t ht
  obtain rfl : some path = outcome := Option.some.inj (hpath.symm.trans hget)
  exact hpost path rfl

/-- The request that the head reads off the line of a client. -/
def sentRequest (chunkSize : Nat) (f content : Bytes) : UploadRequest where
  filename := f
  fileSize := content.length
  numChunks := (clientChunks chunkSize content).length
  fileHash := sha256 content

/-- The replicas that the upload of a client records. -/
def recordedReplicas (d : Deployment) (env : RequestEnv) (g : Grid) (chunkSize : Nat)
    (f content : Bytes) : List ChunkInfo :=
  storedReplicas (gridTransfers d env.transfers) (d.uploadEnv env) g.nodes
    (uploadStream chunkSize content) (sentRequest chunkSize f content)

variable {chunkSize : Nat} {content : Bytes}

/-- An upload that succeeds: the head has received the chunks of the file, and something was stored
unless there was nothing to store. -/
lemma fileUpload_received (hsend : Uploadable chunkSize f content)
    (h : (fileUpload d env g chunkSize f content).2 = true) :
    parseUploadRequest (d.uploadEnv env).chunkSize (uploadRequest chunkSize f content) =
        .ok (sentRequest chunkSize f content) ∧
      ((sentRequest chunkSize f content).received (uploadStream chunkSize content)).1 =
        receivedFrom 0 (clientChunks chunkSize content) ∧
      (clientChunks chunkSize content).length ≤ 2 ^ 31 ∧
      (recordedReplicas d env g chunkSize f content ≠ [] ↔ content ≠ []) := by
  rw [fileUpload_eq hsend.request hsend.nul] at h
  obtain ⟨r, hparse, ⟨hended, -⟩, hstored⟩ := (upload_success_iff (gridTransfers d env.transfers)
    (d.uploadEnv env) g.nodes g.metadata _ _).mp (of_decide_eq_true h)
  obtain ⟨hr, hlen⟩ := uploadRequest_parsed hsend.name hparse
  obtain rfl : r = sentRequest chunkSize f content := hr
  obtain ⟨hreceived, hcount⟩ := uploadStream_received rfl rfl hlen hended
  refine ⟨hparse, hreceived, hcount, ?_, fun hne => ?_⟩
  · rintro hne rfl
    exact hne (storedReplicas_of_empty _ _ _ _ rfl)
  · exact hstored.resolve_left fun hzero => hne (List.length_eq_zero_iff.mp hzero)

lemma fileUpload_records (hd : Addressed d dir) (hg : g.Sound d dir)
    (hsend : Uploadable chunkSize f content)
    (h : (fileUpload d env g chunkSize f content).2 = true) :
    (fileUpload d env g chunkSize f content).1.metadata.placementsOf f =
      (recordedReplicas d env g chunkSize f content).map (·.placement) := by
  have hname : Word (sentRequest chunkSize f content).filename := hsend.name
  have hhash : Word (sentRequest chunkSize f content).fileHash := word_sha256 content
  obtain ⟨hparse, -⟩ := fileUpload_received hsend h
  rw [fileUpload_eq hsend.request hsend.nul] at h ⊢
  have hcommit := upload_commits (gridTransfers d env.transfers) (d.uploadEnv env) g.nodes
    g.metadata _ _ hparse (of_decide_eq_true h)
  rw [show (gridUpload d env g _ _).1.metadata = _ from hcommit,
    placementsOf_storeMetadata_readable _ _ hname.not_mem_newline hhash.not_mem_newline
      (fun c hc => (storedReplicas_sound hd hg.nodes env hname hc).1)]
  exact if_pos rfl

/-- Each record is of a chunk of the file, on a registered server whose node runs and knows it. -/
lemma recorded_spec (hd : Administered d dir) (hsend : Uploadable chunkSize f content)
    (h : (fileUpload d env g chunkSize f content).2 = true) {p : Placement}
    (hp : p ∈ (recordedReplicas d env g chunkSize f content).map (·.placement)) :
    (∃ i : Nat, p.chunkId = i ∧ i < (clientChunks chunkSize content).length) ∧
      d.Registers p.server ∧
      BaseRuns d (fileUpload d env g chunkSize f content).1.nodes p ∧
      Knows d f (fileUpload d env g chunkSize f content).1.nodes p := by
  obtain ⟨hparse, hreceived, -⟩ := fileUpload_received hsend h
  rw [recordedReplicas, storedReplicas, hreceived] at hp
  obtain ⟨i, t, path, ht, hpath, rfl⟩ := mem_collectTransfers.mp hp
  obtain ⟨hregistered, k, hk, hdata⟩ :=
    spec_of_mem_pending hd.toAddressed (List.mem_of_getElem? ht)
  have hlt := (List.getElem?_eq_some_iff.mp hdata).1
  have hsize : content.length ≠ 0 := by
    intro hempty
    rw [clientChunks_nil hempty] at hlt
    exact absurd hlt (by simp)
  obtain ⟨n, hn, hrun, hknows⟩ := knows_gridTransfers g.nodes
    (fun t ht => by
      obtain ⟨-, k, hk, hdata⟩ := spec_of_mem_pending hd.toAddressed ht
      rw [hk]
      exact hsend.small k t.data hdata) ht hpath
  have hnodes : (fileUpload d env g chunkSize f content).1.nodes =
      (gridTransfers d env.transfers g.nodes f ((d.uploadEnv env).pending
        (receivedFrom 0 (clientChunks chunkSize content)))).1 := by
    rw [fileUpload_eq hsend.request hsend.nul]
    have hstate := upload_state_of_size (gridTransfers d env.transfers) (d.uploadEnv env) g.nodes
      g.metadata _ (uploadStream chunkSize content) hparse hsize
    rw [hreceived] at hstate
    exact hstate
  obtain ⟨n', hn', hbase⟩ := hd.node t.server hregistered
  obtain rfl : n = n' := Option.some.inj (hn.symm.trans hn')
  refine ⟨⟨k, hk, hlt⟩, hregistered, ⟨n, hbase, ?_⟩, n, hbase, ?_⟩
  · rw [hnodes]
    exact hrun
  · rw [hnodes]
    exact hknows

/-- **What an upload that succeeds leaves behind**: records that can be followed, and running nodes
that know the chunks. -/
theorem intact_fileUpload (hd : Administered d dir) (hg : g.Sound d dir)
    (hsend : Uploadable chunkSize f content)
    (h : (fileUpload d env g chunkSize f content).2 = true) :
    ∃ ps, Followed d f ps ∧ Intact d dir f ps (fileUpload d env g chunkSize f content).1 ∧
      (∀ p ∈ ps, BaseRuns d (fileUpload d env g chunkSize f content).1.nodes p) ∧
      (ps ≠ [] ↔ content ≠ []) := by
  obtain ⟨-, hreceived, hcount, hempty⟩ := fileUpload_received hsend h
  have hspec := fun p hp => recorded_spec hd hsend h (p := p) hp
  have hdistinct : (((recordedReplicas d env g chunkSize f content).map (·.placement)).map
      fun p => (d.baseNode p.server, p.chunkId)).Nodup := by
    -- no chunk is sent to a server twice, and servers have nodes of their own
    have hpairs : (((recordedReplicas d env g chunkSize f content).map (·.placement)).map
        fun p => (p.chunkId, p.server)).Nodup := by
      have hservers := (hd.toAddressed.selectServers env).1
      rw [List.map_map, recordedReplicas, storedReplicas, hreceived]
      exact (collectTransfers_sublist _ _ _).nodup
        (nodup_pending (nodup_receivedFrom 0 (clientChunks chunkSize content)) hservers)
    refine List.Nodup.map_on ?_ hpairs.of_map
    intro p hp q hq heq
    obtain ⟨hnode, hid⟩ := Prod.mk.inj heq
    have hserver := hd.ownNode p.server q.server (hspec p hp).2.1 (hspec q hq).2.1 hnode
    exact List.inj_on_of_nodup_map hpairs hp hq (by rw [hid, hserver])
  refine ⟨(recordedReplicas d env g chunkSize f content).map (·.placement),
    ⟨hsend.name, ?_, ?_, hdistinct⟩,
    ⟨?_, fileUpload_records hd.toAddressed hg hsend h, fun p hp => (hspec p hp).2.2.2⟩,
    fun p hp => (hspec p hp).2.2.1, ?_⟩
  · intro p hp
    obtain ⟨i, hid, hi⟩ := (hspec p hp).1
    rw [hid]
    exact wrap32_of_lt (by omega) (by omega)
  · intro p hp
    obtain ⟨i, hid, hi⟩ := (hspec p hp).1
    rw [hid]
    exact hsend.key_length hcount hi
  · rw [fileUpload_eq hsend.request hsend.nul]
    exact (leavesAlone_upload hd.toAddressed hg env _ _).sound
  · rw [ne_eq, List.map_eq_nil_iff]
    exact hempty

/-! ## The two theorems -/

lemma alongRun_of_quiet {ops : List GridOp} (hops : ∀ op ∈ ops, op.Quiet d f) (g : Grid) :
    AlongRun (gridStep d) (fun g op => ¬ Reaches d f g op) g ops := by
  induction ops generalizing g with
  | nil => trivial
  | cons op ops ih =>
      refine ⟨?_, ih (fun op' hop' => hops op' (List.mem_cons_of_mem op hop')) _⟩
      have hop := hops op List.mem_cons_self
      cases op with
      | client env received stream =>
          rintro ⟨hdelete, -⟩
          exact hop.1 (Or.inl (by rw [ActsOn, hdelete]))
      | crash n => exact hop.elim
      | restart n => exact hop.elim
      | failover env health dead => exact hop.elim

lemma retry_of_quiet {op : GridOp} (h : op.Quiet d f) : op.Retry d f := by
  cases op with
  | client env received stream => exact Or.inl h
  | crash n => exact h.elim
  | restart n => exact h.elim
  | failover env health dead => exact h.elim

lemma notInPart_of_quiet {op : GridOp} {ps : List Placement} (h : op.Quiet d f) :
    op.NotInPart f ps := by
  cases op with
  | client env received stream =>
      exact fun hdelete => absurd (Or.inl (by rw [ActsOn, hdelete])) h.1
  | crash n => exact h.elim
  | restart n => exact h.elim
  | failover env health dead => exact h.elim

lemma baseRuns_quiet (hd : Addressed d dir) (hg : g.Sound d dir) {ops : List GridOp}
    (hops : ∀ op ∈ ops, op.Quiet d f) {p : Placement} (h : BaseRuns d g.nodes p) :
    BaseRuns d (gridRun d g ops).nodes p := by
  have hrun : (gridRun d g ops).Sound d dir ∧ BaseRuns d (gridRun d g ops).nodes p := by
    refine List.foldlRecOn (motive := fun g : Grid => g.Sound d dir ∧ BaseRuns d g.nodes p) ops _
      ⟨hg, h⟩ ?_
    rintro g ⟨hg, h⟩ op hop
    exact ⟨sound_gridStep hd hg op, h.undisturbed (quiet_step hd hg (hops op hop)).2⟩
  exact hrun.2

/-- The file is gone and the other files are as they were. -/
structure Deleted (f : Bytes) (m m' : MetadataMap) : Prop where
  hash : (m'.queryMetadata f).fileHash = []
  chunks : (m'.queryMetadata f).chunks = []
  unlisted : f ∉ m'.listAllFiles
  others : ∀ f', f' ≠ f → m'[f']? = m[f']?

lemma deleted_deleteEntry (hf : f ≠ []) (m : MetadataMap) : Deleted f m (m.deleteEntry f) := by
  have hget : ∀ f', (m.deleteEntry f)[f']? = if f' = f then none else m[f']? := fun f' => by
    rw [MetadataMap.deleteEntry, if_neg hf, MetadataMap.removeFile, Map.get_erase]
  have hquery : (m.deleteEntry f).queryMetadata f = {} := by
    rw [MetadataMap.queryMetadata_of_ne _ hf, hget, if_pos rfl]
    rfl
  refine ⟨by rw [hquery], by rw [hquery], fun hmem => ?_, fun f' hne => ?_⟩
  · rw [MetadataMap.mem_listAllFiles, hget, if_pos rfl] at hmem
    cases hmem
  · rw [hget, if_neg hne]

/-- **Which uploaded files can be deleted.**  If an upload ends in `SUCCESS` and all nodes have been
running since, whatever else was asked of the head in the meantime, a delete answers `SUCCESS` and
drops the file, and only this one, when the file is not empty, its name contains no command word and
every node reads its message in full; and in no other case, unless a node reads a message in
part. -/
theorem delete_uploaded_iff (hd : Administered d dir) (hg : g.Sound d dir)
    (hsend : Uploadable chunkSize f content)
    (hupload : (fileUpload d env g chunkSize f content).2 = true)
    {ops : List GridOp} (hops : ∀ op ∈ ops, op.Quiet d f) {denv : DeleteEnv}
    (hup : ∀ i, denv.link i = .up ∧ denv.removes i = true) :
    let uploaded := (fileUpload d env g chunkSize f content).1
    let ps := uploaded.metadata.placementsOf f
    let g' := gridRun d uploaded ops
    let deleted := (handleClientDelete d denv g'.nodes g'.metadata f).2.2 = ascii "SUCCESS\n" ∧
      Deleted f g'.metadata (handleClientDelete d denv g'.nodes g'.metadata f).2.1
    let deletable := content ≠ [] ∧ NoCommand f ∧ ∀ i p, ps[i]? = some p → denv.Whole i f p
    (deletable → deleted) ∧ (denv.NotInPart f ps → (deleted ↔ deletable)) := by
  intro uploaded ps g' deleted deletable
  obtain ⟨ps', hfol, hintact, hruns, hempty⟩ := intact_fileUpload hd hg hsend hupload
  obtain rfl : ps' = ps := hintact.records.symm
  have hquiet := alongRun_of_quiet hops uploaded
  have hdeletes : deletable → deleted := by
    rintro ⟨hne, hnone, hwhole⟩
    have hsuccess := delete_succeeds hd.toAddressed hfol hintact
      (fun op hop => retry_of_quiet (hops op hop))
      (fun p hp => baseRuns_quiet hd.toAddressed hintact.sound hops (hruns p hp)) hup
      (hempty.mpr hne) hnone hwhole hquiet
    refine ⟨hsuccess, ?_⟩
    rw [handleClientDelete_metadata hsend.name.1, if_pos hsuccess]
    exact deleted_deleteEntry hsend.name.1 g'.metadata
  refine ⟨hdeletes, fun hpart => ⟨fun hdeleted => ?_, hdeletes⟩⟩
  obtain ⟨hne, hnone, hwhole, -⟩ := delete_succeeds_only hd.toAddressed hfol hintact
    (fun op hop => retry_of_quiet (hops op hop)) (fun op hop => notInPart_of_quiet (hops op hop))
    hpart hdeleted.1
  exact ⟨hempty.mp hne, hnone, hwhole⟩

/-- **When a delete can be retried.**  After an upload that ended in `SUCCESS` and any sequence of
attempts to delete the file, between which nodes may stop and be started again and other files be
dealt with, an attempt with all the nodes of the file running and reachable answers `SUCCESS` and
drops the file when the file is not empty, its name contains no command word, every node reads its
message in full, and no step has made a node forget a chunk; and in no other case, unless a node
reads a message in part. -/
theorem delete_retry_iff (hd : Administered d dir) (hg : g.Sound d dir)
    (hsend : Uploadable chunkSize f content)
    (hupload : (fileUpload d env g chunkSize f content).2 = true)
    {ops : List GridOp} (hops : ∀ op ∈ ops, op.Retry d f)
    (hruns : ∀ p ∈ (fileUpload d env g chunkSize f content).1.metadata.placementsOf f,
      BaseRuns d (gridRun d (fileUpload d env g chunkSize f content).1 ops).nodes p)
    {denv : DeleteEnv} (hup : ∀ i, denv.link i = .up ∧ denv.removes i = true) :
    let uploaded := (fileUpload d env g chunkSize f content).1
    let ps := uploaded.metadata.placementsOf f
    let g' := gridRun d uploaded ops
    let deleted := (handleClientDelete d denv g'.nodes g'.metadata f).2.2 = ascii "SUCCESS\n" ∧
      (handleClientDelete d denv g'.nodes g'.metadata f).2.1[f]? = none
    let deletable := content ≠ [] ∧ NoCommand f ∧
      (∀ i p, ps[i]? = some p → denv.Whole i f p) ∧
      AlongRun (gridStep d) (fun g op => ¬ Reaches d f g op) uploaded ops
    (deletable → deleted) ∧
      ((∀ op ∈ ops, op.NotInPart f ps) → denv.NotInPart f ps → (deleted ↔ deletable)) := by
  intro uploaded ps g' deleted deletable
  obtain ⟨ps', hfol, hintact, -, hempty⟩ := intact_fileUpload hd hg hsend hupload
  obtain rfl : ps' = ps := hintact.records.symm
  have hdeletes : deletable → deleted := by
    rintro ⟨hne, hnone, hwhole, hall⟩
    have hsuccess := delete_succeeds hd.toAddressed hfol hintact hops hruns hup (hempty.mpr hne)
      hnone hwhole hall
    refine ⟨hsuccess, ?_⟩
    rw [handleClientDelete_metadata hsend.name.1, if_pos hsuccess, MetadataMap.deleteEntry,
      if_neg hsend.name.1, MetadataMap.removeFile, Map.get_erase, if_pos rfl]
  refine ⟨hdeletes, fun hpart hlast => ⟨fun hdeleted => ?_, hdeletes⟩⟩
  obtain ⟨hne, hrest⟩ :=
    delete_succeeds_only hd.toAddressed hfol hintact hops hpart hlast hdeleted.1
  exact ⟨hempty.mp hne, hrest⟩

end

/-! ## Three servers -/

lemma smallGrid_administered : Administered smallGrid smallDir := by
  have hnode : ∀ e ∈ smallGrid.registry.getAll, (smallGrid.baseNode e.address).isSome = true ∧
      smallGrid.baseNode e.address = smallGrid.transferNode e.address := by
    decide +kernel
  refine ⟨smallGrid_deployed.addressed, ?_, ?_⟩
  · rintro a ⟨e, he, rfl⟩
    obtain ⟨hsome, heq⟩ := hnode e he
    obtain ⟨n, hn⟩ := Option.isSome_iff_exists.mp hsome
    exact ⟨n, heq.symm.trans hn, hn⟩
  · rintro a b ⟨e, he, rfl⟩ ⟨e', he', rfl⟩ hsame
    refine smallGrid_deployed.ownNode _ _ ⟨e, he, rfl⟩ ⟨e', he', rfl⟩ ?_
    rw [← (hnode e he).2, ← (hnode e' he').2]
    exact hsame

lemma uploadable_small : Uploadable 1 (ascii "f") [65, 66] :=
  ⟨sendable_small.positive, sendable_small.name, sendable_small.nul, sendable_small.request,
    sendable_small.small⟩

/-- A request to list the files. -/
def listRequest : GridOp := .client {} (ascii "LIST\n") []

/-- A request to delete the file. -/
def deleteAttempt (env : DeleteEnv) : GridOp :=
  .client { delete := env } (ascii "DELETE f\n") []

lemma allUp : ∀ i, ({} : DeleteEnv).link i = .up ∧ ({} : DeleteEnv).removes i = true :=
  fun _ => ⟨rfl, rfl⟩

lemma quiet_listRequest : ∀ op ∈ [listRequest], op.Quiet smallGrid (ascii "f") := by
  have hlist : clientRequest (ascii "LIST\n") = .list := by decide
  intro op hop
  rw [List.mem_singleton.mp hop]
  refine ⟨?_, ?_, ?_⟩
  · simp [ActsOn, MistakenFor, hlist]
  · simp [CrashesHead, hlist]
  · simp [hlist]

lemma whole_small (ps : List Placement) (h : ∀ p ∈ ps, p.chunkId = 0 ∨ p.chunkId = 1) :
    ∀ i p, ps[i]? = some p → ({} : DeleteEnv).Whole i (ascii "f") p := by
  intro i p hp
  have hlengths : ∀ c ∈ [(0 : Int), 1], 13 + (chunkKey (ascii "f") c).length ≤ 1023 := by
    decide
  exact hlengths p.chunkId (by simpa using h p (List.mem_of_getElem? hp))

set_option maxRecDepth 100000 in
lemma uploadedFile_ids :
    ∀ p ∈ (fileUpload smallGrid {} (Grid.empty smallDir) 1 (ascii "f")
      [65, 66]).1.metadata.placementsOf (ascii "f"), p.chunkId = 0 ∨ p.chunkId = 1 := by
  decide +kernel

theorem delete_uploaded_iff_instance :
    let g' := gridRun smallGrid
      (fileUpload smallGrid {} (Grid.empty smallDir) 1 (ascii "f") [65, 66]).1 [listRequest]
    (handleClientDelete smallGrid {} g'.nodes g'.metadata (ascii "f")).2.2 = ascii "SUCCESS\n" ∧
      Deleted (ascii "f") g'.metadata
        (handleClientDelete smallGrid {} g'.nodes g'.metadata (ascii "f")).2.1 := by
  have hdeletes := (delete_uploaded_iff smallGrid_administered (sound_empty _ _) uploadable_small
    smallRun_stored.1 quiet_listRequest allUp).1
  exact hdeletes ⟨List.cons_ne_nil _ _, by decide, whole_small _ uploadedFile_ids⟩

set_option maxRecDepth 100000 in
/-- An empty file is accepted and cannot be deleted. -/
theorem empty_file_not_deleted :
    let upload := fileUpload smallGrid {} (Grid.empty smallDir) 1 (ascii "f") []
    let result := handleClientDelete smallGrid {} upload.1.nodes upload.1.metadata (ascii "f")
    upload.2 = true ∧ result.2.2 = ascii "ERROR: File not found\n" ∧
      result.2.1.listAllFiles = [ascii "f"] := by
  decide +kernel

/-- An attempt that fails in two ways: one server cannot be reached, and the others have read
nothing of their messages yet. -/
def emptyHanded : DeleteEnv where
  link i := if i = 0 then .down else .up
  arrived _ := 0

set_option maxRecDepth 100000 in
lemma emptyHanded_runs :
    ((fileUpload smallGrid {} (Grid.empty smallDir) 1 (ascii "f") [65, 66]).1.metadata.placementsOf
      (ascii "f")).all (fun p => (smallGrid.baseNode p.server).any fun n =>
        ((gridRun smallGrid (fileUpload smallGrid {} (Grid.empty smallDir) 1 (ascii "f") [65, 66]).1
          [deleteAttempt emptyHanded]).nodes n).running) = true := by
  decide +kernel

theorem delete_retry_iff_instance :
    let g' := gridRun smallGrid
      (fileUpload smallGrid {} (Grid.empty smallDir) 1 (ascii "f") [65, 66]).1
      [deleteAttempt emptyHanded]
    (handleClientDelete smallGrid {} g'.nodes g'.metadata (ascii "f")).2.2 = ascii "SUCCESS\n" ∧
      (handleClientDelete smallGrid {} g'.nodes g'.metadata (ascii "f")).2.1[ascii "f"]? =
        none := by
  have hdelete : clientRequest (ascii "DELETE f\n") = .delete (ascii "f") := by decide
  have hops : ∀ op ∈ [deleteAttempt emptyHanded], op.Retry smallGrid (ascii "f") := by
    intro op hop
    rw [List.mem_singleton.mp hop]
    exact Or.inr hdelete
  have hdeletes := (delete_retry_iff smallGrid_administered (sound_empty _ _) uploadable_small
    smallRun_stored.1 hops (fun p hp => by
      have hruns := List.all_eq_true.mp emptyHanded_runs p hp
      obtain ⟨n, hn, hrun⟩ := (Option.any_eq_true _ _).mp hruns
      exact ⟨n, hn, hrun⟩) allUp).1
  refine hdeletes ⟨List.cons_ne_nil _ _, by decide, whole_small _ uploadedFile_ids, ?_, trivial⟩
  rintro ⟨-, i, p, -, hheard, -⟩
  exact hheard rfl

set_option maxRecDepth 100000 in
/-- Two of the three servers cannot be reached by the first attempt; the second one reaches them
all, and fails on the server that has already deleted its chunk. -/
theorem delete_not_retryable :
    let g := uploadedFile.1
    let first := handleClientDelete smallGrid { link := fun i => if i = 0 then .up else .down }
      g.nodes g.metadata (ascii "f")
    let second := handleClientDelete smallGrid {} first.1 first.2.1 (ascii "f")
    first.2.2 = ascii "ERROR: Could not delete chunks\n" ∧
      second.2.2 = ascii "ERROR: Could not delete chunks\n" ∧
      second.2.1.listAllFiles = [ascii "f"] := by
  decide +kernel

end FileGrid
