import FileGrid.Client.Client
import FileGrid.Grid.Sound

/-!
# The replicas of a file

The invariant that links the records of a file to what the nodes hold.  A record is a `Replica` of
a file, given by its chunks, when the server it names is registered and the node of that server
holds the chunk under the recorded path; a file is `Stored` when its hash is on record and every
record of it is a replica.

Three requests can touch the chunks of the file itself, and each of them keeps the replicas there
are: retrieving a chunk by one of its records (`Replica.retrieve`), storing a chunk on a server
that has no replica of it (`Replica.send`); and a store that succeeds adds a replica
(`replica_of_send`).  From these and from `LeavesAlone` follow the two ends of the invariant:
`stored_fileUpload`, which establishes it, and `stored_gridStep`, by which every step that is none
of the file's keeps it.
-/

namespace FileGrid

open Node (Holds Keeps)

/-! ## Files -/

/-- The lines and messages about a file, given by its chunks, are of a length that arrives. -/
structure Fits (f : Bytes) (parts : List Bytes) : Prop where
  name : Word f
  count : parts.length ≤ 2 ^ 31
  nonempty : ∀ data ∈ parts, data ≠ []
  small : ∀ (i : Nat) (data : Bytes), parts[i]? = some data →
    ChunkData.byteSize { chunkId := chunkKey f i, filename := f, data } < 2 ^ 31
  lines : ∀ i < parts.length, (getChunkRequest f i).length ≤ 255

section

variable {f : Bytes} {parts : List Bytes} (hfits : Fits f parts) {i : Nat} {data : Bytes}
include hfits

lemma Fits.wrap32_eq (hi : parts[i]? = some data) : wrap32 (i : Int) = i := by
  obtain ⟨hlt, -⟩ := List.getElem?_eq_some_iff.mp hi
  have := hfits.count
  exact wrap32_of_lt (by omega) (by omega)

lemma Fits.key_length (hi : parts[i]? = some data) : (chunkKey f i).length < 1010 := by
  obtain ⟨hlt, -⟩ := List.getElem?_eq_some_iff.mp hi
  have hline := hfits.lines i hlt
  have h10 : (ascii "GET_CHUNK ").length = 10 := rfl
  have h7 : (ascii "_chunk_").length = 7 := rfl
  simp only [getChunkRequest, List.length_append, List.length_cons] at hline
  simp only [chunkKey, List.length_append]
  omega

lemma Fits.message (hi : parts[i]? = some data) :
    chunkMessage f i data = { chunkId := chunkKey f i, filename := f, data } :=
  chunkMessage_of_small (hfits.small i data hi)

/-- The reply to a fetch is shorter than the message the chunk was stored by. -/
lemma Fits.deliveredData_eq (hi : parts[i]? = some data) :
    deliveredData (chunkKey f i) data = data := by
  have hsmall := hfits.small i data hi
  have hname : 3 ≤ fieldSize f := by
    have := List.length_pos_iff.mpr hfits.name.1
    rw [fieldSize, if_neg hfits.name.1, varintSize]
    omega
  simp only [ChunkData.byteSize] at hsmall
  exact if_pos (by omega)

lemma Fits.data_length (hi : parts[i]? = some data) : data.length ≤ 2 ^ 64 - 1 := by
  have hsmall := hfits.small i data hi
  have hdata : data.length ≤ fieldSize data := by
    unfold fieldSize
    split_ifs with hnil
    · simp [hnil]
    · omega
  simp only [ChunkData.byteSize] at hsmall
  omega

end

/-! ## Replicas -/

/-- The record names a registered server, and the node of that server holds the chunk. -/
structure Replica (d : Deployment) (f : Bytes) (parts : List Bytes) (nodes : Nodes)
    (p : Placement) : Prop where
  registered : d.Registers p.server
  held : ∃ (i : Nat) (data : Bytes) (n : Nat), p.chunkId = i ∧ parts[i]? = some data ∧
    d.transferNode p.server = some n ∧ (nodes n).Holds (chunkKey f i) p.path data

section

variable {d : Deployment} {dir : Nat → Bytes} {f : Bytes} {parts : List Bytes} {nodes : Nodes}
  {p p₀ : Placement}

/-- The node of the replica changes and still holds the chunk, or another node changes. -/
lemma Replica.update (h : Replica d f parts nodes p) {n : Nat} {node' : Node}
    (hnode : d.transferNode p.server = some n → ∀ (i : Nat) (data : Bytes), p.chunkId = i →
      parts[i]? = some data → (nodes n).Holds (chunkKey f i) p.path data →
        node'.Holds (chunkKey f i) p.path data) :
    Replica d f parts (Function.update nodes n node') p := by
  obtain ⟨i, data, k, hid, hdata, hk, hholds⟩ := h.held
  refine ⟨h.registered, i, data, k, hid, hdata, hk, ?_⟩
  by_cases hkn : k = n
  · subst hkn
    rw [Function.update_self]
    exact hnode hk i data hid hdata hholds
  · rw [Function.update_of_ne hkn]
    exact hholds

lemma chunkKey_ne {i j : Int} (h : i ≠ j) : chunkKey f i ≠ chunkKey f j := fun heq =>
  h (chunkKey_injective heq).2

/-- **Retrieving a chunk by one of its records keeps every replica.** -/
theorem Replica.retrieve (hfits : Fits f parts) (h₀ : Replica d f parts nodes p₀)
    (h : Replica d f parts nodes p) (link : Link) :
    Replica d f parts (request nodes (d.transferNode p₀.server) link fun node =>
      node.retrieveChunk (chunkKey f (wrap32 p₀.chunkId)) p₀.path).1 p := by
  obtain ⟨i₀, data₀, n₀, hid₀, hdata₀, hn₀, hholds₀⟩ := h₀.held
  rw [hid₀, hfits.wrap32_eq hdata₀]
  rcases request_cases nodes (d.transferNode p₀.server) link fun node =>
      node.retrieveChunk (chunkKey f i₀) p₀.path with heq | ⟨n, hn, -, heq, -⟩
  · rw [heq]
    exact h
  · rw [heq]
    obtain rfl : n₀ = n := Option.some.inj (hn₀.symm.trans hn)
    refine h.update fun _ i data _ hdata hholds => ?_
    by_cases hi : i₀ = i
    · subst hi
      obtain rfl : data₀ = data := Option.some.inj (hdata₀.symm.trans hdata)
      exact hholds₀.retrieveChunk hholds
    · have hne : chunkKey f i₀ ≠ chunkKey f i := chunkKey_ne (by exact_mod_cast hi)
      exact hholds.keeps (Node.keeps_retrieveChunk hne _ fun hfile =>
        hne (hholds₀.own.unique hfile))

/-- **Storing a chunk elsewhere keeps a replica**: a chunk it is not one of, or a server it is not
on. -/
theorem Replica.send (hd : Deployed d dir) (h : Replica d f parts nodes p) {server : Bytes}
    (hserver : d.Registers server) {c : Int} (hne : p.chunkId ≠ c ∨ p.server ≠ server) (link : Link)
    (fault : StoreFault) (us : Int) (data : Bytes) :
    Replica d f parts (sendChunkToServer d nodes link fault us server f c data).1 p := by
  rcases sendChunkToServer_cases d nodes link fault us server f c data with
    heq | ⟨n, hn, -, heq, -⟩
  · rw [heq]
    exact h
  · rw [heq]
    refine h.update fun hpn i data' hid _ hholds => ?_
    have hsame : p.server = server := hd.ownNode _ _ h.registered hserver (hpn.trans hn.symm)
    have hkey : (chunkMessage f c data).chunkId ≠ chunkKey f i := by
      rcases chunkMessage_chunkId f data c with hk | hk
      · rw [hk, ← hid]
        exact chunkKey_ne fun hc => hne.elim (fun h => h hc.symm) fun h => h hsame
      · rw [hk]
        simp [chunkKey, ascii]
    exact hholds.keeps (Node.keeps_storeChunk hkey _ fault us _)

/-- **A store that succeeds makes a replica.** -/
theorem replica_of_send (hfits : Fits f parts) {server : Bytes} (hserver : d.Registers server)
    {i : Nat} {data : Bytes} (hdata : parts[i]? = some data) {link : Link} {fault : StoreFault}
    {us : Int} {path : Bytes}
    (hpath : (sendChunkToServer d nodes link fault us server f i data).2 = some path)
    (checksum : Bytes) :
    Replica d f parts (sendChunkToServer d nodes link fault us server f i data).1
      { chunkId := i, server, path, checksum } := by
  rcases sendChunkToServer_cases d nodes link fault us server f i data with
    heq | ⟨n, hn, -, heq, hreport⟩
  · rw [heq] at hpath
    cases hpath
  · have hreport := hreport path hpath
    refine ⟨hserver, i, data, n, rfl, hdata, hn, ?_⟩
    rw [heq, Function.update_self]
    rw [hfits.message hdata] at hreport ⊢
    exact Node.holds_storeChunk hreport

/-- What is read by way of a replica is nothing, or the chunk. -/
lemma Replica.read (hfits : Fits f parts) (h : Replica d f parts nodes p) (link : Link) {i : Nat}
    {data : Bytes} (hid : p.chunkId = i) (hdata : parts[i]? = some data) :
    (readChunkFromServer d nodes link p.server f (wrap32 p.chunkId) p.path).2 = [] ∨
      (readChunkFromServer d nodes link p.server f (wrap32 p.chunkId) p.path).2 = data := by
  obtain ⟨j, data', n, hid', hdata', hn, hholds⟩ := h.held
  obtain rfl : i = j := by exact_mod_cast hid.symm.trans hid'
  obtain rfl : data = data' := Option.some.inj (hdata.symm.trans hdata')
  have hnil : deliveredData (chunkKey f i) [] = [] := by
    unfold deliveredData
    split_ifs <;> rfl
  rw [hid, hfits.wrap32_eq hdata]
  unfold readChunkFromServer
  dsimp only
  rcases request_cases nodes (d.transferNode p.server) link fun node =>
      node.retrieveChunk (chunkKey f i) p.path with heq | ⟨k, hk, -, -, hresp⟩
  · rw [heq]
    exact Or.inl hnil
  · obtain rfl : n = k := Option.some.inj (hn.symm.trans hk)
    rcases hresp with hresp | hresp
    · rw [hresp]
      exact Or.inl hnil
    · rw [hresp, Option.getD_some, hholds.retrieveChunk_eq]
      exact Or.inr (hfits.deliveredData_eq hdata)

end

/-! ## Stored files -/

/-- The hash of the file is on record, and every record of it is a replica. -/
structure Stored (d : Deployment) (f : Bytes) (parts : List Bytes) (g : Grid) : Prop where
  hash : g.metadata.hashOf f = some (sha256 parts.flatten)
  replicas : ∀ p ∈ g.metadata.placementsOf f, Replica d f parts g.nodes p

section

variable {d : Deployment} {dir : Nat → Bytes} {f : Bytes} {parts : List Bytes} {g g' : Grid}

lemma Stored.leavesAlone (hfits : Fits f parts) (h : Stored d f parts g) {touched : Bytes → Prop}
    (hf : ¬ touched f) (hstep : LeavesAlone d dir touched g g') : Stored d f parts g' := by
  refine ⟨(hstep.hashOf f hf).trans h.hash, fun p hp => ?_⟩
  rw [hstep.placements f hf] at hp
  obtain ⟨hreg, i, data, n, hid, hdata, hn, hholds⟩ := h.replicas p hp
  exact ⟨hreg, i, data, n, hid, hdata, hn,
    hholds.keeps (hstep.keeps f hf i (hfits.key_length hdata) n)⟩

/-! ### Failovers -/

/-- A copy of another file spares the replicas. -/
lemma Replica.spares {nodes nodes' : Nodes} {p : Placement} (h : Replica d f parts nodes p)
    {keys : Set Bytes} (hspares : Spares dir keys nodes nodes')
    (hkey : chunkKey f p.chunkId ∉ keys) : Replica d f parts nodes' p := by
  obtain ⟨hreg, i, data, n, hid, hdata, hn, hholds⟩ := h
  rw [hid] at hkey
  exact ⟨hreg, i, data, n, hid, hdata, hn, hholds.keeps (hspares.keeps f i hkey n)⟩

variable {env : Nat → CopyEnv} {health : HealthMonitor} {dead : Bytes} {s : Nat × Nodes}
  {job : Job}

/-- **A copy keeps the replicas of a file, and if it is a copy of the file, it makes one.** -/
theorem replica_gridCopy (hd : Deployed d dir) (hfits : Fits f parts)
    (hm : SoundRecords d dir g.metadata) (hs : SoundNodes dir s.2)
    (hreplicas : ∀ p ∈ g.metadata.placementsOf f, Replica d f parts s.2 p)
    (hjob : job ∈ plan g.metadata dead (healthyServers d.registry health dead)) :
    (∀ p ∈ g.metadata.placementsOf f, Replica d f parts (gridCopy d env s job).1.2 p) ∧
      ∀ path, (gridCopy d env s job).2 = some path → job.filename = f →
        Replica d f parts (gridCopy d env s job).1.2 (job.record path).placement := by
  by_cases hfile : job.filename = f
  · -- a copy of the file itself
    subst hfile
    obtain ⟨p₀, hp₀, hid₀, hsource, hpath₀⟩ := exists_source hjob
    have h₀ := hreplicas p₀ hp₀
    obtain ⟨i, data, n₀, hi, hdata, hn₀, -⟩ := h₀.held
    have hspec := jobOf_spec (mem_plan.mp hjob).2.2
    have htarget : d.Registers job.target :=
      registers_of_mem_getAddresses (List.mem_of_mem_filter hspec.target_healthy)
    have hread := fun p hp => h₀.retrieve hfits (hreplicas p hp) (env s.1).readLink
    have hbytes := h₀.read hfits (env s.1).readLink hi hdata
    rw [hid₀, hsource, hpath₀] at hread hbytes
    have hwrap : wrap32 job.chunkId = i := by rw [← hid₀, hi, hfits.wrap32_eq hdata]
    rw [hwrap] at hread hbytes
    unfold gridCopy replicateChunkToServer
    dsimp only
    rw [hwrap]
    rcases hbytes with hnil | hbytes
    · rw [if_pos hnil]
      exact ⟨hread, fun path hpath => by cases hpath⟩
    · have hne : data ≠ [] := hfits.nonempty data (List.mem_of_getElem? hdata)
      rw [hbytes, if_neg hne]
      refine ⟨fun p hp => (hread p hp).send hd htarget ?_ _ _ _ _, fun path hpath _ => ?_⟩
      · -- the target has no replica of the chunk yet
        by_cases hc : p.chunkId = (i : Int)
        · right
          obtain ⟨r, hr, hrp⟩ := exists_recordsOf hp
          rw [hc, ← hi, hid₀] at hr
          exact hrp ▸ hspec.target_new r hr
        · exact Or.inl hc
      · have hnew := replica_of_send hfits htarget hdata hpath job.checksum
        have hpathne : path ≠ [] := by
          obtain ⟨j, data', n, -, -, -, hholds⟩ := hnew.held
          exact hholds.own.ne_nil
        simpa only [ChunkRecord.placement, Job.record, hpathne, ne_eq, not_false_eq_true, if_true,
          ← hid₀, hi] using hnew
  · have hspares := spares_gridCopy hm hs env hjob
    refine ⟨fun p hp => (hreplicas p hp).spares hspares ?_, fun path _ h => absurd h hfile⟩
    intro heq
    exact hfile (chunkKey_injective (Set.mem_singleton_iff.mp heq)).1.symm

/-- A copy of another chunk keeps a replica that an earlier copy made. -/
lemma Replica.gridCopy (hfits : Fits f parts) (hm : SoundRecords d dir g.metadata)
    (hs : SoundNodes dir s.2) {p : Placement} (h : Replica d f parts s.2 p)
    (hreplicas : ∀ p ∈ g.metadata.placementsOf f, Replica d f parts s.2 p)
    (hjob : job ∈ plan g.metadata dead (healthyServers d.registry health dead))
    (hne : (job.filename, job.chunkId) ≠ (f, p.chunkId)) :
    Replica d f parts (FileGrid.gridCopy d env s job).1.2 p := by
  refine h.spares (spares_gridCopy hm hs env hjob) fun heq => hne ?_
  obtain ⟨hfile, hid⟩ := chunkKey_injective (Set.mem_singleton_iff.mp heq)
  -- the chunk of the job is one of the file's, so its identifier is an `int`
  obtain ⟨p₀, hp₀, hid₀, -⟩ := exists_source hjob
  obtain ⟨i, data, -, hi, hdata, -⟩ := (hreplicas p₀ (by rw [hfile]; exact hp₀)).held
  rw [hid, ← hid₀, hi, hfits.wrap32_eq hdata, hfile]

/-- **A failover keeps a file stored.** -/
theorem stored_gridFailover (hd : Deployed d dir) (hfits : Fits f parts) (hg : g.Sound d dir)
    (h : Stored d f parts g) (env : Nat → CopyEnv) (health : HealthMonitor) (dead : Bytes) :
    Stored d f parts (gridFailover d env health dead g) := by
  refine ⟨(hashOf_rereplicate _ _ _ _ _ _ _).trans h.hash, ?_⟩
  obtain ⟨⟨-, hkept⟩, hrecords⟩ := rereplicate_rule (FileGrid.gridCopy d env) d.registry health dead
    g.metadata (0, g.nodes)
    (fun s => SoundNodes dir s.2 ∧ ∀ p ∈ g.metadata.placementsOf f, Replica d f parts s.2 p)
    (fun s job path => job.filename = f → Replica d f parts s.2 (job.record path).placement)
    ⟨hg.nodes, h.replicas⟩
    (by
      rintro s job hjob ⟨hs, hreplicas⟩
      obtain ⟨hkept, hmade⟩ := replica_gridCopy hd hfits hg.records hs hreplicas hjob
      exact ⟨⟨(spares_gridCopy hg.records hs env hjob).sound, hkept⟩, hmade⟩)
    (by
      rintro s job hjob job' path hne ⟨hs, hreplicas⟩ hmade hfile
      refine (hmade hfile).gridCopy hfits hg.records hs hreplicas hjob fun heq => hne ?_
      rw [heq, hfile]
      rfl)
  intro p hp
  rcases hrecords f p hp with hp | ⟨job, path, hfile, hmade, rfl⟩
  · exact hkept p hp
  · exact hmade hfile

/-- **Every step that is none of the file's keeps it stored.** -/
theorem stored_gridStep (hd : Deployed d dir) (hfits : Fits f parts) (hg : g.Sound d dir)
    (h : Stored d f parts g) {op : GridOp} (hop : op.Other d f) :
    Stored d f parts (gridStep d g op) := by
  cases op with
  | client env received stream =>
      exact h.leavesAlone hfits hop.1 (leavesAlone_serveClient hd.addressed hg env received stream)
  | crash n =>
      exact h.leavesAlone hfits id
        (leavesAlone_update hg (fun key => Node.keeps_crash key _) fun _ => False)
  | restart n =>
      exact h.leavesAlone hfits id
        (leavesAlone_update hg (fun key => Node.keeps_restart key _) fun _ => False)
  | failover env health dead => exact stored_gridFailover hd hfits hg h env health dead

end

/-! ## Uploads -/

/-- A file that a client can send: its name is a word without NUL, and its lines and messages are of
a length that arrives. -/
structure Sendable (chunkSize : Nat) (f content : Bytes) : Prop where
  positive : 0 < chunkSize
  name : Word f
  nul : (0 : UInt8) ∉ f
  request : (uploadRequest chunkSize f content).length < 1023
  lines : ∀ i < (clientChunks chunkSize content).length, (getChunkRequest f i).length ≤ 255
  small : ∀ (i : Nat) (data : Bytes), (clientChunks chunkSize content)[i]? = some data →
    ChunkData.byteSize { chunkId := chunkKey f i, filename := f, data } < 2 ^ 31

lemma Sendable.fits {chunkSize : Nat} {f content : Bytes} (h : Sendable chunkSize f content)
    (hcount : (clientChunks chunkSize content).length ≤ 2 ^ 31) :
    Fits f (clientChunks chunkSize content) :=
  ⟨h.name, hcount, fun _ hdata => clientChunks_ne_nil h.positive hdata, h.small, h.lines⟩

section

variable {d : Deployment} {dir : Nat → Bytes} {f : Bytes} {parts : List Bytes} {g : Grid}
  {env : RequestEnv}

/-- A transfer carries a chunk of the file to a registered server. -/
lemma spec_of_mem_pending (hd : Addressed d dir) {t : Transfer}
    (ht : t ∈ (d.uploadEnv env).pending (receivedFrom 0 parts)) :
    d.Registers t.server ∧ ∃ k : Nat, t.chunkId = k ∧ parts[k]? = some t.data := by
  obtain ⟨c, hc, server, hserver, rfl⟩ := mem_pending.mp ht
  obtain ⟨k, data, hk, rfl⟩ := mem_receivedFrom.mp hc
  exact ⟨(hd.selectServers env).2 server hserver, k, by simp, hk⟩

/-- The transfers of a file make replicas of it, in whatever order they run. -/
lemma replica_gridTransfers (hd : Deployed d dir) (hfits : Fits f parts) (nodes : Nodes) {i : Nat}
    {t : Transfer} (ht : ((d.uploadEnv env).pending (receivedFrom 0 parts))[i]? = some t)
    {path : Bytes} (hpath : (gridTransfers d env.transfers nodes f
      ((d.uploadEnv env).pending (receivedFrom 0 parts))).2[i]? = some (some path)) :
    Replica d f parts (gridTransfers d env.transfers nodes f
        ((d.uploadEnv env).pending (receivedFrom 0 parts))).1
      { chunkId := t.chunkId, server := t.server, path, checksum := t.checksum } := by
  have hdistinct := nodup_pending (nodup_receivedFrom 0 parts) (hd.addressed.selectServers env).1
  obtain ⟨outcome, hget, hpost⟩ := (gridTransfers_rule d env.transfers nodes f
    ((d.uploadEnv env).pending (receivedFrom 0 parts)) (fun _ => True)
    (fun s _ t outcome => ∀ path, outcome = some path → Replica d f parts s
      { chunkId := t.chunkId, server := t.server, path, checksum := t.checksum }) trivial
    (by
      intro s j t hj _
      obtain ⟨hserver, k, hk, hdata⟩ := spec_of_mem_pending hd.addressed (List.mem_of_getElem? hj)
      refine ⟨trivial, fun path hpath => ?_⟩
      rw [hk] at hpath ⊢
      exact replica_of_send hfits hserver hdata hpath t.checksum)
    (by
      intro s j t j' t' outcome hj hj' hne _ hrep path hpath
      obtain ⟨hserver, -⟩ := spec_of_mem_pending hd.addressed (List.mem_of_getElem? hj)
      refine (hrep path hpath).send hd hserver ?_ _ _ _ _
      by_contra hsame
      simp only [not_or, not_not] at hsame
      obtain ⟨hid, hserver⟩ := hsame
      refine hne ((List.getElem?_inj ?_ hdistinct).mp ?_)
      · rw [List.length_map]
        exact (List.getElem?_eq_some_iff.mp hj).1
      · rw [List.getElem?_map, List.getElem?_map, hj, hj']
        simp only [Option.map_some, hid, hserver])).2 i t ht
  obtain rfl : some path = outcome := Option.some.inj (hpath.symm.trans hget)
  exact hpost path rfl

/-- **An upload that succeeds leaves the file stored.** -/
theorem stored_gridUpload (hd : Deployed d dir) (hg : g.Sound d dir) {chunkSize : Nat}
    {content : Bytes} (hsend : Sendable chunkSize f content)
    (h : (gridUpload d env g (uploadRequest chunkSize f content)
      (uploadStream chunkSize content)).2 = success) :
    Fits f (clientChunks chunkSize content) ∧
      Stored d f (clientChunks chunkSize content) (gridUpload d env g
        (uploadRequest chunkSize f content) (uploadStream chunkSize content)).1 := by
  obtain ⟨r, hparse, ⟨hended, -⟩, -⟩ := (upload_success_iff (gridTransfers d env.transfers)
    (d.uploadEnv env) g.nodes g.metadata _ _).mp h
  obtain ⟨rfl, hlen⟩ := uploadRequest_parsed hsend.name hparse
  obtain ⟨hreceived, hcount⟩ := uploadStream_received rfl rfl hlen hended
  have hfits := hsend.fits hcount
  have hhash := word_sha256 content
  have hcommit := upload_commits (gridTransfers d env.transfers) (d.uploadEnv env) g.nodes
    g.metadata _ _ hparse h
  refine ⟨hfits, ?_, fun p hp => ?_⟩
  · rw [show (gridUpload d env g _ _).1.metadata = _ from hcommit, hashOf_storeMetadata _ _ _
      hsend.name.not_mem_newline hhash.not_mem_newline, if_pos rfl,
      clientChunks_flatten hsend.positive]
  · rw [show (gridUpload d env g _ _).1.metadata = _ from hcommit,
      placementsOf_storeMetadata_readable _ _ hsend.name.not_mem_newline hhash.not_mem_newline
        (fun c hc => (storedReplicas_sound hd.addressed hg.nodes env hsend.name hc).1), if_pos rfl,
      storedReplicas, hreceived] at hp
    obtain ⟨i, t, path, ht, hpath, rfl⟩ := mem_collectTransfers.mp hp
    have hrep := replica_gridTransfers hd hfits g.nodes ht hpath
    have hsize : content.length ≠ 0 := by
      intro hempty
      rw [clientChunks_nil hempty] at ht
      simp [receivedFrom, UploadEnv.pending] at ht
    have hnodes : (gridUpload d env g (uploadRequest chunkSize f content)
        (uploadStream chunkSize content)).1.nodes = _ :=
      upload_state_of_size (gridTransfers d env.transfers) (d.uploadEnv env) g.nodes g.metadata _ _
        hparse hsize
    rw [hreceived] at hnodes
    have hpathne : path ≠ [] := by
      obtain ⟨j, data, n, -, -, -, hholds⟩ := hrep.held
      exact hholds.own.ne_nil
    rw [hnodes]
    simpa only [Transfer.placement, Transfer.recordedPath, hpathne, ne_eq, not_false_eq_true,
      if_true] using hrep

/-- What the head makes of the request of a client is what the client meant. -/
lemma fileUpload_eq {chunkSize : Nat} {content : Bytes}
    (hrequest : (uploadRequest chunkSize f content).length < 1023) (hnul : (0 : UInt8) ∉ f) :
    fileUpload d env g chunkSize f content =
      ((gridUpload d env g (uploadRequest chunkSize f content) (uploadStream chunkSize content)).1,
        decide ((gridUpload d env g (uploadRequest chunkSize f content)
          (uploadStream chunkSize content)).2 = success)) := by
  unfold fileUpload
  rw [clientRequest_upload hrequest hnul]

/-- **A client that is told `SUCCESS` has its file stored.** -/
theorem stored_fileUpload (hd : Deployed d dir) (hg : g.Sound d dir) {chunkSize : Nat}
    {content : Bytes} (hsend : Sendable chunkSize f content)
    (h : (fileUpload d env g chunkSize f content).2 = true) :
    Fits f (clientChunks chunkSize content) ∧
      (fileUpload d env g chunkSize f content).1.Sound d dir ∧
      Stored d f (clientChunks chunkSize content) (fileUpload d env g chunkSize f content).1 := by
  rw [fileUpload_eq hsend.request hsend.nul] at h ⊢
  obtain ⟨hfits, hstored⟩ := stored_gridUpload hd hg hsend (of_decide_eq_true h)
  exact ⟨hfits, (leavesAlone_upload hd.addressed hg env _ _).sound, hstored⟩

end

end FileGrid
