import FileGrid.Failover.Preservation
import FileGrid.Grid.DeleteMessage

/-!
# What the steps of a grid leave alone

Every request the head makes names one chunk, and what it does to a node concerns the files and the
registry entry of that chunk.  `Spares` says this of a whole step: every chunk whose key is not in a
given set is left alone on every node.

Two things could make a request hit a wrong chunk, and `Sound` rules both out.  A registry entry
could lead from one key to the file of another; and a recorded path, which a node without a registry
entry falls back on, could be a file of another chunk.  `sound_gridStep` shows that no step of the
grid brings about either, so that every state reached from an empty grid is sound.

The servers are assumed to be what the registry says they are (`Deployed`): distinct addresses,
numeric hosts, and one node of its own behind the ports of each.
-/

namespace FileGrid

open Node (Keeps)

/-! ## The servers -/

/-- The address is that of a registry entry. -/
def Deployment.Registers (d : Deployment) (address : Bytes) : Prop :=
  ∃ e ∈ d.registry.getAll, e.address = address

/-- A registered server is there: one node listens on its transfer port and on its public port, at
the numeric address that is its host. -/
structure RealServer (d : Deployment) (e : ServerEntry) : Prop where
  nul : (0 : UInt8) ∉ e.host
  port : 0 < e.port ∧ e.port < 2 ^ 16
  transferPort : 0 < e.transferPort
  publicPort : 0 < e.publicPort ∧ e.publicPort < 2 ^ 16
  listens : ∃ ip n, inetPton e.host = some ip ∧
    d.net.transferAt ip (htons e.transferPort) = some n ∧
    d.net.publicAt ip (htons e.publicPort) = some n

/-- The servers of a deployment, and the directories `dir` their nodes store chunks in. -/
structure Deployed (d : Deployment) (dir : Nat → Bytes) : Prop where
  active : d.registry.getAddresses ≠ []
  addresses : (d.registry.getAll.map (·.address)).Nodup
  real : ∀ e ∈ d.registry.getAll, RealServer d e
  ownNode : ∀ a b, d.Registers a → d.Registers b → d.transferNode a = d.transferNode b → a = b
  dirs : ∀ n, ∀ b ∈ dir n, isSpace b = false

/-- All that uploads need of a deployment: servers are registered, their addresses are distinct
words, and so are the directories. -/
structure Addressed (d : Deployment) (dir : Nat → Bytes) : Prop where
  active : d.registry.getAddresses ≠ []
  addresses : (d.registry.getAll.map (·.address)).Nodup
  word : ∀ a, d.Registers a → Word a
  dirs : ∀ n, ∀ b ∈ dir n, isSpace b = false

lemma RealServer.host_word {d : Deployment} {e : ServerEntry} (h : RealServer d e) :
    Word e.host ∧ colon ∉ e.host := by
  obtain ⟨ip, n, hip, -⟩ := h.listens
  obtain ⟨hne, hchars⟩ := inetPton_chars h.nul hip
  refine ⟨⟨hne, fun b hb => ?_⟩, fun hmem => ?_⟩
  · rcases hchars b hb with hb | rfl
    · exact isSpace_of_isDigit hb
    · decide
  · rcases hchars colon hmem with hb | hb
    · exact absurd hb (by decide)
    · exact absurd hb (by decide)

lemma RealServer.parseAddress {d : Deployment} {e : ServerEntry} (h : RealServer d e) :
    parseAddress e.address = (e.host, e.port) :=
  parseAddress_addressOf h.host_word.2 (by have := h.port; omega) (by have := h.port; omega)

section

variable {d : Deployment} {dir : Nat → Bytes} (hd : Deployed d dir)
include hd

lemma Deployed.entryOf_eq {e : ServerEntry} (he : e ∈ d.registry.getAll) :
    d.entryOf e.address = some e := by
  cases hfind : d.entryOf e.address with
  | none =>
      have := List.find?_eq_none.mp hfind e he
      simp at this
  | some e' =>
      have haddr : e'.address = e.address := by simpa using List.find?_some hfind
      rw [List.inj_on_of_nodup_map hd.addresses (List.mem_of_find?_eq_some hfind) he haddr]

/-- Where a registered server is reached: by the head for transfers, and by clients. -/
lemma Deployed.reached {e : ServerEntry} (he : e ∈ d.registry.getAll) :
    ∃ ip n, inetPton e.host = some ip ∧ d.transferNode e.address = some n ∧
      d.net.publicAt ip (htons e.publicPort) = some n := by
  have hreal := hd.real e he
  obtain ⟨ip, n, hip, htransfer, hpublic⟩ := hreal.listens
  refine ⟨ip, n, hip, ?_, hpublic⟩
  simp only [Deployment.transferNode, Deployment.transferPort, Network.resolve, hreal.parseAddress,
    hip, hd.entryOf_eq he, hreal.transferPort, if_true, Option.bind_some, htransfer]

lemma Deployed.transferNode_isSome {a : Bytes} (ha : d.Registers a) :
    ∃ n, d.transferNode a = some n := by
  obtain ⟨e, he, rfl⟩ := ha
  obtain ⟨-, n, -, hn, -⟩ := hd.reached he
  exact ⟨n, hn⟩

lemma Deployed.addressed : Addressed d dir := by
  refine ⟨hd.active, hd.addresses, ?_, hd.dirs⟩
  rintro a ⟨e, he, rfl⟩
  have hhost := (hd.real e he).host_word.1
  exact (hhost.append (noSpace_iff.mp (by decide))).append (word_dec e.port).2

end

lemma registers_of_mem_getAddresses {d : Deployment} {a : Bytes}
    (h : a ∈ d.registry.getAddresses) : d.Registers a := by
  obtain ⟨e, he, rfl⟩ := List.mem_map.mp h
  exact ⟨e, List.mem_of_mem_filter he, rfl⟩

/-- The servers selected for a chunk are registered, and each is selected once. -/
lemma Addressed.selectServers {d : Deployment} {dir : Nat → Bytes} (hd : Addressed d dir)
    (env : RequestEnv) : (d.uploadEnv env).selectServersForChunk.Nodup ∧
      ∀ a ∈ (d.uploadEnv env).selectServersForChunk, d.Registers a := by
  have hactive : (d.uploadEnv env).registry.getAddresses ≠ [] := hd.active
  have hnodup : (d.uploadEnv env).registry.getAddresses.Nodup :=
    hd.addresses.sublist (List.filter_sublist.map _)
  simp only [UploadEnv.selectServersForChunk, if_neg hactive]
  set servers := (d.uploadEnv env).registry.getAddresses with hservers
  have hcand : ∀ cs, cs = (if servers.filter (d.uploadEnv env).isCandidate ≠ [] then
      servers.filter (d.uploadEnv env).isCandidate else servers) →
        cs.Nodup ∧ ∀ a ∈ cs, a ∈ servers := by
    rintro cs rfl
    split_ifs
    · exact ⟨hnodup.filter _, fun a ha => List.mem_of_mem_filter ha⟩
    · exact ⟨hnodup, fun a ha => ha⟩
  obtain ⟨hcs, hsub⟩ := hcand _ rfl
  refine ⟨List.Nodup.sublist (List.take_sublist _ _)
    (((d.uploadEnv env).sort.perm _ _).nodup_iff.mpr hcs), fun a ha => ?_⟩
  exact registers_of_mem_getAddresses
    (hsub a (((d.uploadEnv env).sort.mem_sort).mp (List.mem_of_mem_take ha)))

/-! ## Sound nodes and records -/

/-- No registry leads from a key to the file of another chunk. -/
structure SoundNodes (dir : Nat → Bytes) (nodes : Nodes) : Prop where
  storagePath : ∀ n, (nodes n).storagePath = dir n
  owns : ∀ n f c, (nodes n).Owns (chunkKey f c)

/-- A path that is a chunk file on the server it is recorded with, is recorded for that chunk. -/
def SoundPlacement (d : Deployment) (dir : Nat → Bytes) (f : Bytes) (p : Placement) : Prop :=
  ∀ n, d.transferNode p.server = some n → ∀ f' c, IsChunkFile (dir n) (chunkKey f' c) p.path →
    chunkKey f (wrap32 p.chunkId) = chunkKey f' c

/-- File names are words, and no record has the path of another chunk. -/
structure SoundRecords (d : Deployment) (dir : Nat → Bytes) (m : MetadataMap) : Prop where
  names : ∀ f hash, m.hashOf f = some hash → Word f
  paths : ∀ f, ∀ p ∈ m.placementsOf f, SoundPlacement d dir f p

lemma SoundRecords.word {d : Deployment} {dir : Nat → Bytes} {m : MetadataMap}
    (hm : SoundRecords d dir m) {f : Bytes} {p : Placement} (hp : p ∈ m.placementsOf f) :
    Word f := by
  obtain ⟨hash, hhash⟩ := MetadataMap.exists_hashOf hp
  exact hm.names f hash hhash

structure Grid.Sound (d : Deployment) (dir : Nat → Bytes) (g : Grid) : Prop where
  nodes : SoundNodes dir g.nodes
  records : SoundRecords d dir g.metadata

/-- A path generated for a key is sound for it. -/
lemma soundPlacement_of_isChunkFile {d : Deployment} {dir : Nat → Bytes} {f k : Bytes} {n : Nat}
    {p : Placement} (hn : d.transferNode p.server = some n) (hpath : IsChunkFile (dir n) k p.path)
    (hk : k = chunkKey f (wrap32 p.chunkId) ∨ k = []) : SoundPlacement d dir f p := by
  intro n' hn' f' c hfile
  obtain rfl : n = n' := Option.some.inj (hn.symm.trans hn')
  have heq := hpath.unique hfile
  rcases hk with rfl | rfl
  · exact heq
  · exact absurd heq.symm (by simp [chunkKey, ascii])

/-! ## Sparing -/

/-- The nodes stay sound, and chunks whose keys are not among these are left alone. -/
structure Spares (dir : Nat → Bytes) (keys : Set Bytes) (nodes nodes' : Nodes) : Prop where
  sound : SoundNodes dir nodes'
  keeps : ∀ f c, chunkKey f c ∉ keys → ∀ n, Keeps (chunkKey f c) (nodes n) (nodes' n)

section

variable {dir : Nat → Bytes} {keys : Set Bytes} {nodes nodes' nodes'' : Nodes}

lemma Spares.refl (h : SoundNodes dir nodes) : Spares dir keys nodes nodes :=
  ⟨h, fun _ _ _ _ => Keeps.refl _ _⟩

lemma Spares.trans (h : Spares dir keys nodes nodes') (h' : Spares dir keys nodes' nodes'') :
    Spares dir keys nodes nodes'' :=
  ⟨h'.sound, fun f c hk n => (h.keeps f c hk n).trans (h'.keeps f c hk n)⟩

lemma Spares.mono {keys' : Set Bytes} (h : Spares dir keys nodes nodes')
    (hkeys : ∀ f c, chunkKey f c ∈ keys → chunkKey f c ∈ keys') :
    Spares dir keys' nodes nodes' :=
  ⟨h.sound, fun f c hk => h.keeps f c fun hmem => hk (hkeys f c hmem)⟩

lemma spares_update (h : SoundNodes dir nodes) {n : Nat} {node' : Node}
    (hnode : Node.Spares keys (nodes n) node') :
    Spares dir keys nodes (Function.update nodes n node') := by
  have hcases : ∀ k, Function.update nodes n node' k = nodes k ∨
      (k = n ∧ Function.update nodes n node' k = node') := by
    intro k
    by_cases hk : k = n
    · exact Or.inr ⟨hk, by rw [hk, Function.update_self]⟩
    · exact Or.inl (Function.update_of_ne hk _ _)
  refine ⟨⟨fun k => ?_, fun k f c => ?_⟩, fun f c hkey k => ?_⟩
  · rcases hcases k with heq | ⟨rfl, heq⟩
    · rw [heq]; exact h.storagePath k
    · rw [heq, hnode.storagePath]; exact h.storagePath k
  · rcases hcases k with heq | ⟨rfl, heq⟩
    · rw [heq]; exact h.owns k f c
    · rw [heq]; exact hnode.owns f c (h.owns k f c)
  · rcases hcases k with heq | ⟨rfl, heq⟩
    · rw [heq]; exact Keeps.refl _ _
    · rw [heq]; exact hnode.keeps f c hkey (h.owns k f c)

lemma spares_request {β : Type} (h : SoundNodes dir nodes) {target : Option Nat} (link : Link)
    {handle : Node → Node × β}
    (hhandle : ∀ n, target = some n → Node.Spares keys (nodes n) (handle (nodes n)).1) :
    Spares dir keys nodes (request nodes target link handle).1 := by
  rcases request_cases nodes target link handle with heq | ⟨n, hn, -, heq, -⟩
  · rw [heq]
    exact Spares.refl h
  · rw [heq]
    exact spares_update h (hhandle n hn)

end

/-! ### The requests of the head -/

section

variable {d : Deployment} {dir : Nat → Bytes} {nodes : Nodes}

lemma spares_sendChunk (h : SoundNodes dir nodes) (link : Link) (fault : StoreFault) (us : Int)
    (server filename : Bytes) (c : Int) (data : Bytes) :
    Spares dir {chunkKey filename c} nodes
      (sendChunkToServer d nodes link fault us server filename c data).1 := by
  have hkey : ∀ f c', chunkKey f c' ∈ ({(chunkMessage filename c data).chunkId} : Set Bytes) →
      chunkKey f c' ∈ ({chunkKey filename c} : Set Bytes) := by
    intro f c' hmem
    rcases chunkMessage_chunkId filename data c with heq | heq
    · rwa [heq] at hmem
    · rw [heq] at hmem
      exact absurd hmem (by simp [chunkKey, ascii])
  have hreq : Spares dir {(chunkMessage filename c data).chunkId} nodes
      (request nodes (d.transferNode server) link fun node => node.storeChunk fault us
        (chunkMessage filename c data).chunkId (chunkMessage filename c data).data).1 :=
    spares_request h link fun n _ => Node.spares_storeChunk (nodes n) fault us _ _
  exact hreq.mono hkey

lemma spares_retrieve {m : MetadataMap} (h : SoundNodes dir nodes) (hm : SoundRecords d dir m)
    {f : Bytes} {p : Placement} (hp : p ∈ m.placementsOf f) (link : Link) :
    Spares dir {chunkKey f (wrap32 p.chunkId)} nodes
      (request nodes (d.transferNode p.server) link fun node =>
        node.retrieveChunk (chunkKey f (wrap32 p.chunkId)) p.path).1 := by
  refine spares_request h link fun n hn => Node.spares_retrieveChunk fun f' c hfile => ?_
  rw [h.storagePath n] at hfile
  exact hm.paths f p hp n hn f' c hfile

/-- A path that is reported was generated for the chunk, or for the empty key of a message that was
too long. -/
lemma sendChunk_path (h : SoundNodes dir nodes) {link : Link} {fault : StoreFault} {us : Int}
    {server filename data path : Bytes} {c : Int}
    (hpath : (sendChunkToServer d nodes link fault us server filename c data).2 = some path) :
    ∃ n k, d.transferNode server = some n ∧ IsChunkFile (dir n) k path ∧
      (k = chunkKey filename c ∨ k = []) := by
  rcases sendChunkToServer_cases d nodes link fault us server filename c data with
    heq | ⟨n, hn, -, -, hreport⟩
  · rw [heq] at hpath
    cases hpath
  · refine ⟨n, _, hn, ?_, chunkMessage_chunkId filename data c⟩
    rw [← h.storagePath n]
    exact Node.isChunkFile_of_storeChunk (hreport path hpath)

/-- The transfers of an upload concern the chunks of its file. -/
lemma spares_gridTransfers (h : SoundNodes dir nodes) (env : TransferEnv) (filename : Bytes)
    (pending : List Transfer) :
    Spares dir (Set.range (chunkKey filename)) nodes
      (gridTransfers d env nodes filename pending).1 := by
  refine runPool_invariant (fun s => Spares dir _ nodes s) (Spares.refl h) ?_
  intro s i t _ hs
  refine hs.trans ((spares_sendChunk hs.sound _ _ _ _ _ _ _).mono ?_)
  intro f c hmem
  exact ⟨t.chunkId, hmem.symm⟩

/-- What the replicas of an upload are recorded as: they can be read back, stand on registered
servers, and have paths of their own. -/
lemma storedReplicas_sound (hd : Addressed d dir) (h : SoundNodes dir nodes) (env : RequestEnv)
    {stream : Bytes} {r : UploadRequest} (hname : Word r.filename) {c : ChunkInfo}
    (hc : c ∈ storedReplicas (gridTransfers d env.transfers) (d.uploadEnv env) nodes stream r) :
    c.Readable ∧ SoundPlacement d dir r.filename c.placement := by
  obtain ⟨i, t, path, ht, hout, hplace⟩ := mem_collectTransfers.mp
    (List.mem_map_of_mem (f := ChunkInfo.placement) hc)
  obtain ⟨k, hk, server, hserver, rfl⟩ := mem_pending.mp (List.mem_of_getElem? ht)
  obtain ⟨hlo, hhi, hsum⟩ := UploadRequest.received_spec hk
  -- whatever the order, the path a transfer reports was generated for its chunk
  have hpost := (gridTransfers_rule d env.transfers nodes r.filename
    ((d.uploadEnv env).pending (r.received stream).1) (fun s => SoundNodes dir s)
    (fun _ _ t outcome => ∀ path, outcome = some path → ∃ n k, d.transferNode t.server = some n ∧
      IsChunkFile (dir n) k path ∧ (k = chunkKey r.filename t.chunkId ∨ k = [])) h
    (fun s i t _ hs => ⟨(spares_sendChunk hs _ _ _ _ _ _ _).sound, fun path => sendChunk_path hs⟩)
    (fun _ _ _ _ _ _ _ _ _ _ hp => hp)).2
  obtain ⟨outcome, hget, hpath⟩ := hpost i _ ht
  obtain rfl : some path = outcome := Option.some.inj (hout.symm.trans hget)
  obtain ⟨n, key, hn, hfile, hkey⟩ := hpath path rfl
  have hrecorded : c.filePath = path := by
    have : c.filePath = _ := congrArg Placement.path hplace
    rw [this]
    exact if_pos hfile.ne_nil
  have hid : c.chunkId = k.chunkId := congrArg Placement.chunkId hplace
  have hip : c.serverIp = server := congrArg Placement.server hplace
  have hkeychars : ∀ b ∈ key, isSpace b = false := by
    rcases hkey with rfl | rfl
    · exact (word_chunkKey hname _).2
    · simp
  refine ⟨⟨by rw [hid]; omega, by rw [hid]; omega, ?_, ?_, ?_⟩, ?_⟩
  · rw [hip]
    exact hd.word server ((hd.selectServers env).2 server hserver)
  · rw [hrecorded]
    exact hfile.word (hd.dirs n) hkeychars
  · rw [show c.checksum = k.checksum from congrArg Placement.checksum hplace, hsum]
    exact word_sha256 _
  · refine soundPlacement_of_isChunkFile (n := n) (k := key) ?_ ?_ ?_
    · rw [show c.placement.server = server from hip]
      exact hn
    · rw [show c.placement.path = path from hrecorded]
      exact hfile
    · rw [show c.placement.chunkId = k.chunkId from hid, wrap32_of_lt hlo (by omega)]
      exact hkey

end

/-! ## The steps -/

/-- The grid stays sound, and every file that is not touched keeps its records and, as far as its
keys have a length that a node reads in full, its chunks. -/
structure LeavesAlone (d : Deployment) (dir : Nat → Bytes) (touched : Bytes → Prop) (g g' : Grid) :
    Prop where
  sound : g'.Sound d dir
  keeps : ∀ f, ¬ touched f → ∀ c, (chunkKey f c).length < 1010 →
    ∀ n, Keeps (chunkKey f c) (g.nodes n) (g'.nodes n)
  placements : ∀ f, ¬ touched f → g'.metadata.placementsOf f = g.metadata.placementsOf f
  hashOf : ∀ f, ¬ touched f → g'.metadata.hashOf f = g.metadata.hashOf f

section

variable {d : Deployment} {dir : Nat → Bytes} {g : Grid}

lemma LeavesAlone.mono {touched touched' : Bytes → Prop} {g' : Grid}
    (h : LeavesAlone d dir touched g g') (hsub : ∀ f, touched f → touched' f) :
    LeavesAlone d dir touched' g g' where
  sound := h.sound
  keeps f hf := h.keeps f fun ht => hf (hsub f ht)
  placements f hf := h.placements f fun ht => hf (hsub f ht)
  hashOf f hf := h.hashOf f fun ht => hf (hsub f ht)

lemma leavesAlone_of_spares {touched : Bytes → Prop} {nodes : Nodes} (hg : g.Sound d dir)
    {keys : Set Bytes} (h : Spares dir keys g.nodes nodes)
    (hkeys : ∀ f, ¬ touched f → ∀ c, (chunkKey f c).length < 1010 → chunkKey f c ∉ keys) :
    LeavesAlone d dir touched g { g with nodes } :=
  ⟨⟨h.sound, hg.records⟩, fun f hf c hc => h.keeps f c (hkeys f hf c hc), fun _ _ => rfl,
    fun _ _ => rfl⟩

lemma chunkKey_not_mem_range {f f' : Bytes} (h : f' ≠ f) (c : Int) :
    chunkKey f c ∉ Set.range (chunkKey f') := by
  rintro ⟨c', heq⟩
  exact h (chunkKey_injective heq).1

/-- An upload touches the file it is about. -/
lemma leavesAlone_upload (hd : Addressed d dir) (hg : g.Sound d dir) (env : RequestEnv)
    (initialReq stream : Bytes) :
    LeavesAlone d dir
      (fun f => ∃ r, parseUploadRequest d.chunkSize initialReq = .ok r ∧ r.filename = f) g
      (gridUpload d env g initialReq stream).1 := by
  have hnodes := upload_state (gridTransfers d env.transfers) (d.uploadEnv env) g.nodes g.metadata
    initialReq stream
  -- the nodes
  have hspares : Spares dir {k | ∃ r, parseUploadRequest d.chunkSize initialReq = .ok r ∧
      k ∈ Set.range (chunkKey r.filename)} g.nodes
        (gridUpload d env g initialReq stream).1.nodes := by
    rcases hnodes with heq | ⟨r, hparse, heq⟩
    · rw [show (gridUpload d env g initialReq stream).1.nodes = g.nodes from heq]
      exact Spares.refl hg.nodes
    · rw [show (gridUpload d env g initialReq stream).1.nodes = _ from heq]
      exact (spares_gridTransfers hg.nodes _ _ _).mono fun f c hmem => ⟨r, hparse, hmem⟩
  have hkeys : ∀ f, ¬ (∃ r, parseUploadRequest d.chunkSize initialReq = .ok r ∧ r.filename = f) →
      ∀ c, chunkKey f c ∉ {k | ∃ r, parseUploadRequest d.chunkSize initialReq = .ok r ∧
        k ∈ Set.range (chunkKey r.filename)} := by
    rintro f hf c ⟨r, hparse, hmem⟩
    exact chunkKey_not_mem_range (fun heq => hf ⟨r, hparse, heq⟩) c hmem
  -- the records
  by_cases hsuccess : (gridUpload d env g initialReq stream).2 = success
  · obtain ⟨r, hparse, -, -⟩ := (upload_success_iff (gridTransfers d env.transfers)
      (d.uploadEnv env) g.nodes g.metadata initialReq stream).mp hsuccess
    obtain ⟨hname, hhash⟩ := parseUploadRequest_words hparse
    have hcommit : (gridUpload d env g initialReq stream).1.metadata = _ :=
      upload_commits (gridTransfers d env.transfers) (d.uploadEnv env) g.nodes g.metadata initialReq
        stream hparse hsuccess
    have hreadable : ∀ c ∈ storedReplicas (gridTransfers d env.transfers) (d.uploadEnv env) g.nodes
        stream r, c.Readable := fun c hc => (storedReplicas_sound hd hg.nodes env hname hc).1
    have hplacements := fun f => placementsOf_storeMetadata_readable g.metadata
      (d.uploadEnv env).replicationFactor hname.not_mem_newline hhash.not_mem_newline hreadable f
    have hhashOf := fun f => hashOf_storeMetadata g.metadata
      (storedReplicas (gridTransfers d env.transfers) (d.uploadEnv env) g.nodes stream r)
      (d.uploadEnv env).replicationFactor hname.not_mem_newline hhash.not_mem_newline f
    refine ⟨⟨hspares.sound, ?_, ?_⟩, fun f hf c _ => hspares.keeps f c (hkeys f hf c), ?_, ?_⟩
    · intro f hash hf
      rw [hcommit, hhashOf] at hf
      split_ifs at hf with hfr
      · exact hfr ▸ hname
      · exact hg.records.names f hash hf
    · intro f p hp
      rw [hcommit, hplacements] at hp
      split_ifs at hp with hfr
      · obtain ⟨c, hc, rfl⟩ := List.mem_map.mp hp
        exact hfr ▸ (storedReplicas_sound hd hg.nodes env hname hc).2
      · exact hg.records.paths f p hp
    · intro f hf
      rw [hcommit, hplacements, if_neg fun heq => hf ⟨r, hparse, heq.symm⟩]
    · intro f hf
      rw [hcommit, hhashOf, if_neg fun heq => hf ⟨r, hparse, heq.symm⟩]
  · have hsame : (gridUpload d env g initialReq stream).1.metadata = g.metadata :=
      upload_failed (gridTransfers d env.transfers) (d.uploadEnv env) g.nodes g.metadata initialReq
        stream hsuccess
    exact ⟨⟨hspares.sound, hsame ▸ hg.records⟩, fun f hf c _ => hspares.keeps f c (hkeys f hf c),
      fun f _ => by rw [hsame], fun f _ => by rw [hsame]⟩

/-! ### Downloads -/

lemma getChunkLocations_eq {m : MetadataMap} {f : Bytes} (hf : f ≠ []) :
    getChunkLocations m f = ((m.placementsOf f).map (·.location), (m.hashOf f).getD []) := by
  rw [getChunkLocations, MetadataMap.placements_queryMetadata m hf,
    MetadataMap.fileHash_queryMetadata m hf]

lemma mem_getChunkLocations {m : MetadataMap} {f : Bytes} {loc : ChunkLocation}
    (h : loc ∈ (getChunkLocations m f).1) : ∃ p ∈ m.placementsOf f, loc = p.location := by
  obtain ⟨p, hp, rfl⟩ := List.mem_map.mp h
  refine ⟨p, ?_, rfl⟩
  by_cases hf : f = []
  · simp [MetadataMap.queryMetadata, FileRecord.placements, hf] at hp
  · rwa [MetadataMap.placements_queryMetadata m hf] at hp

lemma spares_hashJob {nodes : Nodes} {m : MetadataMap} (h : SoundNodes dir nodes)
    (hm : SoundRecords d dir m) (env : DownloadEnv) {f : Bytes} (i : Nat) {loc : ChunkLocation}
    (hloc : loc ∈ hashJobs (getChunkLocations m f).1) :
    Spares dir {chunkKey f loc.chunkId} nodes (hashJob d env f nodes i loc).1 := by
  obtain ⟨p, hp, rfl⟩ := mem_getChunkLocations (mem_hashJobs.mp hloc)
  exact spares_retrieve h hm hp (env.link i)

lemma leavesAlone_download (hg : g.Sound d dir) (env : DownloadEnv) (filename : Bytes) :
    LeavesAlone d dir (fun f => filename = f) g
      { g with nodes := (streamFileToClient d env g.nodes g.metadata filename).1 } := by
  have hspares : Spares dir (Set.range (chunkKey filename)) g.nodes
      (streamFileToClient d env g.nodes g.metadata filename).1 := by
    unfold streamFileToClient streamFileToClientOn
    dsimp only
    by_cases hnil : (getChunkLocations g.metadata filename).1 = []
    · rw [if_pos hnil]
      exact Spares.refl hg.nodes
    · rw [if_neg hnil]
      have hreplies : Spares dir (Set.range (chunkKey filename)) g.nodes
          (hashReplies d env g.nodes filename (getChunkLocations g.metadata filename).1).1 := by
        refine runPool_invariant (fun s => Spares dir _ g.nodes s) (Spares.refl hg.nodes) ?_
        intro s i loc hloc hs
        refine hs.trans ((spares_hashJob hs.sound hg.records env i
          (List.mem_of_getElem? hloc)).mono ?_)
        intro f c hmem
        exact ⟨loc.chunkId, hmem.symm⟩
      split
      · exact hreplies
      · exact hreplies
  exact leavesAlone_of_spares hg hspares fun f hf c _ => chunkKey_not_mem_range hf c

/-! ### Deletes -/

/-- The keys that the messages of a delete can be about, as the nodes read them: the keys of the
file, what is left of a key that is too long, and what is left of one of which not all is there. -/
def deletedKeys (env : DeleteEnv) (f : Bytes) : Set Bytes :=
  {k | k ∈ Set.range (chunkKey f) ∨ 1010 ≤ k.length ∨
    ∃ i c, env.arrived i < 1023 ∧ messageKey (env.read i (deleteMessage f c)) = k}

lemma messageKey_mem_deletedKeys {f : Bytes} (hf : Word f) (env : DeleteEnv) (i : Nat) (c : Int) :
    messageKey (env.read i (deleteMessage f c)) ∈ deletedKeys env f := by
  have hkey := word_chunkKey hf c
  by_cases harrived : env.arrived i < 1023
  · exact Or.inr (Or.inr ⟨i, c, harrived, rfl⟩)
  rw [DeleteEnv.read, min_eq_left (by omega), messageKey]
  by_cases hlen : (chunkKey f c).length ≤ 1010
  · left
    obtain ⟨eol, heol, hmsg⟩ := take_deleteMessage (show 13 + (chunkKey f c).length ≤ 1023 by omega)
    rw [hmsg, readWord_delete hkey heol]
    exact ⟨c, rfl⟩
  · right
    left
    have hread := readWord_delete (hkey.take (show 0 < 1010 by omega)) (List.nil_subset [10])
    rw [List.append_nil] at hread
    rw [take_deleteMessage_of_long (by omega), hread]
    simp only [Option.map_some, Option.getD_some, List.length_take]
    omega

lemma spares_deleteChunks {f : Bytes} (hf : Word f) (env : DeleteEnv) (i : Nat)
    (locs : List ChunkLocation) {nodes : Nodes} (h : SoundNodes dir nodes) :
    Spares dir (deletedKeys env f) nodes (deleteChunks d env f i locs nodes).1 := by
  induction locs generalizing i nodes with
  | nil => exact Spares.refl h
  | cons loc locs ih =>
      have hstep : Spares dir (deletedKeys env f) nodes
          (request nodes (d.baseNode loc.serverIp) (env.link i) fun node => node.emergencyMessage
            (env.removes i) (env.read i (deleteMessage f loc.chunkId))).1 := by
        refine spares_request h _ fun n _ => ?_
        have hnode := Node.spares_emergencyMessage (nodes n) (env.removes i)
          (env.read i (deleteMessage f loc.chunkId))
        refine ⟨hnode.storagePath, hnode.owns, fun f' c hk => hnode.keeps f' c fun hmem => hk ?_⟩
        rw [Set.mem_singleton_iff.mp hmem]
        exact messageKey_mem_deletedKeys hf env i loc.chunkId
      exact hstep.trans (ih (i + 1) hstep.sound)

lemma leavesAlone_delete (hg : g.Sound d dir) (env : DeleteEnv) (filename : Bytes) :
    LeavesAlone d dir (fun f => filename = f ∨ ∃ i c c', env.arrived i < 1023 ∧
        messageKey (env.read i (deleteMessage filename c')) = chunkKey f c) g
      { nodes := (handleClientDelete d env g.nodes g.metadata filename).1
        metadata := (handleClientDelete d env g.nodes g.metadata filename).2.1 } := by
  unfold handleClientDelete
  dsimp only
  by_cases hnil : (getChunkLocations g.metadata filename).1 = []
  · rw [if_pos hnil]
    exact leavesAlone_of_spares hg (Spares.refl hg.nodes) fun f _ c _ => Set.notMem_empty _
  · rw [if_neg hnil]
    -- a file with locations is recorded, so its name is a word
    obtain ⟨loc, hloc⟩ := List.exists_mem_of_ne_nil _ hnil
    obtain ⟨p, hp, -⟩ := mem_getChunkLocations hloc
    have hname := hg.records.word hp
    have hspares := spares_deleteChunks (d := d) hname env 0
      (getChunkLocations g.metadata filename).1 hg.nodes
    have hkeys : ∀ f, ¬ (filename = f ∨ ∃ i c c', env.arrived i < 1023 ∧
        messageKey (env.read i (deleteMessage filename c')) = chunkKey f c) →
        ∀ c, (chunkKey f c).length < 1010 → chunkKey f c ∉ deletedKeys env filename := by
      rintro f hf c hc (hmem | hmem | ⟨i, c', harrived, hmem⟩)
      · exact chunkKey_not_mem_range (fun h => hf (Or.inl h)) c hmem
      · omega
      · exact hf (Or.inr ⟨i, c, c', harrived, hmem⟩)
    by_cases hall : (deleteChunks d env filename 0 (getChunkLocations g.metadata filename).1
        g.nodes).2 = true
    · rw [if_pos hall]
      refine ⟨⟨hspares.sound, ?_, ?_⟩, fun f hf c hc => hspares.keeps f c (hkeys f hf c hc), ?_, ?_⟩
      · intro f hash hf
        rw [MetadataMap.hashOf_deleteEntry _ _ _ hname.1] at hf
        split_ifs at hf
        exact hg.records.names f hash hf
      · intro f q hq
        rw [MetadataMap.placements_deleteEntry _ _ _ hname.1] at hq
        split_ifs at hq
        · simp at hq
        · exact hg.records.paths f q hq
      · intro f hf
        exact (MetadataMap.placements_deleteEntry _ _ _ hname.1).trans
          (if_neg fun h => hf (Or.inl h.symm))
      · intro f hf
        exact (MetadataMap.hashOf_deleteEntry _ _ _ hname.1).trans
          (if_neg fun h => hf (Or.inl h.symm))
    · rw [if_neg hall]
      exact leavesAlone_of_spares hg hspares hkeys

/-- **A request touches the file it is about**, and no other, unless a node takes it for one about
another. -/
theorem leavesAlone_serveClient (hd : Addressed d dir) (hg : g.Sound d dir) (env : RequestEnv)
    (received stream : Bytes) :
    LeavesAlone d dir (fun f => ActsOn d received f ∨ MistakenFor env.delete received f) g
      (serveClient d env g received stream) := by
  have hidle : ∀ touched, LeavesAlone d dir touched g g := fun _ =>
    leavesAlone_of_spares hg (Spares.refl hg.nodes) fun _ _ _ _ => Set.notMem_empty _
  unfold serveClient ActsOn MistakenFor
  cases clientRequest received with
  | download filename =>
      exact (leavesAlone_download hg env.download filename).mono fun _ => Or.inl
  | delete filename =>
      exact (leavesAlone_delete hg env.delete filename).mono fun _ =>
        Or.imp_right fun h => ⟨filename, rfl, h⟩
  | upload initialReq =>
      exact (leavesAlone_upload hd hg env initialReq stream).mono fun _ => Or.inl
  | list => exact hidle _
  | unknown => exact hidle _

/-! ### Crashes and restarts -/

lemma leavesAlone_update (hg : g.Sound d dir) {n : Nat} {node' : Node}
    (h : ∀ key, Keeps key (g.nodes n) node') (touched : Bytes → Prop) :
    LeavesAlone d dir touched g { g with nodes := Function.update g.nodes n node' } :=
  leavesAlone_of_spares hg (spares_update hg.nodes (Node.spares_of_keeps h))
    fun _ _ _ _ => Set.notMem_empty _

/-! ### Failovers -/

/-- The source of a planned copy is a record of its chunk. -/
lemma exists_source {m : MetadataMap} {dead : Bytes} {healthy : List Bytes} {job : Job}
    (h : job ∈ plan m dead healthy) : ∃ p ∈ m.placementsOf job.filename,
      p.chunkId = job.chunkId ∧ p.server = job.source ∧ p.path = job.sourcePath := by
  obtain ⟨r, hr, hsource, hpath⟩ := (jobOf_spec (mem_plan.mp h).2.2).source
  obtain ⟨hmem, hid⟩ := mem_recordsOf_placement (List.mem_of_find?_eq_some hr)
  exact ⟨r.placement, hmem, hid, hsource.symm, hpath.symm⟩

lemma spares_gridCopy {m : MetadataMap} (hm : SoundRecords d dir m) {s : Nat × Nodes}
    (h : SoundNodes dir s.2) (env : Nat → CopyEnv) {dead : Bytes} {healthy : List Bytes} {job : Job}
    (hjob : job ∈ plan m dead healthy) :
    Spares dir {chunkKey job.filename (wrap32 job.chunkId)} s.2 (gridCopy d env s job).1.2 := by
  obtain ⟨p, hp, hid, hsource, hpath⟩ := exists_source hjob
  have hread := spares_retrieve h hm hp (env s.1).readLink
  rw [hid, hsource, hpath] at hread
  unfold gridCopy replicateChunkToServer
  dsimp only
  split_ifs
  · exact hread
  · exact hread.trans (spares_sendChunk hread.sound _ _ _ _ _ _ _)

lemma gridCopy_path {m : MetadataMap} (hm : SoundRecords d dir m) {s : Nat × Nodes}
    (h : SoundNodes dir s.2) (env : Nat → CopyEnv) {dead : Bytes} {healthy : List Bytes} {job : Job}
    (hjob : job ∈ plan m dead healthy) {path : Bytes}
    (hpath : (gridCopy d env s job).2 = some path) :
    ∃ n k, d.transferNode job.target = some n ∧ IsChunkFile (dir n) k path ∧
      (k = chunkKey job.filename (wrap32 job.chunkId) ∨ k = []) := by
  obtain ⟨p, hp, hid, hsource, hsrcpath⟩ := exists_source hjob
  have hread := spares_retrieve h hm hp (env s.1).readLink
  rw [hid, hsource, hsrcpath] at hread
  unfold gridCopy replicateChunkToServer at hpath
  dsimp only at hpath
  split_ifs at hpath
  exact sendChunk_path hread.sound hpath

lemma sound_gridFailover (hg : g.Sound d dir) (env : Nat → CopyEnv) (health : HealthMonitor)
    (dead : Bytes) : (gridFailover d env health dead g).Sound d dir := by
  obtain ⟨hnodes, hpaths⟩ := rereplicate_rule (gridCopy d env) d.registry health dead
    g.metadata (0, g.nodes) (fun s => SoundNodes dir s.2)
    (fun _ job path => ∃ n k, d.transferNode job.target = some n ∧ IsChunkFile (dir n) k path ∧
      (k = chunkKey job.filename (wrap32 job.chunkId) ∨ k = [])) hg.nodes
    (fun s job hjob hs => ⟨(spares_gridCopy hg.records hs env hjob).sound,
      fun path => gridCopy_path hg.records hs env hjob⟩)
    (fun _ _ _ _ _ _ _ hp => hp)
  refine ⟨hnodes, fun f hash hf => ?_, fun f p hp => ?_⟩
  · rw [gridFailover, hashOf_rereplicate] at hf
    exact hg.records.names f hash hf
  · rcases hpaths f p hp with hp | ⟨job, path, rfl, ⟨n, k, hn, hfile, hk⟩, rfl⟩
    · exact hg.records.paths f p hp
    · -- a new record has the path the copy reported
      refine soundPlacement_of_isChunkFile (n := n) (k := k) hn ?_ hk
      simpa only [ChunkRecord.placement, Job.record, hfile.ne_nil, ne_eq, not_false_eq_true,
        if_true] using hfile

/-- **Every step of a grid keeps it sound.** -/
theorem sound_gridStep (hd : Addressed d dir) (hg : g.Sound d dir) (op : GridOp) :
    (gridStep d g op).Sound d dir := by
  cases op with
  | client env received stream => exact (leavesAlone_serveClient hd hg env received stream).sound
  | crash n =>
      exact (leavesAlone_update hg (fun key => Node.keeps_crash key _) fun _ => False).sound
  | restart n =>
      exact (leavesAlone_update hg (fun key => Node.keeps_restart key _) fun _ => False).sound
  | failover env health dead => exact sound_gridFailover hg env health dead

end

/-- A grid without files. -/
def Grid.empty (dir : Nat → Bytes) : Grid where
  nodes := fun n => { storagePath := dir n }
  metadata := ∅

lemma sound_empty (d : Deployment) (dir : Nat → Bytes) : (Grid.empty dir).Sound d dir := by
  refine ⟨⟨fun _ => rfl, fun n f c k path hreg => ?_⟩, fun f hash hf => ?_, fun f p hp => ?_⟩
  · simp [Grid.empty] at hreg
  · simp [Grid.empty, MetadataMap.hashOf] at hf
  · simp [Grid.empty, MetadataMap.placementsOf] at hp

/-- **Every grid that was once empty is sound.** -/
theorem sound_gridRun {d : Deployment} {dir : Nat → Bytes} (hd : Addressed d dir)
    (ops : List GridOp) : (gridRun d (Grid.empty dir) ops).Sound d dir := by
  refine List.foldlRecOn (motive := Grid.Sound d dir) ops _ (sound_empty d dir) ?_
  intro g hg op _
  exact sound_gridStep hd hg op

end FileGrid
