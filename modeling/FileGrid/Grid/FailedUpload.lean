import FileGrid.Grid.Durability

/-!
# Uploads that fail

An upload hands each chunk to the storage nodes as it arrives, under the key the chunk of the stored
version has too, and only looks at the whole when the stream has ended.  An upload that is given up
leaves the metadata as it was, but the nodes serve what it sent last: a client that disconnects in
the middle of a new version takes the old one with it (`failed_upload_destroys_file`).

`Harmless` says which attempts do no damage.  No store that is carried out on a server with a
replica of a chunk brings other bytes for that chunk, and a store that breaks off half-way does not
bear the time stamp of a file that is there.  A stored file survives every run of such attempts and
of steps that are none of its own (`stored_file_survives_attempts`).
-/

namespace FileGrid

open Node (Holds Unstamped)

/-! ## Attempts without damage -/

/-- The `i`-th transfer of an attempt gets to the server of a replica, with its chunk. -/
structure Meets (d : Deployment) (g : Grid) (env : TransferEnv) (pending : List Transfer)
    (p : Placement) (i : Nat) (t : Transfer) : Prop where
  pending : pending[i]? = some t
  server : t.server = p.server
  chunkId : t.chunkId = p.chunkId
  arrives : env.link i ≠ .down
  runs : Runs d g.nodes t.server

/-- The time stamps of the transfers that break off half-way beside a replica. -/
def brokenStamps (d : Deployment) (g : Grid) (env : TransferEnv) (pending : List Transfer)
    (p : Placement) : Set Int :=
  {us | ∃ i t written, Meets d g env pending p i t ∧ env.fault i = .writeFails written ∧
    env.epochUs i = us}

/-- The transfers of an attempt on a file that is stored do it no damage. -/
structure Harmless (d : Deployment) (f : Bytes) (parts : List Bytes) (g : Grid) (env : TransferEnv)
    (pending : List Transfer) : Prop where
  /-- A store that is carried out beside a replica has the bytes of the replica. -/
  bytes : ∀ p ∈ g.metadata.placementsOf f, ∀ i t, Meets d g env pending p i t →
    env.fault i = .none →
    ∀ (k : Nat) (data : Bytes), t.chunkId = k → parts[k]? = some data → t.data = data
  /-- A store that breaks off beside a replica bears the time stamp of none that is carried out
  there, nor of the file on record, nor of the one that the node serves. -/
  stamps : ∀ p ∈ g.metadata.placementsOf f, ∀ us ∈ brokenStamps d g env pending p,
    (∀ i t, Meets d g env pending p i t → env.fault i = .none → env.epochUs i ≠ us) ∧
    ∀ n ∈ d.transferNode p.server, (g.nodes n).Unstamped {us} (chunkKey f p.chunkId) p.path

/-- The step is an upload of the file that does not end in `SUCCESS` and does no damage. -/
def GridOp.FailedUpload (d : Deployment) (f : Bytes) (parts : List Bytes) (g : Grid) :
    GridOp → Prop
  | .client env received stream => ∃ initialReq r, clientRequest received = .upload initialReq ∧
      parseUploadRequest d.chunkSize initialReq = .ok r ∧ r.filename = f ∧
      (gridUpload d env g initialReq stream).2 ≠ success ∧
      Harmless d f parts g env.transfers ((d.uploadEnv env).pending (r.received stream).1)
  | .crash _ => False
  | .restart _ => False
  | .failover _ _ _ => False

/-! ## What an attempt keeps -/

/-- A replica of which neither the file nor what the registry leads to bears one of these time
stamps. -/
structure Kept (d : Deployment) (f : Bytes) (parts : List Bytes) (stamps : Set Int) (nodes : Nodes)
    (p : Placement) : Prop where
  registered : d.Registers p.server
  held : ∃ (i : Nat) (data : Bytes) (n : Nat), p.chunkId = i ∧ parts[i]? = some data ∧
    d.transferNode p.server = some n ∧ (nodes n).Holds (chunkKey f i) p.path data ∧
    (nodes n).Unstamped stamps (chunkKey f i) p.path

section

variable {d : Deployment} {dir : Nat → Bytes} {f : Bytes} {parts : List Bytes} {stamps : Set Int}
  {nodes : Nodes} {p : Placement} {g : Grid}

lemma Kept.replica (h : Kept d f parts stamps nodes p) : Replica d f parts nodes p := by
  obtain ⟨hreg, i, data, n, hid, hdata, hn, hholds, -⟩ := h
  exact ⟨hreg, i, data, n, hid, hdata, hn, hholds⟩

lemma chunkMessage_data {f data : Bytes} {c : Int}
    (h : (chunkMessage f c data).chunkId = chunkKey f c) : (chunkMessage f c data).data = data := by
  unfold chunkMessage ChunkData.delivered at h ⊢
  split_ifs at h ⊢
  · rfl
  · exact absurd h.symm (by simp [chunkKey, ascii])

/-- **One store of an attempt keeps a replica.** -/
theorem Kept.send (hd : Deployed d dir) (h : Kept d f parts stamps nodes p) {server : Bytes}
    (hserver : d.Registers server) {c : Int} {data' : Bytes} {link : Link} {fault : StoreFault}
    {us : Int}
    (hbytes : link ≠ .down → fault = .none → Runs d nodes server → p.server = server →
      p.chunkId = c → ∀ (k : Nat) (data : Bytes), c = k → parts[k]? = some data → data' = data)
    (hfresh : link ≠ .down → fault = .none → Runs d nodes server → p.server = server →
      p.chunkId = c → us ∉ stamps)
    (hbreak : ∀ written, link ≠ .down → fault = .writeFails written → Runs d nodes server →
      p.server = server → p.chunkId = c → us ∈ stamps) :
    Kept d f parts stamps (sendChunkToServer d nodes link fault us server f c data').1 p := by
  by_cases hdown : link = .down
  · rw [hdown, sendChunkToServer_down]
    exact h
  rcases sendChunkToServer_cases d nodes link fault us server f c data' with
    heq | ⟨n, hn, hrun, heq, -⟩
  · rw [heq]
    exact h
  rw [heq]
  obtain ⟨hreg, i, data, k, hid, hdata, hk, hholds, hfree⟩ := h
  refine ⟨hreg, i, data, k, hid, hdata, hk, ?_⟩
  by_cases hkn : k = n
  swap
  · rw [Function.update_of_ne hkn]
    exact ⟨hholds, hfree⟩
  subst hkn
  rw [Function.update_self]
  have hsame : p.server = server := hd.ownNode _ _ hreg hserver (hk.trans hn.symm)
  -- the store is for the chunk of the replica, or for another key
  by_cases hkey : (chunkMessage f c data').chunkId = chunkKey f i
  · have hci : c = i := by
      rcases chunkMessage_chunkId f data' c with hmsg | hmsg
      · exact (chunkKey_injective (hmsg.symm.trans hkey)).2
      · exact absurd (hmsg.symm.trans hkey).symm (by simp [chunkKey, ascii])
    rw [hkey, chunkMessage_data (hci ▸ hkey)]
    have hruns : Runs d nodes server := ⟨k, hn, hrun⟩
    have hchunk : p.chunkId = c := hid.trans hci.symm
    exact hholds.storeChunk_again hfree
      (fun hnone => ⟨hbytes hdown hnone hruns hsame hchunk i data hci hdata,
        hfresh hdown hnone hruns hsame hchunk⟩)
      fun written hfault => hbreak written hdown hfault hruns hsame hchunk
  · have hkeep := Node.keeps_storeChunk hkey (nodes k) fault us (chunkMessage f c data').data
    exact ⟨hholds.keeps hkeep, hfree.keeps hkeep⟩

lemma Harmless.kept {env : TransferEnv} {pending : List Transfer}
    (h : Harmless d f parts g env pending) (hmem : p ∈ g.metadata.placementsOf f)
    (hp : Replica d f parts g.nodes p) :
    Kept d f parts (brokenStamps d g env pending p) g.nodes p := by
  obtain ⟨hreg, i, data, n, hid, hdata, hn, hholds⟩ := hp
  refine ⟨hreg, i, data, n, hid, hdata, hn, hholds, fun us hus => ?_⟩
  have hfree := (h.stamps p hmem us hus).2 n hn
  rw [hid] at hfree
  exact hfree us rfl

/-- **The transfers of a harmless attempt keep every replica.** -/
theorem Harmless.replicas (hd : Deployed d dir) {env : RequestEnv} {received : List ReceivedChunk}
    (h : Harmless d f parts g env.transfers ((d.uploadEnv env).pending received))
    (hreplicas : ∀ p ∈ g.metadata.placementsOf f, Replica d f parts g.nodes p) :
    ∀ p ∈ g.metadata.placementsOf f, Replica d f parts
      (gridTransfers d env.transfers g.nodes f ((d.uploadEnv env).pending received)).1 p := by
  have hpool := (gridTransfers_rule d env.transfers g.nodes f ((d.uploadEnv env).pending received)
    (fun s => (∀ p ∈ g.metadata.placementsOf f, Kept d f parts
      (brokenStamps d g env.transfers ((d.uploadEnv env).pending received) p) s p) ∧
      ∀ n, (s n).running = (g.nodes n).running)
    (fun _ _ _ _ => True) ⟨fun p hp => h.kept hp (hreplicas p hp), fun _ => rfl⟩
    (by
      rintro s i t ht ⟨hkept, hrunning⟩
      obtain ⟨c, hc, server, hserver, htt⟩ := mem_pending.mp (List.mem_of_getElem? ht)
      have hregistered : d.Registers t.server := by
        rw [htt]
        exact (hd.addressed.selectServers env).2 server hserver
      have hmeets : ∀ p : Placement, env.transfers.link i ≠ .down → Runs d s t.server →
          p.server = t.server → p.chunkId = t.chunkId →
          Meets d g env.transfers ((d.uploadEnv env).pending received) p i t := by
        rintro p hlink ⟨n, hn, hrun⟩ hsrv hid
        exact ⟨ht, hsrv.symm, hid.symm, hlink, n, hn, (hrunning n).symm.trans hrun⟩
      refine ⟨⟨fun p hp => (hkept p hp).send hd hregistered ?_ ?_ ?_, fun n => ?_⟩, trivial⟩
      · intro hlink hnone hrun hsrv hid
        exact h.bytes p hp i t (hmeets p hlink hrun hsrv hid) hnone
      · intro hlink hnone hrun hsrv hid hus
        exact (h.stamps p hp _ hus).1 i t (hmeets p hlink hrun hsrv hid) hnone rfl
      · intro written hlink hfault hrun hsrv hid
        exact ⟨i, t, written, hmeets p hlink hrun hsrv hid, hfault, rfl⟩
      · exact (running_sendChunk d s _ _ _ _ _ _ _ n).trans (hrunning n))
    (fun _ _ _ _ _ _ _ _ _ _ _ => trivial)).1
  exact fun p hp => (hpool.1 p hp).replica

/-- **A harmless attempt that fails keeps the file stored.** -/
theorem stored_failedUpload (hd : Deployed d dir) (h : Stored d f parts g) {op : GridOp}
    (hop : op.FailedUpload d f parts g) : Stored d f parts (gridStep d g op) := by
  cases op with
  | crash n => exact hop.elim
  | restart n => exact hop.elim
  | failover env health dead => exact hop.elim
  | client env received stream =>
      obtain ⟨initialReq, r, hreq, hparse, rfl, hfail, hharmless⟩ := hop
      have hstep : gridStep d g (.client env received stream) =
          (gridUpload d env g initialReq stream).1 := by
        simp only [gridStep, serveClient, hreq]
      have hmeta : (gridUpload d env g initialReq stream).1.metadata = g.metadata :=
        upload_failed (gridTransfers d env.transfers) (d.uploadEnv env) g.nodes g.metadata
          initialReq stream hfail
      rw [hstep]
      refine ⟨hmeta ▸ h.hash, fun p hp => ?_⟩
      rw [hmeta] at hp
      rcases upload_state (gridTransfers d env.transfers) (d.uploadEnv env) g.nodes g.metadata
          initialReq stream with heq | ⟨r', hparse', heq⟩
      · rw [show (gridUpload d env g initialReq stream).1.nodes = g.nodes from heq]
        exact h.replicas p hp
      · obtain rfl : r = r' := Except.ok.inj (hparse.symm.trans hparse')
        rw [show (gridUpload d env g initialReq stream).1.nodes = _ from heq]
        exact hharmless.replicas hd h.replicas p hp

end

/-! ## Runs -/

/-- **A stored file survives harmless attempts to replace it.**  If an upload ends in `SUCCESS`,
then after any run of other steps and of harmless attempts on the same file that fail, with every
chunk still on record and all servers up, a download returns the bytes that were uploaded. -/
theorem stored_file_survives_attempts {d : Deployment} {dir : Nat → Bytes} (hd : Deployed d dir)
    {g : Grid} (hg : g.Sound d dir) {chunkSize : Nat} {f content : Bytes}
    (hsend : Sendable chunkSize f content) {env : RequestEnv}
    (hupload : (fileUpload d env g chunkSize f content).2 = true) {ops : List GridOp}
    (hops : AlongRun (gridStep d) (fun g op => op.Other d f ∨
      op.FailedUpload d f (clientChunks chunkSize content) g)
      (fileUpload d env g chunkSize f content).1 ops)
    (hrecorded : ∀ i : Nat, i < (clientChunks chunkSize content).length →
      HasChunk (gridRun d (fileUpload d env g chunkSize f content).1 ops).metadata f i)
    (hservers : ∀ a, d.Registers a →
      Runs d (gridRun d (fileUpload d env g chunkSize f content).1 ops).nodes a)
    {denv : DownloadEnv} (hup : ∀ k, denv.link k = .up) (schedule : Schedule) :
    gridDownload d denv schedule (gridRun d (fileUpload d env g chunkSize f content).1 ops) f =
      some content := by
  obtain ⟨hfits, hsound, hstored⟩ := stored_fileUpload hd hg hsend hupload
  have hrun : Stored d f (clientChunks chunkSize content)
      (gridRun d (fileUpload d env g chunkSize f content).1 ops) := by
    refine (foldl_invariant (fun g => g.Sound d dir ∧
      Stored d f (clientChunks chunkSize content) g) ?_ ⟨hsound, hstored⟩ hops).2
    rintro g op ⟨hg, hstored⟩ (hother | hfailed)
    · exact ⟨sound_gridStep hd.addressed hg op, stored_gridStep hd hfits hg hstored hother⟩
    · exact ⟨sound_gridStep hd.addressed hg op, stored_failedUpload hd hstored hfailed⟩
  have havail : Available d f (clientChunks chunkSize content)
      (gridRun d (fileUpload d env g chunkSize f content).1 ops) := by
    intro i hi
    obtain ⟨p, hp, hid⟩ := hrecorded i hi
    exact ⟨p, hp, hid, hservers p.server (hrun.replicas p hp).registered⟩
  rw [gridDownload_eq hd hfits hsend.nul hsend.name_length hrun havail hup schedule,
    clientChunks_flatten hsend.positive]

/-! ### A client that disconnects -/

def retryRequest : Bytes := ascii "UPLOAD f 2 2 x"

def retryParsed : UploadRequest where
  filename := ascii "f"
  fileSize := 2
  numChunks := 2
  fileHash := ascii "x"

/-- A client announces two chunks, sends the first one as it is stored, and disconnects. -/
def retryRun : List GridOp := [.client {} (retryRequest ++ ascii "\n") (chunkFrame 0 [65])]

set_option maxRecDepth 100000 in
lemma retry_facts :
    uploadedFile.2 = true ∧
      (gridUpload smallGrid {} uploadedFile.1 retryRequest (chunkFrame 0 [65])).2 ≠ success ∧
      (∀ i ∈ List.range 2,
        HasChunk (gridRun smallGrid uploadedFile.1 retryRun).metadata (ascii "f") i) ∧
      ∀ e ∈ smallGrid.registry.getAll, ∃ n ∈ [0, 1, 2],
        smallGrid.transferNode e.address = some n ∧
          ((gridRun smallGrid uploadedFile.1 retryRun).nodes n).running = true := by
  unfold HasChunk
  decide +kernel

set_option maxRecDepth 100000 in
lemma retry_received : ∀ c ∈ (retryParsed.received (chunkFrame 0 [65])).1,
    c.chunkId = 0 ∧ c.data = [65] := by
  decide +kernel

lemma retry_harmless : AlongRun (gridStep smallGrid) (fun g op => op.Other smallGrid (ascii "f") ∨
    op.FailedUpload smallGrid (ascii "f") (clientChunks 1 [65, 66]) g)
    uploadedFile.1 retryRun := by
  have hchunks : clientChunks 1 [65, 66] = [[65], [66]] := by decide
  refine ⟨Or.inr ⟨retryRequest, retryParsed, by decide +kernel, by decide +kernel, rfl,
    retry_facts.2.1, ?_, ?_⟩, trivial⟩
  · intro p _ i t hmeets _ k data hk hdata
    obtain ⟨c, hc, server, -, rfl⟩ := mem_pending.mp (List.mem_of_getElem? hmeets.pending)
    obtain ⟨hid, hdata'⟩ := retry_received c hc
    obtain rfl : k = 0 := by
      have hk : (k : Int) = 0 := hk.symm.trans hid
      omega
    rw [hchunks] at hdata
    exact hdata'.trans (Option.some.inj hdata)
  · rintro p _ us ⟨i, t, written, -, hfault, -⟩
    cases hfault

theorem stored_file_survives_attempts_instance :
    gridDownload smallGrid {} .inOrder (gridRun smallGrid uploadedFile.1 retryRun) (ascii "f") =
      some [65, 66] := by
  obtain ⟨hupload, -, hrecorded, hrun⟩ := retry_facts
  refine stored_file_survives_attempts smallGrid_deployed (sound_empty _ _) sendable_small hupload
    retry_harmless ?_ ?_ (fun _ => rfl) .inOrder
  · intro i hi
    exact hrecorded i (uploadedFile_chunks hi)
  · rintro a ⟨e, he, rfl⟩
    obtain ⟨n, -, hn, hrunning⟩ := hrun e he
    refine ⟨n, hn, ?_⟩
    rw [hrunning]

set_option maxRecDepth 100000 in
/-- The file `A` is stored; a client starts to upload another file under its name and disconnects
after the first chunk, `B`.  It gets no answer, all servers are up, and `A` is gone. -/
theorem failed_upload_destroys_file :
    let uploaded := fileUpload loneGrid {} (Grid.empty smallDir) 1 (ascii "f") [65]
    let attempt := gridUpload loneGrid {} uploaded.1 retryRequest (chunkFrame 0 [66])
    uploaded.2 = true ∧ attempt.2 = .closed ∧ (attempt.1.nodes 0).running = true ∧
      (attempt.1.metadata.placementsOf (ascii "f")).map (·.slot) = [(0, serverOne)] ∧
      gridDownload loneGrid {} .inOrder attempt.1 (ascii "f") = none := by
  decide +kernel

end FileGrid
