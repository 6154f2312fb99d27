import FileGrid.Failover.Copies
import FileGrid.Grid.Replicas

/-!
# Durability

A file that was uploaded is what a download of it returns, whatever happened in between to other
files and to the servers, as long as each of its chunks still has a recorded replica on a server
that is running.

The argument has three parts.  An upload that succeeds leaves the file stored, and every step that
is none of the file's keeps it so (`stored_fileUpload`, `stored_gridStep`).  A download of a stored
file asks every recorded replica for its hash, which makes each running node remember where the
chunk is (`hashReplies_spec`); the replicas agree, so the plan names one of them for each chunk.
The client finds the chunk there by the registry alone and puts the chunks together
(`gridDownload_eq`).

The servers have to be registered by numeric addresses.  The head resolves the name of a server,
the client does not: a file stored on a server that was registered by name is accepted and cannot be
downloaded (`download_fails_by_name`).
-/

namespace FileGrid

open Node (Holds)

/-! ## The hash requests of a download -/

/-- The node of the server runs, and finds the chunk without being told where it is. -/
def Remembers (d : Deployment) (f : Bytes) (nodes : Nodes) (loc : ChunkLocation) : Prop :=
  ∃ n q, d.transferNode loc.serverIp = some n ∧ (nodes n).running = true ∧
    (nodes n).chunkRegistry[chunkKey f loc.chunkId]? = some q

/-- The server of a location runs. -/
def Runs (d : Deployment) (nodes : Nodes) (server : Bytes) : Prop :=
  ∃ n, d.transferNode server = some n ∧ (nodes n).running = true

section

variable {d : Deployment} {dir : Nat → Bytes} {f : Bytes} {parts : List Bytes} {nodes : Nodes}
  {env : DownloadEnv}

lemma Fits.location_chunkId (hfits : Fits f parts) {p : Placement} {i : Nat} {data : Bytes}
    (hid : p.chunkId = i) (hdata : parts[i]? = some data) : p.location.chunkId = i := by
  rw [show p.location.chunkId = wrap32 p.chunkId from rfl, hid, hfits.wrap32_eq hdata]

/-- What a hash request does to the nodes: at most one of them retrieves the chunk. -/
lemma hashJob_cases (d : Deployment) (env : DownloadEnv) (f : Bytes) (nodes : Nodes) (k : Nat)
    (loc : ChunkLocation) :
    hashJob d env f nodes k loc = (nodes, none) ∨
      ∃ n, d.transferNode loc.serverIp = some n ∧ (nodes n).running = true ∧
        (hashJob d env f nodes k loc).1 = Function.update nodes n
          ((nodes n).retrieveChunk (chunkKey f loc.chunkId) loc.filePath).1 ∧
        ∀ reply, (hashJob d env f nodes k loc).2 = some reply → reply.location = loc ∧
          reply.hash = sha256
            ((nodes n).retrieveChunk (chunkKey f loc.chunkId) loc.filePath).2 := by
  unfold hashJob getChunkHash
  dsimp only
  rcases request_cases nodes (d.transferNode loc.serverIp) (env.link k) fun node =>
      node.retrieveChunk (chunkKey f loc.chunkId) loc.filePath with
    heq | ⟨n, hn, hrun, heq, hresp⟩
  · rw [heq]
    exact Or.inl rfl
  · refine Or.inr ⟨n, hn, hrun, heq, fun reply hreply => ?_⟩
    rcases hresp with hresp | hresp
    · rw [hresp] at hreply
      cases hreply
    · rw [hresp, Option.bind_some] at hreply
      split_ifs at hreply
      · cases hreply
        exact ⟨rfl, rfl⟩
      · cases hreply

/-- A node that is asked for a hash goes on running, and forgets nothing. -/
lemma hashJob_node (d : Deployment) (env : DownloadEnv) (f : Bytes) (nodes : Nodes) (k : Nat)
    (loc : ChunkLocation) (n : Nat) :
    ((hashJob d env f nodes k loc).1 n).running = (nodes n).running ∧
      ∀ key q : Bytes, (nodes n).chunkRegistry[key]? = some q →
        ((hashJob d env f nodes k loc).1 n).chunkRegistry[key]? = some q := by
  rcases hashJob_cases d env f nodes k loc with heq | ⟨m, -, -, heq, -⟩
  · rw [heq]
    exact ⟨rfl, fun _ _ h => h⟩
  · rw [heq]
    by_cases hnm : n = m
    · subst hnm
      rw [Function.update_self]
      exact ⟨Node.running_retrieveChunk _ _ _, fun key q h => Node.registry_retrieveChunk _ _ h⟩
    · rw [Function.update_of_ne hnm]
      exact ⟨rfl, fun _ _ h => h⟩

lemma Remembers.hashJob {loc : ChunkLocation} (h : Remembers d f nodes loc) (k : Nat)
    (loc' : ChunkLocation) : Remembers d f (FileGrid.hashJob d env f nodes k loc').1 loc := by
  obtain ⟨n, q, hn, hrun, hq⟩ := h
  obtain ⟨hrunning, hregistry⟩ := hashJob_node d env f nodes k loc' n
  exact ⟨n, q, hn, hrunning.trans hrun, hregistry _ q hq⟩

/-- The answer of a replica: the hash of the chunk, and the node then remembers the chunk. -/
lemma Replica.hashJob (env : DownloadEnv) (hfits : Fits f parts) {p : Placement}
    (h : Replica d f parts nodes p) (k : Nat) :
    (∀ reply, (FileGrid.hashJob d env f nodes k p.location).2 = some reply →
      reply.location = p.location ∧
      reply.hash = sha256 ((parts[p.location.chunkId.toNat]?).getD []) ∧
      Remembers d f (FileGrid.hashJob d env f nodes k p.location).1 p.location) ∧
    (env.link k = .up → Runs d nodes p.server →
      ((FileGrid.hashJob d env f nodes k p.location).2).isSome) := by
  obtain ⟨i, data, n, hid, hdata, hn, hholds⟩ := h.held
  have hchunk : p.location.chunkId = i := hfits.location_chunkId hid hdata
  have hretrieve := hholds.retrieveChunk_eq
  constructor
  · intro reply hreply
    rcases hashJob_cases d env f nodes k p.location with
      heq | ⟨m, hm, hrun, heq, hhash⟩
    · rw [heq] at hreply
      cases hreply
    · obtain rfl : n = m := Option.some.inj (hn.symm.trans hm)
      obtain ⟨hloc, hsum⟩ := hhash reply hreply
      rw [hchunk] at hsum heq ⊢
      refine ⟨hloc, ?_, ?_⟩
      · rw [hsum, show p.location.filePath = p.path from rfl, hretrieve, Int.toNat_natCast, hdata]
        rfl
      · obtain ⟨q, hq⟩ := hholds.registered
        refine ⟨n, q, hn, ?_, ?_⟩
        · rw [heq, Function.update_self, Node.running_retrieveChunk]
          exact hrun
        · rw [heq, hchunk, Function.update_self]
          exact hq
  · rintro hup ⟨m, hm, hrun⟩
    obtain rfl : n = m := Option.some.inj (hn.symm.trans hm)
    have hne : data ≠ [] := hfits.nonempty data (List.mem_of_getElem? hdata)
    have hreq := request_up hn hrun fun node =>
      node.retrieveChunk (chunkKey f i) p.path
    unfold FileGrid.hashJob getChunkHash
    dsimp only
    rw [hup, hchunk, show p.location.serverIp = p.server from rfl,
      show p.location.filePath = p.path from rfl, hreq, Option.bind_some, hretrieve, if_pos hne]
    rfl

/-- **What the hash requests of a download bring about.**  Every reply is the hash of the chunk and
comes from a node that remembers the chunk from then on, and every running replica replies. -/
theorem hashReplies_spec (hfits : Fits f parts) {m : MetadataMap}
    (hreplicas : ∀ p ∈ m.placementsOf f, Replica d f parts nodes p)
    (hup : ∀ k, env.link k = .up) {nodes' : Nodes} {replies : List HashReply}
    (h : hashReplies d env nodes f (getChunkLocations m f).1 = (nodes', replies)) :
    (∀ p ∈ m.placementsOf f, Replica d f parts nodes' p) ∧
    (∀ r ∈ replies, r.location ∈ (getChunkLocations m f).1 ∧
      r.hash = sha256 ((parts[r.location.chunkId.toNat]?).getD []) ∧
      Remembers d f nodes' r.location) ∧
    (∀ loc ∈ (getChunkLocations m f).1, Runs d nodes loc.serverIp →
      ∃ r ∈ replies, r.location = loc) := by
  obtain ⟨rfl, rfl⟩ := Prod.mk.inj h
  obtain ⟨⟨hkept, -⟩, hpost⟩ := @runPool_rule _ _ _ (hashJob d env f) env.schedule
    (hashJobs (getChunkLocations m f).1) nodes
    (fun s => (∀ p ∈ m.placementsOf f, Replica d f parts s p) ∧
      ∀ n, (s n).running = (nodes n).running)
    (fun s _ loc outcome => (∀ reply, outcome = some reply → reply.location = loc ∧
        reply.hash = sha256 ((parts[loc.chunkId.toNat]?).getD []) ∧ Remembers d f s loc) ∧
      (Runs d nodes loc.serverIp → outcome.isSome))
    ⟨hreplicas, fun _ => rfl⟩
    (by
      rintro s k loc hloc ⟨hreps, hrunning⟩
      obtain ⟨p, hp, rfl⟩ := mem_getChunkLocations (mem_hashJobs.mp (List.mem_of_getElem? hloc))
      obtain ⟨hreply, hanswers⟩ := (hreps p hp).hashJob env hfits k
      refine ⟨⟨fun q hq => ?_, fun n => ?_⟩, hreply, fun hruns => hanswers (hup k) ?_⟩
      · exact (hreps p hp).retrieve hfits (hreps q hq) (env.link k)
      · exact (hashJob_node d env f s k p.location n).1.trans (hrunning n)
      · obtain ⟨n, hn, hrun⟩ := hruns
        exact ⟨n, hn, (hrunning n).trans hrun⟩)
    (by
      rintro s k loc k' loc' outcome - - - - ⟨hreply, hanswers⟩
      refine ⟨fun reply hr => ?_, hanswers⟩
      obtain ⟨hloc, hhash, hremembers⟩ := hreply reply hr
      exact ⟨hloc, hhash, hremembers.hashJob k loc⟩)
  refine ⟨hkept, fun r hr => ?_, fun loc hloc hruns => ?_⟩
  · obtain ⟨outcome, hmem, hsome⟩ := List.mem_filterMap.mp hr
    obtain rfl : outcome = some r := hsome
    obtain ⟨k, hk⟩ := List.mem_iff_getElem?.mp hmem
    obtain ⟨loc, hloc⟩ := exists_job_of_result hk
    obtain ⟨outcome, hget, hreply, -⟩ := hpost k loc hloc
    obtain rfl : some r = outcome := Option.some.inj (hk.symm.trans hget)
    obtain ⟨hrloc, hhash, hremembers⟩ := hreply r rfl
    rw [hrloc]
    exact ⟨mem_hashJobs.mp (List.mem_of_getElem? hloc), hhash, hremembers⟩
  · obtain ⟨k, hk⟩ := List.mem_iff_getElem?.mp (mem_hashJobs.mpr hloc)
    obtain ⟨outcome, hget, hreply, hanswers⟩ := hpost k loc hk
    obtain ⟨r, hr⟩ := Option.isSome_iff_exists.mp (hanswers hruns)
    subst hr
    exact ⟨r, List.mem_filterMap.mpr ⟨some r, List.mem_of_getElem? hget, rfl⟩,
      (hreply r rfl).1⟩

/-! ## The client -/

/-- The line of a plan for a replica that is remembered leads the client to the chunk. -/
lemma fetchChunk_plan (hd : Deployed d dir) (hfits : Fits f parts) {p : Placement}
    (hp : Replica d f parts nodes p) (hremembers : Remembers d f nodes p.location)
    {plan : ChunkFetchPlan} (hbest : plan.bestServer = p.location)
    (hchunk : plan.chunkId = p.location.chunkId)
    (hhash : plan.majorityHash = sha256 ((parts[plan.chunkId.toNat]?).getD [])) :
    plan.Printable d ∧ fetchChunk d.net nodes f (plan.loc d) =
      some ((parts[(plan.loc d).id.toNat]?).getD []) := by
  obtain ⟨i, data, n, hid, hdata, hn, hholds⟩ := hp.held
  obtain ⟨n', q, hn', hrun, hq⟩ := hremembers
  obtain rfl : n = n' := Option.some.inj (hn.symm.trans hn')
  have hloc : p.location.chunkId = i := hfits.location_chunkId hid hdata
  have hserver : plan.bestServer.serverIp = p.server := by rw [hbest]; rfl
  have hsum : plan.majorityHash = sha256 data := by
    rw [hhash, hchunk, hloc, Int.toNat_natCast, hdata]
    rfl
  obtain ⟨hlt, -⟩ := List.getElem?_eq_some_iff.mp hdata
  have hcount := hfits.count
  -- the server the plan names, and the node a client finds there
  obtain ⟨e, he, haddr⟩ := hp.registered
  have hreal := hd.real e he
  obtain ⟨ip, k, hip, hk, hpublic⟩ := hd.reached he
  obtain rfl : n = k := by rw [haddr] at hk; exact Option.some.inj (hn.symm.trans hk)
  have hhost : p.server.takeWhile (· ≠ colon) = e.host := by
    have hform : e.address = e.host ++ colon :: dec e.port := by
      simp [ServerEntry.address, addressOf, ascii, colon]
    rw [← haddr, hform, List.takeWhile_append_of_pos, List.takeWhile_cons_of_neg, List.append_nil]
    · simp
    · intro b hb
      simpa using fun h : b = colon => hreal.host_word.2 (h ▸ hb)
  have hport : d.publicPort p.server = e.publicPort := by
    rw [← haddr]
    simp only [Deployment.publicPort, hd.entryOf_eq he]
  refine ⟨⟨?_, ?_, ?_, ?_, ?_, ?_⟩, ?_⟩
  · rw [hchunk, hloc]; omega
  · rw [hchunk, hloc]; omega
  · rw [hserver, hhost]; exact hreal.host_word.1
  · rw [hserver, hport]; have := hreal.publicPort; omega
  · rw [hserver, hport]; have := hreal.publicPort; omega
  · rw [hsum]; exact word_sha256 data
  · have hidloc : (plan.loc d).id = i := hchunk.trans hloc
    rw [hidloc, Int.toNat_natCast, hdata, Option.getD_some]
    rw [hloc] at hq
    have hloc_ip : inetPton (plan.loc d).ip = some ip := by
      rw [show (plan.loc d).ip = plan.bestServer.serverIp.takeWhile (· ≠ colon) from rfl, hserver,
        hhost]
      exact hip
    have hloc_port : d.net.publicAt ip (htons (plan.loc d).port) = some n := by
      rw [show (plan.loc d).port = d.publicPort plan.bestServer.serverIp from rfl, hserver, hport]
      exact hpublic
    exact fetchChunk_eq hloc_ip hloc_port hrun hfits.name (by rw [hidloc]; exact hfits.lines i hlt)
      (by rw [hidloc]; exact hq) (hholds.served q hq).1
      (hfits.nonempty data (List.mem_of_getElem? hdata)) (hfits.data_length hdata) hsum.symm

/-! ## A download of a stored file -/

/-- Every chunk has a recorded replica on a server that runs. -/
def Available (d : Deployment) (f : Bytes) (parts : List Bytes) (g : Grid) : Prop :=
  ∀ i : Nat, i < parts.length →
    ∃ p ∈ g.metadata.placementsOf f, p.chunkId = i ∧ Runs d g.nodes p.server

variable {g : Grid}

lemma chunkIds_perm (hfits : Fits f parts) (hstored : Stored d f parts g)
    (havail : Available d f parts g) :
    (((chunkReplicas ((g.metadata.placementsOf f).map (·.location))).toList.map (·.1))).Perm
      ((List.range parts.length).map fun i : Nat => (i : Int)) := by
  refine (List.perm_ext_iff_of_nodup (Map.nodup_keys_toList _)
    (List.nodup_range.map fun _ _ h => Int.ofNat_inj.mp h)).mpr fun c => ?_
  simp only [List.mem_map, Prod.exists, exists_and_right, exists_eq_right, chunkReplicas,
    Map.mem_toList_groupBy, List.mem_range]
  have hloc : ∀ p ∈ g.metadata.placementsOf f, ∃ i : Nat, i < parts.length ∧ p.chunkId = i ∧
      p.location.chunkId = i := by
    intro p hp
    obtain ⟨i, data, -, hid, hdata, -⟩ := (hstored.replicas p hp).held
    exact ⟨i, (List.getElem?_eq_some_iff.mp hdata).1, hid, hfits.location_chunkId hid hdata⟩
  constructor
  · rintro ⟨group, rfl, hne⟩
    obtain ⟨loc, hmem⟩ := List.exists_mem_of_ne_nil _ hne
    obtain ⟨hmem, hc⟩ := List.mem_filter.mp hmem
    obtain ⟨p, hp, rfl⟩ := List.mem_map.mp hmem
    obtain ⟨i, hi, -, hpi⟩ := hloc p hp
    exact ⟨i, hi, hpi.symm.trans (of_decide_eq_true hc)⟩
  · rintro ⟨i, hi, rfl⟩
    obtain ⟨p, hp, hid, -⟩ := havail i hi
    obtain ⟨j, -, hj, hpj⟩ := hloc p hp
    refine ⟨_, rfl, List.ne_nil_of_mem (List.mem_filter.mpr ⟨List.mem_map_of_mem hp, ?_⟩)⟩
    simpa using hpj.trans (hj.symm.trans hid)

lemma parts_eq_nil_of_available (havail : Available d f parts g)
    (hnone : (g.metadata.placementsOf f).map (·.location) = []) : parts = [] := by
  by_contra hne
  obtain ⟨p, hp, -⟩ := havail 0 (List.length_pos_iff.mpr hne)
  rw [List.map_eq_nil_iff.mp hnone] at hp
  exact absurd hp List.not_mem_nil

/-- Every chunk has a reply, if the servers that run reply. -/
lemma exists_reply_of_available (hfits : Fits f parts) (hstored : Stored d f parts g)
    (havail : Available d f parts g) {replies : List HashReply}
    (hanswer : ∀ loc ∈ (g.metadata.placementsOf f).map (·.location), Runs d g.nodes loc.serverIp →
      ∃ r ∈ replies, r.location = loc) {c : Int}
    (hc : c ∈ (chunkReplicas ((g.metadata.placementsOf f).map (·.location))).toList.map (·.1)) :
    ∃ r ∈ replies, r.location.chunkId = c := by
  have hids := chunkIds_perm hfits hstored havail
  obtain ⟨i, hi, rfl⟩ := List.mem_map.mp (hids.mem_iff.mp hc)
  obtain ⟨p, hp, hid, hruns⟩ := havail i (List.mem_range.mp hi)
  obtain ⟨r, hr, hrloc⟩ := hanswer p.location (List.mem_map_of_mem hp) hruns
  obtain ⟨j, data, -, hj, hdata, -⟩ := (hstored.replicas p hp).held
  obtain rfl : i = j := Int.ofNat_inj.mp (hid.symm.trans hj)
  refine ⟨r, hr, ?_⟩
  rw [hrloc]
  exact hfits.location_chunkId hid hdata

/-- **A stored file is downloaded as it is**, if each of its chunks has a replica that runs. -/
theorem gridDownload_eq (hd : Deployed d dir) (hfits : Fits f parts) (hnul : (0 : UInt8) ∉ f)
    (hlen : f.length ≤ 1013) (hstored : Stored d f parts g) (havail : Available d f parts g)
    (hup : ∀ k, env.link k = .up) (schedule : Schedule) :
    gridDownload d env schedule g f = some parts.flatten := by
  have hids := chunkIds_perm hfits hstored havail
  have hhash := (word_sha256 parts.flatten).not_mem_newline
  have hloc := getChunkLocations_eq (m := g.metadata) hfits.name.1
  rw [hstored.hash, Option.getD_some] at hloc
  unfold gridDownload
  rw [clientRequest_download hfits.name hnul hlen]
  dsimp only
  unfold streamFileToClient streamFileToClientOn
  dsimp only
  by_cases hnil : (getChunkLocations g.metadata f).1 = []
  · have hparts : parts = [] := by
      rw [hloc] at hnil
      exact parts_eq_nil_of_available havail hnil
    rw [if_pos hnil, if_pos (by rw [hloc]; exact (word_sha256 _).1), hloc]
    refine fileDownload_eq schedule hfits.count (readPlan_end hhash [] []) ?_ ?_
    · simp [hparts]
    · simp
  · rw [if_neg hnil]
    obtain ⟨nodes', replies, hreplies⟩ : ∃ nodes' replies, hashReplies d env g.nodes f
        (getChunkLocations g.metadata f).1 = (nodes', replies) := ⟨_, _, rfl⟩
    obtain ⟨hkept, hreply, hanswer⟩ := hashReplies_spec hfits hstored.replicas hup hreplies
    rw [show hashRepliesOn (hashJob d env f) env.schedule g.nodes _ = _ from hreplies]
    dsimp only
    -- the replicas of each chunk agree
    obtain ⟨plans, hplans, hplanIds, hplan⟩ := @fetchPlans_unanimous env.sort replies
      (fun c => sha256 ((parts[c.toNat]?).getD []))
      ((chunkReplicas (getChunkLocations g.metadata f).1).toList.map (·.1))
      (by
        rw [hloc] at hanswer ⊢
        exact fun c hc => exists_reply_of_available hfits hstored havail hanswer hc)
      fun r hr => (hreply r hr).2.1
    rw [hplans]
    have hfetch : ∀ pl ∈ plans, pl.Printable d ∧ fetchChunk d.net nodes' f (pl.loc d) =
        some ((parts[(pl.loc d).id.toNat]?).getD []) := by
      intro pl hpl
      obtain ⟨hsum, r, hr, hbest, hchunk⟩ := hplan pl hpl
      obtain ⟨hrloc, -, hremembers⟩ := hreply r hr
      obtain ⟨p, hp, hrp⟩ := mem_getChunkLocations hrloc
      rw [hrp] at hbest hchunk hremembers
      exact fetchChunk_plan hd hfits (hkept p hp) hremembers hbest.symm hchunk.symm hsum
    have hlocs : (plans.map (·.loc d)).map (·.id) = plans.map (·.chunkId) := by
      rw [List.map_map]
      rfl
    dsimp only
    rw [hloc]
    refine fileDownload_eq schedule hfits.count
      (readPlan_downloadText (fun pl hpl => (hfetch pl hpl).1) hhash _) ?_ ?_
    · rw [hlocs, hplanIds, hloc]
      exact hids
    · intro c hc
      obtain ⟨pl, hpl, rfl⟩ := List.mem_map.mp hc
      exact (hfetch pl hpl).2

end

/-! ## Runs -/

lemma Sendable.name_length {chunkSize : Nat} {f content : Bytes}
    (h : Sendable chunkSize f content) : f.length ≤ 1013 := by
  have hrequest := h.request
  have h6 : (ascii "UPLOAD").length = 6 := rfl
  simp only [uploadRequest, List.length_append, List.length_cons] at hrequest
  omega

/-- **An uploaded file survives.**  If an upload ends in `SUCCESS`, then after any run of other
operations, crashes, restarts and failovers that leaves every chunk a recorded replica on a running
server, a download returns the bytes that were uploaded. -/
theorem uploaded_file_survives {d : Deployment} {dir : Nat → Bytes} (hd : Deployed d dir) {g : Grid}
    (hg : g.Sound d dir) {chunkSize : Nat} {f content : Bytes}
    (hsend : Sendable chunkSize f content) {env : RequestEnv}
    (hupload : (fileUpload d env g chunkSize f content).2 = true)
    {ops : List GridOp} (hops : ∀ op ∈ ops, op.Other d f)
    (havail : Available d f (clientChunks chunkSize content)
      (gridRun d (fileUpload d env g chunkSize f content).1 ops))
    {denv : DownloadEnv} (hup : ∀ k, denv.link k = .up) (schedule : Schedule) :
    gridDownload d denv schedule (gridRun d (fileUpload d env g chunkSize f content).1 ops) f =
      some content := by
  obtain ⟨hfits, hsound, hstored⟩ := stored_fileUpload hd hg hsend hupload
  have hrun : (gridRun d (fileUpload d env g chunkSize f content).1 ops).Sound d dir ∧
      Stored d f (clientChunks chunkSize content)
        (gridRun d (fileUpload d env g chunkSize f content).1 ops) := by
    refine List.foldlRecOn (motive := fun g => g.Sound d dir ∧
      Stored d f (clientChunks chunkSize content) g) ops _ ⟨hsound, hstored⟩ ?_
    rintro g ⟨hg, hstored⟩ op hop
    exact ⟨sound_gridStep hd.addressed hg op, stored_gridStep hd hfits hg hstored (hops op hop)⟩
  rw [gridDownload_eq hd hfits hsend.nul hsend.name_length hrun.2 havail hup schedule,
    clientChunks_flatten hsend.positive]

/-! ### Three servers -/

def smallDir : Nat → Bytes := fun _ => ascii "/var/cluster_storage/"

lemma smallGrid_deployed : Deployed smallGrid smallDir := by
  have hreal : ∀ e ∈ smallGrid.registry.getAll, (0 : UInt8) ∉ e.host ∧
      (0 < e.port ∧ e.port < 2 ^ 16) ∧ 0 < e.transferPort ∧
      (0 < e.publicPort ∧ e.publicPort < 2 ^ 16) ∧
      ((inetPton e.host).bind fun ip =>
        smallGrid.net.transferAt ip (htons e.transferPort)).isSome ∧
      ((inetPton e.host).bind fun ip => smallGrid.net.transferAt ip (htons e.transferPort)) =
        (inetPton e.host).bind fun ip => smallGrid.net.publicAt ip (htons e.publicPort) := by
    decide +kernel
  have hown : ∀ e ∈ smallGrid.registry.getAll, ∀ e' ∈ smallGrid.registry.getAll,
      smallGrid.transferNode e.address = smallGrid.transferNode e'.address →
        e.address = e'.address := by decide +kernel
  have hdir : ∀ b ∈ ascii "/var/cluster_storage/", isSpace b = false := noSpace_iff.mp (by decide)
  refine ⟨by decide +kernel, by decide +kernel, fun e he => ?_, ?_, fun _ => hdir⟩
  · obtain ⟨hnul, hport, htransfer, hpublic, hsome, heq⟩ := hreal e he
    refine ⟨hnul, hport, htransfer, hpublic, ?_⟩
    obtain ⟨n, hn⟩ := Option.isSome_iff_exists.mp hsome
    rw [hn] at heq
    obtain ⟨ip, hip, hn⟩ := Option.bind_eq_some_iff.mp hn
    rw [hip, Option.bind_some] at heq
    exact ⟨ip, n, hip, hn, heq.symm⟩
  · rintro a b ⟨e, he, rfl⟩ ⟨e', he', rfl⟩ hnode
    exact hown e he e' he' hnode

set_option maxRecDepth 100000 in
lemma sendable_small : Sendable 1 (ascii "f") [65, 66] := by
  have hchunks : clientChunks 1 [65, 66] = [[65], [66]] := by decide
  refine ⟨by decide, by decide, by decide, by decide +kernel, ?_, ?_⟩
  · rw [hchunks]
    decide
  · intro i data hi
    rw [hchunks] at hi
    rcases i with - | - | i
    · cases hi
      decide +kernel
    · cases hi
      decide +kernel
    · simp at hi

/-- The file `AB`, uploaded to three servers in two chunks. -/
abbrev uploadedFile : Grid × Bool :=
  fileUpload smallGrid {} (Grid.empty smallDir) 1 (ascii "f") [65, 66]

lemma uploadedFile_chunks {i : Nat} (hi : i < (clientChunks 1 [65, 66]).length) :
    i ∈ List.range 2 := by
  have hchunks : (clientChunks 1 [65, 66]).length = 2 := by decide
  rwa [hchunks, ← List.mem_range] at hi

/-- One of the servers restarts, another dies and is failed over. -/
def smallRun : List GridOp := [.restart 1, .crash 0, .failover (fun _ => {}) {} serverOne]

set_option maxRecDepth 100000 in
lemma smallRun_stored :
    uploadedFile.2 = true ∧
      (∀ i ∈ List.range 2, ∃ p ∈ (gridRun smallGrid uploadedFile.1 smallRun).metadata.placementsOf
        (ascii "f"), p.chunkId = i ∧ smallGrid.transferNode p.server = some 1) ∧
      ((gridRun smallGrid uploadedFile.1 smallRun).nodes 1).running = true := by
  decide +kernel

theorem uploaded_file_survives_instance :
    gridDownload smallGrid {} .inOrder (gridRun smallGrid uploadedFile.1 smallRun) (ascii "f") =
      some [65, 66] := by
  obtain ⟨hupload, hstored, hrun⟩ := smallRun_stored
  refine uploaded_file_survives smallGrid_deployed (sound_empty _ _) sendable_small hupload ?_ ?_
    (fun _ => rfl) .inOrder
  · simp [smallRun, GridOp.Other]
  · intro i hi
    obtain ⟨p, hp, hid, hn⟩ := hstored i (uploadedFile_chunks hi)
    refine ⟨p, hp, hid, 1, hn, ?_⟩
    rw [hrun]

/-! ### A server that is registered by name -/

/-- One server, `node-1`, which the name service knows. -/
def namedGrid : Deployment where
  net := { smallNetwork with
    gethostbyname := fun name => if name = ascii "node-1" then some [10, 0, 0, 1] else none }
  registry := (ServerRegistry.addServer {} (ascii "node-1") 8080 8180 8280).2

set_option maxRecDepth 100000 in
/-- The server has its real ports, the file is accepted and its one chunk is recorded on the
server, which runs; and the file cannot be downloaded. -/
theorem download_fails_by_name :
    let g := (fileUpload namedGrid {} (Grid.empty smallDir) 1 (ascii "f") [65])
    (∀ e ∈ namedGrid.registry.getAll,
      ((namedGrid.net.resolve e.host).bind fun ip =>
        namedGrid.net.transferAt ip (htons e.transferPort)) = some 0 ∧
      ((namedGrid.net.resolve e.host).bind fun ip =>
        namedGrid.net.publicAt ip (htons e.publicPort)) = some 0) ∧
    g.2 = true ∧
    (∃ p ∈ g.1.metadata.placementsOf (ascii "f"), p.chunkId = 0 ∧
      namedGrid.transferNode p.server = some 0) ∧
    (g.1.nodes 0).running = true ∧
    gridDownload namedGrid {} .inOrder g.1 (ascii "f") = none := by
  decide +kernel

end FileGrid
