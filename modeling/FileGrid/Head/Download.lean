import FileGrid.Grid.Links

/-!
# Planning a download

`stream_file_to_client`: the head asks every recorded replica of every chunk for the hash of what it
holds, takes for each chunk the hash reported most often, and sends the client a `CHUNK_LOC` line
naming the least loaded server that reported it.

The hash requests are jobs of a pool, so they take effect in any order, and each of them may make a
node remember a path it had forgotten; `hashReplies` therefore returns the nodes as well.  The vote
itself is pure: `fetchPlans`, of which `planChunk_unanimous` settles the case of replicas that
agree.
-/

namespace FileGrid

structure ChunkLocation where
  chunkId : Int
  serverIp : Bytes
  filePath : Bytes
deriving DecidableEq

/-- The chunk identifier is cast to an `int`. -/
def Placement.location (p : Placement) : ChunkLocation :=
  { chunkId := wrap32 p.chunkId, serverIp := p.server, filePath := p.path }

/-- `get_chunk_locations_from_metadata`. -/
def getChunkLocations (m : MetadataMap) (filename : Bytes) : List ChunkLocation × Bytes :=
  let record := m.queryMetadata filename
  (record.placements.map (·.location), record.fileHash)

/-- `ServerInfo`, with the hash it is filed under. -/
structure HashReply where
  location : ChunkLocation
  hash : Bytes
  loadScore : ℚ
  activeConnections : Int
deriving DecidableEq

/-- How the hash requests go: their order, the links, what the nodes report of their load, and the
order `std::sort` leaves open. -/
structure DownloadEnv where
  schedule : Schedule := .inOrder
  link : Nat → Link := fun _ => .up
  loadScore : Nat → ℚ := fun _ => 0
  activeConnections : Nat → Int := fun _ => 0
  sort : StdSort HashReply := .insertion HashReply

/-- `chunk_replicas`. -/
def chunkReplicas (locations : List ChunkLocation) : Map Int (List ChunkLocation) :=
  Map.groupBy (·.chunkId) locations

/-- The hash requests, in the order they are submitted. -/
def hashJobs (locations : List ChunkLocation) : List ChunkLocation :=
  (chunkReplicas locations).toList.flatMap (·.2)

lemma mem_hashJobs {locations : List ChunkLocation} {loc : ChunkLocation} :
    loc ∈ hashJobs locations ↔ loc ∈ locations := by
  simp only [hashJobs, chunkReplicas, List.mem_flatMap, Prod.exists, Map.mem_toList_groupBy]
  constructor
  · rintro ⟨c, group, ⟨rfl, -⟩, hloc⟩
    exact List.mem_of_mem_filter hloc
  · intro hloc
    have hmem : loc ∈ locations.filter (·.chunkId = loc.chunkId) :=
      List.mem_filter.mpr ⟨hloc, by simp⟩
    exact ⟨loc.chunkId, _, ⟨rfl, List.ne_nil_of_mem hmem⟩, hmem⟩

/-- One hash request, and the reply if the node has the chunk. -/
def hashJob (d : Deployment) (env : DownloadEnv) (filename : Bytes) (nodes : Nodes) (i : Nat)
    (loc : ChunkLocation) : Nodes × Option HashReply :=
  let (nodes, hash) := getChunkHash d nodes (env.link i) loc.serverIp filename loc.chunkId
    loc.filePath
  (nodes, hash.map fun hash =>
    { location := loc, hash, loadScore := env.loadScore i
      activeConnections := env.activeConnections i })

/-- All the hash requests of a download, whatever the jobs do. -/
def hashRepliesOn {σ : Type} (job : σ → Nat → ChunkLocation → σ × Option HashReply)
    (schedule : Schedule) (s : σ) (locations : List ChunkLocation) : σ × List HashReply :=
  let (s, results) := runPool job schedule (hashJobs locations) s
  (s, results.filterMap id)

def hashReplies (d : Deployment) (env : DownloadEnv) (nodes : Nodes) (filename : Bytes)
    (locations : List ChunkLocation) : Nodes × List HashReply :=
  hashRepliesOn (hashJob d env filename) env.schedule nodes locations

/-! ## The vote -/

structure ChunkFetchPlan where
  chunkId : Int
  bestServer : ChunkLocation
  majorityHash : Bytes
deriving DecidableEq

/-- The first hash, in the order of the map, with the largest count. -/
def majorityHash (hashToServers : Map Bytes (List HashReply)) : Bytes :=
  (hashToServers.toList.foldl (fun (best : Bytes × Nat) p =>
    if best.2 < p.2.length then (p.1, p.2.length) else best) ([], 0)).1

/-- The order among the servers of the majority. -/
def lessLoaded (a b : HashReply) : Bool :=
  if a.activeConnections ≠ b.activeConnections then a.activeConnections < b.activeConnections
  else a.loadScore < b.loadScore

/-- The plan for one chunk, from the replies of its replicas; `none` if there are none. -/
def planChunk (sort : StdSort HashReply) (chunkId : Int) (replies : List HashReply) :
    Option ChunkFetchPlan :=
  let hashToServers := Map.groupBy (·.hash) replies
  let hash := majorityHash hashToServers
  match sort.sort lessLoaded ((hashToServers[hash]?).getD []) with
  | [] => none
  | best :: _ => some { chunkId, bestServer := best.location, majorityHash := hash }

/-- The plans of all chunks, or the first chunk that has no verified hash. -/
def fetchPlans (sort : StdSort HashReply) (replies : List HashReply) :
    List Int → Except Int (List ChunkFetchPlan)
  | [] => .ok []
  | c :: cs =>
      match planChunk sort c (replies.filter (·.location.chunkId = c)) with
      | none => .error c
      | some p => (fetchPlans sort replies cs).map (p :: ·)

/-! ## What the client is sent -/

def Deployment.publicPort (d : Deployment) (server : Bytes) : Int :=
  match d.entryOf server with
  | some s => s.publicPort
  | none => 8080

/-- The `CHUNK_LOC` line of a plan, without its newline. -/
def chunkLocLine (d : Deployment) (p : ChunkFetchPlan) : Bytes :=
  let server := p.bestServer.serverIp
  ascii "CHUNK_LOC " ++ (dec p.chunkId ++ 32 :: (server.takeWhile (· ≠ colon) ++
    32 :: (dec (d.publicPort server) ++ 32 :: p.majorityHash)))

def fileHashLine (fileHash : Bytes) : Bytes := ascii "FILE_HASH " ++ fileHash

/-- `stream_file_to_client` with any jobs for its hash requests: what they leave, and the text that
is sent. -/
def streamFileToClientOn {σ : Type} (job : σ → Nat → ChunkLocation → σ × Option HashReply)
    (d : Deployment) (schedule : Schedule) (sort : StdSort HashReply) (s : σ) (m : MetadataMap)
    (filename : Bytes) : σ × Bytes :=
  let (locations, fileHash) := getChunkLocations m filename
  if locations = [] then
    (s,
      if fileHash ≠ [] then fileHashLine fileHash ++ 10 :: ascii "EOF\n"
      else ascii "ERROR: No chunks found for file\n")
  else
    let chunks := (chunkReplicas locations).toList.map (·.1)
    let (s, replies) := hashRepliesOn job schedule s locations
    let header := fileHashLine fileHash ++ 10 :: (ascii "CHUNKS " ++ natDec chunks.length ++ [10])
    match fetchPlans sort replies chunks with
    | .error c =>
        (s, header ++ ascii "ERROR: Could not verify hashes for chunk " ++ dec c ++ ascii "\n")
    | .ok plans =>
        (s, header ++ (plans.flatMap fun p => chunkLocLine d p ++ [10]) ++
          (fileHashLine fileHash ++ 10 :: ascii "EOF\n"))

/-- `stream_file_to_client`: the nodes afterwards, and the text that is sent. -/
def streamFileToClient (d : Deployment) (env : DownloadEnv) (nodes : Nodes) (m : MetadataMap)
    (filename : Bytes) : Nodes × Bytes :=
  streamFileToClientOn (hashJob d env filename) d env.schedule env.sort nodes m filename

/-! ## Replicas that agree -/

lemma majorityHash_unanimous {replies : List HashReply} {hash : Bytes} (hne : replies ≠ [])
    (h : ∀ r ∈ replies, r.hash = hash) : majorityHash (Map.groupBy (·.hash) replies) = hash := by
  have hall : replies.filter (·.hash = hash) = replies :=
    List.filter_eq_self.mpr fun r hr => by simp [h r hr]
  have hmem : ∀ p, p ∈ (Map.groupBy (·.hash) replies).toList ↔ p = (hash, replies) := by
    rintro ⟨k, group⟩
    rw [Map.mem_toList_groupBy]
    constructor
    · rintro ⟨rfl, hgroup⟩
      obtain ⟨r, hr⟩ := List.exists_mem_of_ne_nil _ hgroup
      obtain ⟨hr, hk⟩ := List.mem_filter.mp hr
      obtain rfl : k = hash := (of_decide_eq_true hk).symm.trans (h r hr)
      rw [hall]
    · rintro h
      cases h
      exact ⟨hall.symm, hne⟩
  -- the map has this one entry
  have hlist : (Map.groupBy (·.hash) replies).toList = [(hash, replies)] := by
    have hnodup : (Map.groupBy (·.hash) replies).toList.Nodup :=
      List.Nodup.of_map _ (Map.nodup_keys_toList _)
    have hperm : (Map.groupBy (·.hash) replies).toList.Perm [(hash, replies)] :=
      (List.perm_ext_iff_of_nodup hnodup (List.nodup_singleton _)).mpr fun p => by
        rw [hmem, List.mem_singleton]
    exact List.perm_singleton.mp hperm
  have hpos : 0 < replies.length := List.length_pos_iff.mpr hne
  simp [majorityHash, hlist, hpos]

/-- **Replicas that agree are believed**, and one of them is chosen. -/
theorem planChunk_unanimous (sort : StdSort HashReply) (c : Int) {replies : List HashReply}
    {hash : Bytes} (hne : replies ≠ []) (h : ∀ r ∈ replies, r.hash = hash) :
    ∃ r ∈ replies, planChunk sort c replies =
      some { chunkId := c, bestServer := r.location, majorityHash := hash } := by
  have hall : replies.filter (·.hash = hash) = replies :=
    List.filter_eq_self.mpr fun r hr => by simp [h r hr]
  have hget : (Map.groupBy (·.hash) replies)[hash]? = some replies := by
    rw [Map.get_groupBy, hall, if_neg hne]
  have hperm := sort.perm lessLoaded replies
  obtain ⟨best, rest, hsort⟩ : ∃ best rest, sort.sort lessLoaded replies = best :: rest := by
    refine List.exists_cons_of_ne_nil ?_
    intro hnil
    rw [hnil] at hperm
    exact hne hperm.symm.eq_nil
  refine ⟨best, hperm.mem_iff.mp (by rw [hsort]; simp), ?_⟩
  simp only [planChunk, majorityHash_unanimous hne h, hget, Option.getD_some, hsort]

/-- If the replicas of every chunk agree, every chunk gets a plan for one of its replicas. -/
lemma fetchPlans_unanimous (sort : StdSort HashReply) {replies : List HashReply}
    {hash : Int → Bytes} {cs : List Int}
    (hne : ∀ c ∈ cs, ∃ r ∈ replies, r.location.chunkId = c)
    (h : ∀ r ∈ replies, r.hash = hash r.location.chunkId) :
    ∃ plans, fetchPlans sort replies cs = .ok plans ∧ plans.map (·.chunkId) = cs ∧
      ∀ p ∈ plans, p.majorityHash = hash p.chunkId ∧
        ∃ r ∈ replies, r.location = p.bestServer ∧ r.location.chunkId = p.chunkId := by
  induction cs with
  | nil => exact ⟨[], rfl, rfl, by simp⟩
  | cons c cs ih =>
      obtain ⟨plans, hplans, hids, hall⟩ := ih fun c' hc' => hne c' (List.mem_cons_of_mem _ hc')
      have hreplies : replies.filter (·.location.chunkId = c) ≠ [] := by
        obtain ⟨r, hr, hrc⟩ := hne c List.mem_cons_self
        exact List.ne_nil_of_mem (List.mem_filter.mpr ⟨hr, by simpa using hrc⟩)
      have hagree : ∀ r ∈ replies.filter (·.location.chunkId = c), r.hash = hash c := by
        intro r hr
        obtain ⟨hr, hrc⟩ := List.mem_filter.mp hr
        rw [h r hr, of_decide_eq_true hrc]
      obtain ⟨best, hbest, hplan⟩ := planChunk_unanimous sort c hreplies hagree
      obtain ⟨hbest, hbc⟩ := List.mem_filter.mp hbest
      refine ⟨_ :: plans, by simp only [fetchPlans, hplan, hplans]; rfl, by simp [hids], ?_⟩
      intro p hp
      rcases List.mem_cons.mp hp with rfl | hp
      · exact ⟨rfl, best, hbest, rfl, of_decide_eq_true hbc⟩
      · exact hall p hp

end FileGrid
