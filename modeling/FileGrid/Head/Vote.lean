import FileGrid.Head.Download

/-!
# The vote on a chunk's hash

What `stream_file_to_client` makes of the answers to its hash requests, whatever these are.  The
requests are jobs of a pool and the futures are read in the order of submission, so an answer
counts the same whenever it arrives.

* `votes` counts the replicas of a chunk that report a hash.  `majorityHash_spec`: the hash that is
  taken has the most votes, and of several that have, **the one that comes first as a string**.
* `PluralityPlan` is what a plan for a chunk should be.  `fetchPlans_cases` says that the loop over
  the chunks either makes such a plan for every one or stops at one without an answer.
* `DownloadAnswer` is what of that is sent, line by line, and **`download_plan_is_plurality`** says
  that it is.  A hash is sent as it was reported, so the lines are those that were meant only if no
  hash has a newline in it (`download_line_forged`).
* The checksum that the metadata has for a chunk takes no part in the vote.
  **`good_replica_planned_iff`** says when a replica that still has the right bytes prevails.
-/

namespace FileGrid

/-! ## The handler over any answers -/

/-- A `FetchHashResponse` with `success`. -/
structure HashResponse where
  hash : Bytes
  loadScore : ℚ := 0
  activeConnections : Int := 0
deriving DecidableEq

/-- What the head keeps of an answer: it is filed under the location that was asked. -/
def HashResponse.reply (loc : ChunkLocation) (a : HashResponse) : HashReply :=
  { location := loc, hash := a.hash, loadScore := a.loadScore
    activeConnections := a.activeConnections }

/-- A hash request that is answered as `respond` says, by its number in the order of submission. -/
def answering (respond : Nat → Option HashResponse) (_ : Unit) (i : Nat) (loc : ChunkLocation) :
    Unit × Option HashReply :=
  ((), (respond i).map (·.reply loc))

/-- The answers to the hash requests of a file, in the order of submission. -/
def repliesTo (respond : Nat → Option HashResponse) (locations : List ChunkLocation) :
    List HashReply :=
  ((hashJobs locations).mapIdx fun i loc => (respond i).map (·.reply loc)).filterMap id

/-- The distinct chunk identifiers of the locations, in increasing order. -/
def chunkIds (locations : List ChunkLocation) : List Int :=
  (chunkReplicas locations).toList.map (·.1)

lemma mem_chunkIds {locations : List ChunkLocation} {c : Int} :
    c ∈ chunkIds locations ↔ ∃ loc ∈ locations, loc.chunkId = c := by
  simp only [chunkIds, List.mem_map, Prod.exists, exists_and_right, exists_eq_right, chunkReplicas,
    Map.mem_toList_groupBy]
  constructor
  · rintro ⟨group, rfl, hne⟩
    obtain ⟨loc, hloc⟩ := List.exists_mem_of_ne_nil _ hne
    obtain ⟨hloc, hid⟩ := List.mem_filter.mp hloc
    exact ⟨loc, hloc, of_decide_eq_true hid⟩
  · rintro ⟨loc, hloc, hid⟩
    exact ⟨_, rfl, List.ne_nil_of_mem (List.mem_filter.mpr ⟨hloc, by simpa using hid⟩)⟩

lemma pairwise_chunkIds (locations : List ChunkLocation) :
    (chunkIds locations).Pairwise (· < ·) := by
  rw [chunkIds, List.pairwise_map]
  refine Std.ExtTreeMap.ordered_keys_toList.imp ?_
  intro a b hab
  exact Std.compare_eq_lt.mp hab

lemma location_of_mem_repliesTo {respond : Nat → Option HashResponse}
    {locations : List ChunkLocation} {r : HashReply} (hr : r ∈ repliesTo respond locations) :
    r.location ∈ locations := by
  simp only [repliesTo, List.mem_filterMap, List.mem_mapIdx, id_eq, exists_eq_right] at hr
  obtain ⟨i, hi, hreply⟩ := hr
  obtain ⟨a, -, rfl⟩ := Option.map_eq_some_iff.mp hreply
  exact mem_hashJobs.mp (List.getElem_mem hi)

/-- The requests are read in the order of submission, whichever was answered first. -/
lemma hashRepliesOn_answering (respond : Nat → Option HashResponse) (schedule : Schedule)
    (locations : List ChunkLocation) :
    (hashRepliesOn (answering respond) schedule () locations).2 = repliesTo respond locations := by
  have hresults : (runPool (answering respond) schedule (hashJobs locations) ()).2 =
      (hashJobs locations).mapIdx fun i loc => (respond i).map (·.reply loc) := by
    refine runPool_stateless ?_ schedule (hashJobs locations) ()
    intro s i loc
    rfl
  rw [hashRepliesOn, repliesTo, ← hresults]

/-! ## The vote -/

/-- The replicas of a chunk that report a hash. -/
def votes (replies : List HashReply) (c : Int) (hash : Bytes) : Nat :=
  (replies.filter fun r => r.location.chunkId = c ∧ r.hash = hash).length

lemma votes_eq (replies : List HashReply) (c : Int) (hash : Bytes) :
    votes replies c hash =
      ((replies.filter (·.location.chunkId = c)).filter (·.hash = hash)).length := by
  rw [votes, List.filter_filter]
  congr 1
  refine List.filter_congr fun r _ => ?_
  simp [Bool.and_comm]

/-- The hash that is taken has the most votes, and comes first among those that have as many. -/
lemma majorityHash_spec {replies : List HashReply} (hne : replies ≠ []) :
    let top := majorityHash (Map.groupBy (·.hash) replies)
    replies.filter (·.hash = top) ≠ [] ∧
      ∀ hash, (replies.filter (·.hash = hash)).length ≤ (replies.filter (·.hash = top)).length ∧
        ((replies.filter (·.hash = hash)).length = (replies.filter (·.hash = top)).length →
          hash ≠ top → compare top hash = .lt) := by
  intro top
  obtain ⟨r, hr⟩ := List.exists_mem_of_ne_nil _ hne
  have hgroup : ∀ {hash group}, (Map.groupBy (·.hash) replies)[hash]? = some group ↔
      group = replies.filter (·.hash = hash) ∧ group ≠ [] := by
    intro hash group
    rw [← Map.mem_toList, Map.mem_toList_groupBy]
  have hmine : r ∈ replies.filter (·.hash = r.hash) := List.mem_filter.mpr ⟨hr, by simp⟩
  obtain ⟨group, htop, hlargest⟩ := Map.scan_first_largest (Map.groupBy (·.hash) replies)
    List.length ([] : Bytes) ⟨r.hash, _, hgroup.mpr ⟨rfl, List.ne_nil_of_mem hmine⟩,
      List.length_pos_of_mem hmine⟩
  have hgroup' : group = replies.filter (·.hash = top) ∧ group ≠ [] := hgroup.mp htop
  obtain ⟨rfl, hsome⟩ := hgroup'
  refine ⟨hsome, fun hash => ?_⟩
  by_cases hnone : replies.filter (·.hash = hash) = []
  · rw [hnone]
    refine ⟨Nat.zero_le _, fun hzero => ?_⟩
    exact absurd (List.length_eq_zero_iff.mp hzero.symm) hsome
  · exact hlargest hash _ (hgroup.mpr ⟨rfl, hnone⟩)

/-- Servers are compared by their connections, and by their load where these are the same. -/
lemma strictWeak_lessLoaded : StrictWeak lessLoaded where
  asymm := by
    intro a b hab
    simp only [lessLoaded] at hab ⊢
    split_ifs at hab ⊢ with h h'
    · simp only [decide_eq_true_eq, decide_eq_false_iff_not, not_lt] at hab ⊢
      exact hab.le
    · exact absurd (not_not.mp h').symm h
    · rename_i hne
      exact absurd (not_not.mp h) (Ne.symm hne)
    · simp only [decide_eq_true_eq, decide_eq_false_iff_not, not_lt] at hab ⊢
      exact hab.le
  negTrans := by
    intro a b c hab hbc
    simp only [lessLoaded] at hab hbc ⊢
    split_ifs at hab hbc ⊢ <;> simp only [decide_eq_false_iff_not, not_lt] at hab hbc ⊢ <;>
      first | omega | exact hbc.trans hab

lemma lessLoaded_eq_false {a b : HashReply} : lessLoaded a b = false ↔
    b.activeConnections < a.activeConnections ∨
      (b.activeConnections = a.activeConnections ∧ b.loadScore ≤ a.loadScore) := by
  rw [lessLoaded]
  split_ifs with h
  · simp only [decide_eq_false_iff_not, not_lt]
    constructor
    · intro hle
      exact .inl (lt_of_le_of_ne hle (Ne.symm h))
    · rintro (hlt | ⟨heq, -⟩)
      · exact hlt.le
      · exact heq.le
  · have heq := not_not.mp h
    simp only [decide_eq_false_iff_not, not_lt]
    constructor
    · intro hle
      exact .inr ⟨heq.symm, hle⟩
    · rintro (hlt | ⟨-, hle⟩)
      · exact absurd heq hlt.ne'
      · exact hle

/-! ## The plans -/

/-- **What a plan should be**: a hash with a maximal number of votes, and a server that reported
this hash of the chunk and is the least busy of those. -/
structure PluralityPlan (replies : List HashReply) (p : ChunkFetchPlan) : Prop where
  most_votes : ∀ hash, votes replies p.chunkId hash ≤ votes replies p.chunkId p.majorityHash
  server : ∃ r ∈ replies, r.location = p.bestServer ∧ r.location.chunkId = p.chunkId ∧
    r.hash = p.majorityHash ∧
    ∀ r' ∈ replies, r'.location.chunkId = p.chunkId → r'.hash = p.majorityHash →
      r.activeConnections < r'.activeConnections ∨
        (r.activeConnections = r'.activeConnections ∧ r.loadScore ≤ r'.loadScore)

/-- The plan that the loop over the chunks makes for a chunk. -/
def planFor (sort : StdSort HashReply) (replies : List HashReply) (c : Int) :
    Option ChunkFetchPlan :=
  planChunk sort c (replies.filter (·.location.chunkId = c))

section

variable {replies : List HashReply} {c : Int}

lemma planFor_eq_none (sort : StdSort HashReply) (h : ∀ r ∈ replies, r.location.chunkId ≠ c) :
    planFor sort replies c = none := by
  have hnil : replies.filter (·.location.chunkId = c) = [] := by
    rw [List.filter_eq_nil_iff]
    intro r hr
    simpa using h r hr
  have hempty : ∀ top : Bytes, (Map.groupBy (·.hash) ([] : List HashReply))[top]? = none := by
    intro top
    rw [Map.get_groupBy]
    simp
  have hsort : sort.sort lessLoaded [] = [] := (sort.perm lessLoaded []).eq_nil
  simp only [planFor, planChunk, hnil, hempty, Option.getD_none, hsort]

/-- **A chunk with an answer gets a plan**: the first hash with the most votes, and the least busy
server that reported it. -/
theorem planFor_spec (sort : StdSort HashReply) (h : ∃ r ∈ replies, r.location.chunkId = c) :
    ∃ p, planFor sort replies c = some p ∧ p.chunkId = c ∧ PluralityPlan replies p ∧
      ∀ hash, votes replies c hash = votes replies c p.majorityHash → hash ≠ p.majorityHash →
        compare p.majorityHash hash = .lt := by
  obtain ⟨r₀, hr₀, hid₀⟩ := h
  have hne : replies.filter (·.location.chunkId = c) ≠ [] :=
    List.ne_nil_of_mem (List.mem_filter.mpr ⟨hr₀, by simpa using hid₀⟩)
  obtain ⟨hgroup, hmost⟩ := majorityHash_spec hne
  generalize htop : majorityHash (Map.groupBy (·.hash)
    (replies.filter (·.location.chunkId = c))) = top at hgroup hmost
  have hget : (Map.groupBy (·.hash) (replies.filter (·.location.chunkId = c)))[top]? =
      some ((replies.filter (·.location.chunkId = c)).filter (·.hash = top)) := by
    rw [Map.get_groupBy, if_neg hgroup]
  have hmem : ∀ r, r ∈ (replies.filter (·.location.chunkId = c)).filter (·.hash = top) ↔
      r ∈ replies ∧ r.location.chunkId = c ∧ r.hash = top := by
    intro r
    simp only [List.mem_filter, decide_eq_true_eq, and_assoc]
  generalize (replies.filter (·.location.chunkId = c)).filter (·.hash = top) = servers
    at hgroup hget hmem
  obtain ⟨best, rest, hsort⟩ : ∃ best rest, sort.sort lessLoaded servers = best :: rest := by
    refine List.exists_cons_of_ne_nil fun hnil => hgroup ?_
    have hperm := sort.perm lessLoaded servers
    rw [hnil] at hperm
    exact hperm.symm.eq_nil
  have hbest : best ∈ servers := sort.mem_sort.mp (by rw [hsort]; simp)
  obtain ⟨hreply, hid, hhash⟩ := (hmem best).mp hbest
  refine ⟨⟨c, best.location, top⟩, ?_, rfl, ⟨?_, best, hreply, rfl, hid, hhash, ?_⟩, ?_⟩
  · simp only [planFor, planChunk, htop, hget, Option.getD_some, hsort]
  · intro hash
    rw [votes_eq, votes_eq]
    exact (hmost hash).1
  · intro r' hr' hid' hhash'
    exact lessLoaded_eq_false.mp (sort.least_of_head strictWeak_lessLoaded hsort
      ((hmem r').mpr ⟨hr', hid', hhash'⟩))
  · intro hash hsame
    rw [votes_eq, votes_eq] at hsame
    exact (hmost hash).2 hsame

/-- **The loop over the chunks** makes a plan for every one of them, or stops at one that has no
answer. -/
theorem fetchPlans_cases (sort : StdSort HashReply) (replies : List HashReply) (cs : List Int) :
    (∃ c ∈ cs, (∀ r ∈ replies, r.location.chunkId ≠ c) ∧ fetchPlans sort replies cs = .error c) ∨
      ∃ plans, fetchPlans sort replies cs = .ok plans ∧ plans.map (·.chunkId) = cs ∧
        ∀ p ∈ plans, planFor sort replies p.chunkId = some p ∧ PluralityPlan replies p := by
  induction cs with
  | nil => exact .inr ⟨[], rfl, rfl, by simp⟩
  | cons c cs ih =>
      by_cases hsome : ∃ r ∈ replies, r.location.chunkId = c
      · obtain ⟨p, hplan, rfl, hp, -⟩ := planFor_spec sort hsome
        have hplan' : planChunk sort p.chunkId
            (replies.filter (·.location.chunkId = p.chunkId)) = some p := hplan
        rcases ih with ⟨c', hc', hnone, herror⟩ | ⟨plans, hok, hids, hplans⟩
        · refine .inl ⟨c', List.mem_cons_of_mem _ hc', hnone, ?_⟩
          rw [fetchPlans, hplan']
          simp only [herror]
          rfl
        · refine .inr ⟨p :: plans, ?_, by rw [List.map_cons, hids], fun q hq => ?_⟩
          · rw [fetchPlans, hplan']
            simp only [hok]
            rfl
          · rcases List.mem_cons.mp hq with rfl | hq
            · exact ⟨hplan, hp⟩
            · exact hplans q hq
      · have hnone : ∀ r ∈ replies, r.location.chunkId ≠ c := by
          intro r hr hid
          exact hsome ⟨r, hr, hid⟩
        have hplan : planChunk sort c (replies.filter (·.location.chunkId = c)) = none :=
          planFor_eq_none sort hnone
        refine .inl ⟨c, List.mem_cons_self, hnone, ?_⟩
        rw [fetchPlans, hplan]

end

/-! ## What is sent -/

def chunksLine (chunks : Nat) : Bytes := ascii "CHUNKS " ++ natDec chunks

/-- One plan for every chunk of the file, in increasing order, each of them for a replica that the
metadata has. -/
structure CompletePlans (locations : List ChunkLocation) (replies : List HashReply)
    (plans : List ChunkFetchPlan) : Prop where
  increasing : (plans.map (·.chunkId)).Pairwise (· < ·)
  every_chunk : ∀ c, c ∈ plans.map (·.chunkId) ↔ ∃ loc ∈ locations, loc.chunkId = c
  plurality : ∀ p ∈ plans, PluralityPlan replies p
  replica : ∀ p ∈ plans, p.bestServer ∈ locations

/-- How an answer to a download can look, line by line, and the plans that are in it: the file has
no chunks; some chunk has no answer, and there is an error and no plan; or there is a plan for every
chunk. -/
inductive DownloadAnswer (d : Deployment) (locations : List ChunkLocation) (fileHash : Bytes)
    (replies : List HashReply) : List Bytes → List ChunkFetchPlan → Prop
  | noChunks : locations = [] → DownloadAnswer d locations fileHash replies
      (if fileHash ≠ [] then [fileHashLine fileHash, ascii "EOF"]
        else [ascii "ERROR: No chunks found for file"]) []
  | unverified (c : Int) : (∃ loc ∈ locations, loc.chunkId = c) →
      (∀ r ∈ replies, r.location.chunkId ≠ c) → DownloadAnswer d locations fileHash replies
      [fileHashLine fileHash, chunksLine (chunkIds locations).length,
        ascii "ERROR: Could not verify hashes for chunk " ++ dec c] []
  | planned (plans : List ChunkFetchPlan) : locations ≠ [] → CompletePlans locations replies plans →
      DownloadAnswer d locations fileHash replies
        (fileHashLine fileHash :: chunksLine plans.length :: plans.map (chunkLocLine d) ++
          [fileHashLine fileHash, ascii "EOF"]) plans

/-- The lines that name a server. -/
def chunkLocLines (text : List Bytes) : List Bytes := text.filter (ascii "CHUNK_LOC " <+: ·)

section

variable {d : Deployment} {locations : List ChunkLocation} {fileHash : Bytes}
  {replies : List HashReply} {text : List Bytes} {plans : List ChunkFetchPlan}

/-- **There is one line for each plan.** -/
lemma DownloadAnswer.chunkLocLines_eq (h : DownloadAnswer d locations fileHash replies text plans) :
    chunkLocLines text = plans.map (chunkLocLine d) := by
  have hhash : ¬ascii "CHUNK_LOC " <+: fileHashLine fileHash := by
    simp [fileHashLine, ascii]
  have hcount : ∀ n, ¬ascii "CHUNK_LOC " <+: chunksLine n := by
    intro n
    simp [chunksLine, ascii]
  have heof : ¬ascii "CHUNK_LOC " <+: ascii "EOF" := by decide
  cases h with
  | noChunks => split_ifs <;> simp [chunkLocLines, hhash, heof]; decide
  | unverified c => simp [chunkLocLines, hhash, hcount]; simp [ascii]
  | planned plans _ _ =>
      have hplans : (plans.map (chunkLocLine d)).filter (ascii "CHUNK_LOC " <+: ·) =
          plans.map (chunkLocLine d) := by
        refine List.filter_eq_self.mpr fun line hline => ?_
        obtain ⟨p, -, rfl⟩ := List.mem_map.mp hline
        simp [chunkLocLine]
      rw [chunkLocLines, List.cons_append, List.filter_cons_of_neg (by simpa using hhash),
        List.cons_append, List.filter_cons_of_neg (by simpa using hcount _), List.filter_append,
        hplans]
      simp [hhash, heof]

/-- No text that goes into the answer has a newline in it. -/
structure NoNewlines (locations : List ChunkLocation) (fileHash : Bytes)
    (replies : List HashReply) : Prop where
  fileHash : (10 : UInt8) ∉ fileHash
  servers : ∀ loc ∈ locations, (10 : UInt8) ∉ loc.serverIp
  hashes : ∀ r ∈ replies, (10 : UInt8) ∉ r.hash

lemma DownloadAnswer.newline_not_mem (h : DownloadAnswer d locations fileHash replies text plans)
    (hplain : NoNewlines locations fileHash replies) : ∀ line ∈ text, (10 : UInt8) ∉ line := by
  have htexts : (10 : UInt8) ∉ ascii "FILE_HASH " ∧ (10 : UInt8) ∉ ascii "CHUNKS " ∧
      (10 : UInt8) ∉ ascii "CHUNK_LOC " ∧ (10 : UInt8) ∉ ascii "EOF" ∧
      (10 : UInt8) ∉ ascii "ERROR: No chunks found for file" ∧
      (10 : UInt8) ∉ ascii "ERROR: Could not verify hashes for chunk " := by decide +kernel
  obtain ⟨hhashTag, hcountTag, hlocTag, heof, hnone, herror⟩ := htexts
  have hhash : (10 : UInt8) ∉ fileHashLine fileHash := by
    simp [fileHashLine, hhashTag, hplain.fileHash]
  have hcount : ∀ n, (10 : UInt8) ∉ chunksLine n := by
    intro n
    have hnum := (word_dec (n : Int)).not_mem_newline
    rw [dec_natCast] at hnum
    simp [chunksLine, hcountTag, hnum]
  cases h with
  | noChunks =>
      split_ifs
      · simp [hhash, heof]
      · simp [hnone]
  | unverified c => simp [hhash, hcount, herror, (word_dec c).not_mem_newline]
  | planned plans _ hplans =>
      have hline : ∀ p ∈ plans, (10 : UInt8) ∉ chunkLocLine d p := by
        intro p hp
        obtain ⟨r, hr, -, -, hsame, -⟩ := (hplans.plurality p hp).server
        have hserver : (10 : UInt8) ∉ p.bestServer.serverIp.takeWhile (· ≠ colon) := fun hmem =>
          hplain.servers _ (hplans.replica p hp) (List.takeWhile_sublist _ |>.subset hmem)
        have hsum : (10 : UInt8) ∉ p.majorityHash := hsame ▸ hplain.hashes r hr
        simp only [chunkLocLine, List.mem_append, List.mem_cons, not_or]
        exact ⟨hlocTag, (word_dec _).not_mem_newline, by decide, hserver, by decide,
          (word_dec _).not_mem_newline, by decide, hsum⟩
      simp only [List.cons_append, List.mem_cons, List.mem_append, List.mem_map]
      rintro line (rfl | rfl | ⟨p, hp, rfl⟩ | rfl | rfl | hnil)
      · exact hhash
      · exact hcount _
      · exact hline p hp
      · exact hhash
      · exact heof
      · cases hnil

end

/-- What is sent, with the order of the requests gone. -/
lemma streamFileToClientOn_answering (d : Deployment) (schedule : Schedule)
    (sort : StdSort HashReply) (respond : Nat → Option HashResponse) (m : MetadataMap)
    (filename : Bytes) :
    (streamFileToClientOn (answering respond) d schedule sort () m filename).2 =
      let locations := (getChunkLocations m filename).1
      let fileHash := (getChunkLocations m filename).2
      let text : List Bytes :=
        if locations = [] then
          if fileHash ≠ [] then [fileHashLine fileHash, ascii "EOF"]
          else [ascii "ERROR: No chunks found for file"]
        else
          fileHashLine fileHash :: chunksLine (chunkIds locations).length ::
            match fetchPlans sort (repliesTo respond locations) (chunkIds locations) with
            | .error c => [ascii "ERROR: Could not verify hashes for chunk " ++ dec c]
            | .ok plans => plans.map (chunkLocLine d) ++ [fileHashLine fileHash, ascii "EOF"]
      text.flatMap (· ++ [10]) := by
  have heof : ascii "EOF" ++ [10] = ascii "EOF\n" := by decide
  have hnone : ascii "ERROR: No chunks found for file" ++ [10] =
    ascii "ERROR: No chunks found for file\n" := by decide +kernel
  rw [streamFileToClientOn]
  dsimp only
  split_ifs
  · simp [heof]
  · simp [hnone]
  · rw [hashRepliesOn_answering, ← chunkIds]
    cases fetchPlans sort (repliesTo respond (getChunkLocations m filename).1)
      (chunkIds (getChunkLocations m filename).1) with
    | error c => simp [chunksLine, ascii]
    | ok plans => simp [chunksLine, heof, List.flatMap_map]

/-- **Planning a download is a plurality vote**, whatever the replicas answer.  The text that is
sent is made of the lines of a `DownloadAnswer`, one `CHUNK_LOC` line for each plan; if neither the
metadata nor a reported hash has a newline in it, these are the lines of the text.  The order in
which the replicas answer makes no difference, not even to how a tie is resolved. -/
theorem download_plan_is_plurality (d : Deployment) (sort : StdSort HashReply)
    (respond : Nat → Option HashResponse) (m : MetadataMap) (filename : Bytes)
    (schedule : Schedule) :
    let locations := (getChunkLocations m filename).1
    let fileHash := (getChunkLocations m filename).2
    let replies := repliesTo respond locations
    let sent := fun schedule =>
      (streamFileToClientOn (answering respond) d schedule sort () m filename).2
    (∃ text plans, DownloadAnswer d locations fileHash replies text plans ∧
      sent schedule = text.flatMap (· ++ [10]) ∧
      (NoNewlines locations fileHash replies → lines (sent schedule) = text ∧
        chunkLocLines (lines (sent schedule)) = plans.map (chunkLocLine d))) ∧
      ∀ schedule', sent schedule' = sent schedule := by
  intro locations fileHash replies sent
  have hsent : ∀ schedule, sent schedule = _ := fun schedule =>
    streamFileToClientOn_answering d schedule sort respond m filename
  refine ⟨?_, fun schedule' => (hsent schedule').trans (hsent schedule).symm⟩
  -- which of the three answers it is; the lines are read off it
  have hanswer : ∃ text plans, DownloadAnswer d locations fileHash replies text plans ∧
      sent schedule = text.flatMap (· ++ [10]) := by
    rw [hsent]
    dsimp only
    by_cases hnil : locations = []
    · rw [if_pos hnil]
      exact ⟨_, _, .noChunks hnil, rfl⟩
    · rw [if_neg hnil]
      rcases fetchPlans_cases sort replies (chunkIds locations) with
        ⟨c, hc, hnone, herror⟩ | ⟨plans, hok, hids, hplans⟩
      · rw [herror]
        exact ⟨_, _, .unverified c (mem_chunkIds.mp hc) hnone, rfl⟩
      · have hlength : (chunkIds locations).length = plans.length := by
          rw [← hids, List.length_map]
        rw [hok, hlength]
        refine ⟨_, plans, .planned plans hnil ⟨?_, fun c => ?_, fun p hp => (hplans p hp).2,
          fun p hp => ?_⟩, rfl⟩
        · rw [hids]
          exact pairwise_chunkIds locations
        · rw [hids]
          exact mem_chunkIds
        · obtain ⟨r, hr, hloc, -⟩ := (hplans p hp).2.server
          rw [← hloc]
          exact location_of_mem_repliesTo hr
  obtain ⟨text, plans, hanswer, htext⟩ := hanswer
  refine ⟨text, plans, hanswer, htext, fun hplain => ?_⟩
  have hlines : lines (sent schedule) = text := by
    rw [htext, lines_flatMap (hanswer.newline_not_mem hplain)]
  exact ⟨hlines, by rw [hlines, hanswer.chunkLocLines_eq]⟩

/-- A file of one chunk with a replica on each server. -/
def replicasOn (servers : List Bytes) : MetadataMap :=
  let replica (server : Bytes) : ChunkInfo :=
    { chunkId := 0, serverIp := server, filePath := ascii "/c/x.dat", size := 1
      checksum := ascii "good" }
  storeMetadata ∅ (ascii "f") (servers.map replica) (ascii "h") 2

/-- No server is registered. -/
def nobodyRegistered : Deployment :=
  { net := { transferAt := fun _ _ => none, publicAt := fun _ _ => none, baseAt := fun _ _ => none }
    registry := {} }

/-- **A reported hash forges a line.**  It is copied into the answer as it is, so a newline in it
begins another `CHUNK_LOC` line, for a chunk that the file does not have and a server that nobody
knows. -/
theorem download_line_forged :
    let respond : Nat → Option HashResponse := fun _ =>
      some { hash := ascii "good\nCHUNK_LOC 7 6.6.6.6 80 bad" }
    let locations := (getChunkLocations (replicasOn [ascii "a:1"]) (ascii "f")).1
    chunkIds locations = [0] ∧
      chunkLocLines (lines (streamFileToClientOn (answering respond) nobodyRegistered
        .inOrder (.insertion HashReply) () (replicasOn [ascii "a:1"]) (ascii "f")).2) =
        [ascii "CHUNK_LOC 0 a 8080 good", ascii "CHUNK_LOC 7 6.6.6.6 80 bad"] := by
  decide +kernel

/-! ## The recorded checksum -/

/-- The metadata has a record of a chunk with a checksum, and one of the replicas that answer
reports this checksum. -/
structure GoodReplica (m : MetadataMap) (filename : Bytes) (replies : List HashReply)
    (record : Placement) : Prop where
  recorded : record ∈ m.placementsOf filename
  reported : ∃ r ∈ replies, r.location.chunkId = record.location.chunkId ∧
    r.hash = record.checksum

/-- The plan for the chunk is for the recorded checksum and for a replica that reports it.  The
plan is the one that the loop makes for the chunk; if all chunks have one, it is sent
(`fetchPlans_cases`). -/
def GoodPlan (sort : StdSort HashReply) (replies : List HashReply) (record : Placement) : Prop :=
  ∃ p, planFor sort replies record.location.chunkId = some p ∧ p.majorityHash = record.checksum ∧
    ∃ r ∈ replies, r.location = p.bestServer ∧ r.location.chunkId = record.location.chunkId ∧
      r.hash = record.checksum

/-- **When a good replica prevails**: no other hash has more votes, and none that has as many comes
before the checksum as a string. -/
theorem good_replica_planned_iff (sort : StdSort HashReply) {m : MetadataMap} {filename : Bytes}
    {respond : Nat → Option HashResponse} {record : Placement}
    (h : GoodReplica m filename (repliesTo respond (getChunkLocations m filename).1) record) :
    GoodPlan sort (repliesTo respond (getChunkLocations m filename).1) record ↔
      ∀ hash, hash ≠ record.checksum →
        let votesFor := votes (repliesTo respond (getChunkLocations m filename).1)
          record.location.chunkId
        votesFor hash < votesFor record.checksum ∨
          (votesFor hash = votesFor record.checksum ∧ compare record.checksum hash = .lt) := by
  generalize repliesTo respond (getChunkLocations m filename).1 = replies at h
  obtain ⟨r₀, hr₀, hid₀, -⟩ := h.reported
  obtain ⟨p, hplan, hid, hp, htie⟩ := planFor_spec sort ⟨r₀, hr₀, hid₀⟩
  have hmost := hp.most_votes
  rw [hid] at hmost
  constructor
  · rintro ⟨p', hplan', hhash, -⟩ hash hne
    obtain rfl : p = p' := Option.some.inj (hplan.symm.trans hplan')
    rw [hhash] at hmost htie
    rcases (hmost hash).lt_or_eq with hlt | heq
    · exact .inl hlt
    · exact .inr ⟨heq, htie hash heq hne⟩
  · intro hbest
    have hhash : p.majorityHash = record.checksum := by
      by_contra hne
      rcases hbest p.majorityHash hne with hlt | ⟨heq, hbefore⟩
      · exact absurd (hmost record.checksum) (not_le.mpr hlt)
      · -- each of the two would come before the other
        have hafter := htie record.checksum heq.symm (Ne.symm hne)
        have hswap : compare p.majorityHash record.checksum =
            (compare record.checksum p.majorityHash).swap := Std.OrientedCmp.eq_swap
        rw [hswap, hbefore] at hafter
        cases hafter
    obtain ⟨r, hr, hloc, hchunk, hsame, -⟩ := hp.server
    exact ⟨p, hplan, hhash, r, hr, hloc, hchunk.trans hid, hsame.trans hhash⟩

/-- The first record of the chunk of `replicasOn`. -/
def firstReplica : Placement :=
  { chunkId := 0, server := ascii "a:1", path := ascii "/c/x.dat", checksum := ascii "good" }

/-- The second replica reports something else, the others the checksum. -/
def secondBad (i : Nat) : Option HashResponse :=
  some { hash := if i = 1 then ascii "bad" else ascii "good" }

/-- What the head keeps of the answer of a replica on this server. -/
def replyOf (server hash : Bytes) : HashReply :=
  { location := { firstReplica.location with serverIp := server }, hash, loadScore := 0
    activeConnections := 0 }

/-- Two good replicas prevail over a bad one. -/
theorem good_replica_planned_contested :
    let replies := repliesTo secondBad
      (getChunkLocations (replicasOn [ascii "a:1", ascii "b:1", ascii "c:1"]) (ascii "f")).1
    votes replies 0 (ascii "bad") = 1 ∧ GoodPlan (.insertion HashReply) replies firstReplica := by
  intro replies
  have hreplies : replies = [replyOf (ascii "a:1") (ascii "good"),
      replyOf (ascii "b:1") (ascii "bad"), replyOf (ascii "c:1") (ascii "good")] := by
    decide +kernel
  have hgood : GoodReplica (replicasOn [ascii "a:1", ascii "b:1", ascii "c:1"]) (ascii "f")
      replies firstReplica := by
    rw [hreplies]
    exact ⟨by decide +kernel, _, List.mem_cons_self, rfl, rfl⟩
  refine ⟨by decide +kernel,
    (good_replica_planned_iff (.insertion HashReply) hgood).mpr fun hash hne => .inl ?_⟩
  have hother : ¬ascii "good" = hash := Ne.symm hne
  change votes replies 0 hash < votes replies 0 (ascii "good")
  rw [hreplies, votes, votes]
  by_cases hbad : ascii "bad" = hash
  · subst hbad
    decide +kernel
  · have hid : wrap32 0 = 0 := by decide
    simp [replyOf, hother, hbad, firstReplica, Placement.location, hid]

/-- **A good replica is outvoted by a single bad one**, because `bad` comes before `good`. -/
theorem good_replica_outvoted :
    let file := replicasOn [ascii "a:1", ascii "b:1"]
    let replies := repliesTo secondBad (getChunkLocations file (ascii "f")).1
    GoodReplica file (ascii "f") replies firstReplica ∧
      planFor (.insertion HashReply) replies 0 = some
        { chunkId := 0, majorityHash := ascii "bad"
          bestServer := { firstReplica.location with serverIp := ascii "b:1" } } ∧
      ¬GoodPlan (.insertion HashReply) replies firstReplica := by
  intro file replies
  have hreplies : replies = [replyOf (ascii "a:1") (ascii "good"),
      replyOf (ascii "b:1") (ascii "bad")] := by
    decide +kernel
  have hplan : planFor (.insertion HashReply) replies 0 = some
      { chunkId := 0, majorityHash := ascii "bad"
        bestServer := { firstReplica.location with serverIp := ascii "b:1" } } := by
    decide +kernel
  refine ⟨⟨by decide +kernel, ?_⟩, hplan, ?_⟩
  · rw [hreplies]
    exact ⟨_, List.mem_cons_self, rfl, rfl⟩
  · rintro ⟨p, hp, hhash, -⟩
    obtain rfl := Option.some.inj (hplan.symm.trans hp)
    exact absurd hhash (by decide)

end FileGrid
