import FileGrid.Common.HealthMonitor
import FileGrid.Common.NetUtils
import FileGrid.Common.Sha256
import FileGrid.Core.Pieces
import FileGrid.Core.Unordered
import FileGrid.Metadata.Request

/-!
# Receiving an upload

`handle_client_upload` and the `FileChunker` behind it.  The client announces a file, then sends
its chunks one by one; each chunk that arrives intact is handed to a pool of transfers, one for each
server selected for it, and when the stream has ended the replicas that were stored are committed
as the metadata of the file.

The transfers are a parameter, `run`: it takes the pending transfers to the path each one reports,
if it succeeds.  They run whether or not the upload is accepted in the end.

`upload_success_iff` says when the handler answers `SUCCESS`, and with it
`upload_stores_chunks_iff` when that answer can be trusted.  The one check the handler makes of the
transfers is that *some* replica of *some* chunk was stored; a chunk all of whose transfers failed
is missing from the metadata of a file that was accepted (`upload_loses_chunk`).
-/

namespace FileGrid

/-! ## Where the chunks go -/

/-- What an upload depends on besides the client: the registry and the health monitor of the head,
its configuration, and the order `std::sort` leaves open. -/
structure UploadEnv where
  registry : ServerRegistry
  health : HealthMonitor := {}
  configured : List Bytes := []
  replicationFactor : Int := 3
  chunkSize : Nat := 64 * 1024 * 1024
  sort : StdSort Bytes := .insertion Bytes

namespace UploadEnv

/-- `load_cluster_servers`: the configured servers, or three defaults. -/
def clusterServers (env : UploadEnv) : List Bytes :=
  if env.configured = [] then
    [ascii "127.0.0.1:8080", ascii "127.0.0.1:8081", ascii "127.0.0.1:8082"]
  else env.configured

/-- A health record is about this server. -/
def describes (h : ServerHealth) (srv : Bytes) : Bool := h.ip = (parseAddress srv).1 ∨ h.ip = srv

/-- The first health record of a server, if there is one, decides. -/
def isCandidate (env : UploadEnv) (srv : Bytes) : Bool :=
  match env.health.getAllHealth.find? (describes · srv) with
  | none => true
  | some h => h.isHealthy

/-- The last health record of a server decides. -/
def diskUsage (env : UploadEnv) (srv : Bytes) : ℚ :=
  ((env.health.getAllHealth.filter (describes · srv)).getLast?.map (·.diskUsage)).getD 100

/-- `select_servers_for_chunk`. -/
def selectServersForChunk (env : UploadEnv) : List Bytes :=
  let registered := env.registry.getAddresses
  let servers := if registered = [] then env.clusterServers else registered
  let healthy := servers.filter env.isCandidate
  let candidates := if healthy ≠ [] then healthy else servers
  (env.sort.sort (fun a b => env.diskUsage a < env.diskUsage b) candidates).take
    env.replicationFactor.toNat

end UploadEnv

/-! ## The stream -/

/-- How the handler ends: the process dies of an uncaught exception, the connection is closed
without an answer, or there is an answer. -/
inductive UploadEnd
  | crashed
  | closed
  | reply (text : Bytes)
deriving DecidableEq

def success : UploadEnd := .reply (ascii "SUCCESS\n")

structure UploadRequest where
  filename : Bytes
  fileSize : Nat
  numChunks : Nat
  fileHash : Bytes
deriving DecidableEq

/-- The number of chunks of a legacy request; `none` is a division by zero. -/
def legacyNumChunks (chunkSize fileSize : Nat) : Option Nat :=
  if fileSize = 0 then some 0
  else if chunkSize = 0 then none
  else some ((fileSize + chunkSize - 1) % 2 ^ 64 / chunkSize)

/-- The request line, in its present and in its legacy form. -/
def parseUploadRequest (chunkSize : Nat) (initialReq : Bytes) : Except UploadEnd UploadRequest :=
  let invalid : UploadEnd := .reply (ascii "ERROR: Invalid upload request format. Expected: " ++
    ascii "UPLOAD <filename> <size> [chunks] <sha256>\n")
  let orCrash (r : Option UploadRequest) := r.elim (Except.error UploadEnd.crashed) .ok
  match words initialReq with
  | [cmd, filename, size, fileHash] =>
      if cmd ≠ ascii "UPLOAD" then .error invalid
      else orCrash do
        let fileSize ← stoull size
        let numChunks ← legacyNumChunks chunkSize fileSize
        return { filename, fileSize, numChunks, fileHash }
  | cmd :: filename :: size :: chunks :: fileHash :: _ =>
      if cmd ≠ ascii "UPLOAD" then .error invalid
      else orCrash do
        let fileSize ← stoull size
        let numChunks ← stoull chunks
        return { filename, fileSize, numChunks, fileHash }
  | _ => .error invalid

/-- A chunk that arrived intact; `checksum` is its SHA-256. -/
structure ReceivedChunk where
  chunkId : Int
  data : Bytes
  checksum : Bytes
deriving DecidableEq

/-- `>> chunk_id >> chunk_size >> client_chunk_hash`. -/
def parseChunkHeader (s : Bytes) : Option (Int × Nat × Bytes) := do
  let (chunkId, rest) ← readI32 s
  let (chunkSize, rest) ← readU64 rest
  let (hash, _) ← readWord rest
  return (chunkId, chunkSize, hash)

/-- One round of the receiving loop: the chunk that arrived, or how the loop ends, with `none` if
the handler goes on after it; and what is left to read.  The end of the stream is the end of the
connection.  `allocates` says which sizes of a `std::vector` there is memory for. -/
def receiveRound {σ : Type} (src : Source σ) (allocates : Nat → Bool) (s : σ) :
    Except (Option UploadEnd) ReceivedChunk × σ :=
  let (line, s) := src.readLine s
  if line = [] then (.error (some .closed), s)
  else if ascii "CHUNK " <+: line then
    match parseChunkHeader (line.drop 6) with
    | none =>
        (.error (some (.reply (ascii "ERROR: Malformed CHUNK header: " ++ line ++ ascii "\n"))), s)
    | some (chunkId, chunkSize, hash) =>
        if ¬allocates chunkSize then (.error (some .crashed), s)
        else
          let (data, s) := src.readBytes chunkSize s
          if data.length < chunkSize then (.error (some .closed), s)
          else if sha256 data ≠ hash then
            (.error (some (.reply (ascii "ERROR: Chunk checksum mismatch for chunk " ++
              dec chunkId ++ ascii "\n"))), s)
          else (.ok { chunkId, data, checksum := hash }, s)
  else if line = ascii "EOF" then (.error none, s)
  else
    (.error (some (.reply (ascii "ERROR: Expected CHUNK header, got: " ++ line ++ ascii "\n"))), s)

/-- The receiving loop, with the number of chunks still expected: the chunks received, how the
handler ends if it ends there, and what is left to read.  The memory there is depends on the
round. -/
def receiveLoop {σ : Type} (src : Source σ) :
    (Nat → Nat → Bool) → Nat → σ → List ReceivedChunk × Option UploadEnd × σ
  | _, 0, s => ([], none, s)
  | allocates, n + 1, s =>
      match receiveRound src (allocates 0) s with
      | (.error ended, s) => ([], ended, s)
      | (.ok c, s) =>
          let (received, ended, s) := receiveLoop src (fun i => allocates (i + 1)) n s
          (c :: received, ended, s)

/-- There is memory for everything. -/
def unlimited : Nat → Nat → Bool := fun _ _ => true

/-- What the loop receives from a stream, where there is memory for everything. -/
def receiveChunks (n : Nat) (stream : Bytes) : List ReceivedChunk × Option UploadEnd :=
  let (received, ended, _) := receiveLoop .stream unlimited n stream
  (received, ended)

/-- An empty file has no stream. -/
def UploadRequest.received (r : UploadRequest) (stream : Bytes) :
    List ReceivedChunk × Option UploadEnd :=
  if r.fileSize = 0 then ([], none) else receiveChunks r.numChunks stream

/-! ## The transfers -/

/-- `PendingTransfer`: one chunk for one server. -/
structure Transfer where
  chunkId : Int
  server : Bytes
  data : Bytes
  checksum : Bytes
deriving DecidableEq

/-- `submit_chunk_transfers`, for each chunk received. -/
def UploadEnv.pending (env : UploadEnv) (received : List ReceivedChunk) : List Transfer :=
  received.flatMap fun c => env.selectServersForChunk.map fun server =>
    { chunkId := c.chunkId, server, data := c.data, checksum := c.checksum }

/-- The path recorded for a replica; one that reports none gets a conventional one. -/
def Transfer.recordedPath (t : Transfer) (filename path : Bytes) : Bytes :=
  if path ≠ [] then path
  else ascii "/tmp/chunks/" ++ t.server ++ ascii "_" ++ filename ++ ascii "_chunk_" ++ dec t.chunkId

lemma Transfer.newline_not_mem_recordedPath (t : Transfer) {filename path : Bytes}
    (hserver : Word t.server) (hname : Word filename) (hpath : (10 : UInt8) ∉ path) :
    (10 : UInt8) ∉ t.recordedPath filename path := by
  unfold Transfer.recordedPath
  split_ifs
  · exact hpath
  · have htexts : (10 : UInt8) ∉ ascii "/tmp/chunks/" ∧ (10 : UInt8) ∉ ascii "_" ∧
        (10 : UInt8) ∉ ascii "_chunk_" := by decide
    simp only [List.mem_append, not_or]
    exact ⟨⟨⟨⟨⟨htexts.1, hserver.not_mem_newline⟩, htexts.2.1⟩, hname.not_mem_newline⟩,
      htexts.2.2⟩, (word_dec _).not_mem_newline⟩

/-- `collect_transfers`: the replicas that were stored. -/
def collectTransfers (filename : Bytes) (pending : List Transfer)
    (outcomes : List (Option Bytes)) : List ChunkInfo :=
  let results := pending.zip outcomes
  results.filterMap fun (t, outcome) => outcome.map fun path =>
    { chunkId := t.chunkId, serverIp := t.server, filePath := t.recordedPath filename path
      size := t.data.length, checksum := t.checksum
      replicaCount := results.countP fun r => r.1.chunkId = t.chunkId ∧ r.2.isSome }

section

variable {σ : Type} (run : σ → Bytes → List Transfer → σ × List (Option Bytes))

variable {τ : Type} (store : τ → Bytes → List ChunkInfo → Bytes → Int → τ)

/-- `handle_client_upload` after `collect_transfers`, of a file that is not empty: it compares the
digest of what was received with the announced one, and commits. -/
def commitUpload (replicationFactor : Int) (m : τ) (r : UploadRequest) (received : List Bytes)
    (chunks : List ChunkInfo) : τ × UploadEnd :=
  let computedFileHash := (received.foldl SHA256.update SHA256.reset).digest
  if r.fileHash ≠ [] ∧ computedFileHash ≠ r.fileHash then
    (m, .reply (ascii "ERROR: SHA256 checksum mismatch\n"))
  else if chunks = [] ∧ 0 < r.fileSize then
    (m, .reply (ascii "ERROR: Failed to store chunk replicas across cluster servers\n"))
  else (store m r.filename chunks computedFileHash replicationFactor, success)

/-- `handle_client_upload` after it has read the request, given what the receiving loop comes to:
the state the transfers leave, the metadata, and how it ends.  It looks at nothing that
`store_metadata` does. -/
def completeUpload (env : UploadEnv) (s : σ) (m : τ) (r : UploadRequest)
    (loop : List ReceivedChunk × Option UploadEnd) : σ × τ × UploadEnd :=
  if r.fileSize = 0 then
    let emptyHash := if r.fileHash ≠ [] then r.fileHash else sha256 []
    (s, store m r.filename [] emptyHash env.replicationFactor, success)
  else
    let (received, ended) := loop
    let pending := env.pending received
    let (s, outcomes) := run s r.filename pending
    match ended with
    | some ended => (s, m, ended)
    | none =>
        (s, commitUpload store env.replicationFactor m r (received.map (·.data))
          (collectTransfers r.filename pending outcomes))

/-- `handle_client_upload`, over any store of metadata. -/
def handleClientUploadOn (env : UploadEnv) (s : σ) (m : τ) (initialReq stream : Bytes) :
    σ × τ × UploadEnd :=
  match parseUploadRequest env.chunkSize initialReq with
  | .error ended => (s, m, ended)
  | .ok r => completeUpload run store env s m r (receiveChunks r.numChunks stream)

/-- `handle_client_upload` with the on-disk backend. -/
def handleClientUpload (env : UploadEnv) (s : σ) (m : MetadataMap) (initialReq stream : Bytes) :
    σ × MetadataMap × UploadEnd :=
  handleClientUploadOn run storeMetadata env s m initialReq stream

end

/-! ## When the handler answers `SUCCESS` -/

/-- What a request line is read as: nothing, or a request made of words of the line. -/
lemma parseUploadRequest_cases (chunkSize : Nat) (initialReq : Bytes) :
    (∃ ended, parseUploadRequest chunkSize initialReq = .error ended ∧ ended ≠ success) ∨
      ∃ r, parseUploadRequest chunkSize initialReq = .ok r ∧ Word r.filename ∧ Word r.fileHash := by
  have hinvalid : UploadEnd.reply (ascii "ERROR: Invalid upload request format. Expected: " ++
      ascii "UPLOAD <filename> <size> [chunks] <sha256>\n") ≠ success := by simp [success, ascii]
  have hcrash : UploadEnd.crashed ≠ success := by simp [success]
  have hword : ∀ w ∈ words initialReq, Word w := fun w hw => word_of_mem_words hw
  unfold parseUploadRequest
  dsimp only
  split
  · rename_i cmd filename size fileHash hwords
    rw [hwords] at hword
    by_cases hcmd : cmd ≠ ascii "UPLOAD"
    · exact Or.inl ⟨_, if_pos hcmd, hinvalid⟩
    rw [if_neg hcmd]
    cases hsize : stoull size with
    | none => exact Or.inl ⟨_, rfl, hcrash⟩
    | some fileSize =>
        cases hnum : legacyNumChunks chunkSize fileSize with
        | none => exact Or.inl ⟨_, by simp [hnum], hcrash⟩
        | some numChunks =>
            exact Or.inr ⟨_, by simp [hnum]; rfl, hword filename (by simp),
              hword fileHash (by simp)⟩
  · rename_i cmd filename size chunks fileHash rest hwords
    rw [hwords] at hword
    by_cases hcmd : cmd ≠ ascii "UPLOAD"
    · exact Or.inl ⟨_, if_pos hcmd, hinvalid⟩
    rw [if_neg hcmd]
    cases hsize : stoull size with
    | none => exact Or.inl ⟨_, rfl, hcrash⟩
    | some fileSize =>
        cases hnum : stoull chunks with
        | none => exact Or.inl ⟨_, rfl, hcrash⟩
        | some numChunks =>
            exact Or.inr ⟨_, rfl, hword filename (by simp), hword fileHash (by simp)⟩
  · exact Or.inl ⟨_, rfl, hinvalid⟩

lemma parseUploadRequest_words {chunkSize : Nat} {initialReq : Bytes} {r : UploadRequest}
    (h : parseUploadRequest chunkSize initialReq = .ok r) : Word r.filename ∧ Word r.fileHash := by
  rcases parseUploadRequest_cases chunkSize initialReq with ⟨ended, heq, -⟩ | ⟨r', heq, hwords⟩
  · rw [heq] at h
    cases h
  · rw [heq] at h
    cases h
    exact hwords

/-! ### The receiving loop -/

/-- A frame: a header line, and behind it as many bytes as it announces, with the hash it
announces. -/
def ChunkFrame (stream : Bytes) (c : ReceivedChunk) (rest : Bytes) : Prop :=
  ∃ line, readLine stream = (line, c.data ++ rest) ∧ ascii "CHUNK " <+: line ∧
    parseChunkHeader (line.drop 6) = some (c.chunkId, c.data.length, c.checksum) ∧
    c.checksum = sha256 c.data

/-- A stream begins with the frames of these chunks, and the rest follows them. -/
inductive ChunkFrames : Bytes → List ReceivedChunk → Bytes → Prop
  | nil (stream : Bytes) : ChunkFrames stream [] stream
  | cons {stream rest left : Bytes} {c : ReceivedChunk} {cs : List ReceivedChunk} :
      ChunkFrame stream c rest → ChunkFrames rest cs left → ChunkFrames stream (c :: cs) left

/-- The size that a header line announces, if it can be read. -/
def announcedSize (line : Bytes) : Option Nat :=
  if ascii "CHUNK " <+: line then (parseChunkHeader (line.drop 6)).map (·.2.1) else none

section

variable {allocates : Nat → Bool} {stream rest : Bytes} {c : ReceivedChunk}

lemma ChunkFrame.announcedSize (h : ChunkFrame stream c rest) :
    announcedSize (readLine stream).1 = some c.data.length ∧
      c.data.length ≤ (readLine stream).2.length := by
  obtain ⟨line, hread, hchunk, hparse, -⟩ := h
  rw [hread, FileGrid.announcedSize, if_pos hchunk, hparse]
  exact ⟨rfl, by simp⟩

/-- A stream begins with one frame at most. -/
lemma ChunkFrame.unique {c' : ReceivedChunk} {rest' : Bytes} (h : ChunkFrame stream c rest)
    (h' : ChunkFrame stream c' rest') : c = c' ∧ rest = rest' := by
  obtain ⟨line, hread, -, hparse, -⟩ := h
  obtain ⟨line', hread', -, hparse', -⟩ := h'
  obtain ⟨rfl, happend⟩ := Prod.mk.inj (hread.symm.trans hread')
  obtain ⟨hid, hlength, hsum⟩ : c.chunkId = c'.chunkId ∧ c.data.length = c'.data.length ∧
      c.checksum = c'.checksum := by simpa using hparse.symm.trans hparse'
  obtain ⟨hdata, hrest⟩ := List.append_inj happend hlength
  cases c
  cases c'
  simp_all

/-- What one round of the loop can come to. -/
inductive ReceiveRound (allocates : Nat → Bool) (stream : Bytes) :
    Except (Option UploadEnd) ReceivedChunk × Bytes → Prop
  /-- There is no line, or an empty one. -/
  | empty (rest : Bytes) : (readLine stream).1 = [] →
      ReceiveRound allocates stream (.error (some .closed), rest)
  /-- The client has sent enough. -/
  | eof (rest : Bytes) : (readLine stream).1 = ascii "EOF" →
      ReceiveRound allocates stream (.error none, rest)
  /-- The line is no header. -/
  | refused (text rest : Bytes) : (readLine stream).1 ≠ [] → (readLine stream).1 ≠ ascii "EOF" →
      announcedSize (readLine stream).1 = none → ascii "ERROR" <+: text →
      ReceiveRound allocates stream (.error (some (.reply text)), rest)
  /-- The allocation throws. -/
  | throws (size : Nat) (rest : Bytes) : announcedSize (readLine stream).1 = some size →
      allocates size = false → ReceiveRound allocates stream (.error (some .crashed), rest)
  /-- The chunk is cut off. -/
  | short (size : Nat) (rest : Bytes) : announcedSize (readLine stream).1 = some size →
      allocates size = true → (readLine stream).2.length < size →
      ReceiveRound allocates stream (.error (some .closed), rest)
  /-- The chunk has another hash. -/
  | corrupt (size : Nat) (text rest : Bytes) : announcedSize (readLine stream).1 = some size →
      allocates size = true → size ≤ (readLine stream).2.length →
      (∀ c left, ¬ChunkFrame stream c left) → ascii "ERROR" <+: text →
      ReceiveRound allocates stream (.error (some (.reply text)), rest)
  /-- The chunk arrives. -/
  | arrives (c : ReceivedChunk) (rest : Bytes) : ChunkFrame stream c rest →
      allocates c.data.length = true → ReceiveRound allocates stream (.ok c, rest)

lemma receiveRound_round (allocates : Nat → Bool) (stream : Bytes) :
    ReceiveRound allocates stream (receiveRound .stream allocates stream) := by
  obtain ⟨line, left, hread⟩ : ∃ line left, readLine stream = (line, left) := ⟨_, _, rfl⟩
  have hline : (readLine stream).1 = line := by rw [hread]
  have hleft : (readLine stream).2 = left := by rw [hread]
  rw [receiveRound, show Source.stream.readLine stream = (line, left) from hread]
  dsimp only [Source.stream]
  by_cases hempty : line = []
  · rw [if_pos hempty]
    exact .empty left (hline.trans hempty)
  rw [if_neg hempty]
  by_cases hchunk : ascii "CHUNK " <+: line
  · have hannounced : announcedSize (readLine stream).1 =
        (parseChunkHeader (line.drop 6)).map (·.2.1) := by
      rw [hline, announcedSize, if_pos hchunk]
    have heof : (readLine stream).1 ≠ ascii "EOF" := by
      rintro heof
      rw [← hline, heof] at hchunk
      revert hchunk
      decide
    rw [if_pos hchunk]
    cases hparse : parseChunkHeader (line.drop 6) with
    | none =>
        rw [hparse] at hannounced
        exact .refused _ _ (hline ▸ hempty) heof hannounced (by simp [ascii])
    | some header =>
        obtain ⟨chunkId, chunkSize, hash⟩ := header
        rw [hparse] at hannounced
        dsimp only
        by_cases halloc : allocates chunkSize = true
        · rw [if_neg (by simpa using halloc)]
          have htake : (left.take chunkSize).length = min chunkSize left.length :=
            List.length_take
          by_cases hshort : (left.take chunkSize).length < chunkSize
          · rw [if_pos hshort]
            exact .short chunkSize _ hannounced halloc (by rw [hleft]; omega)
          · rw [if_neg hshort]
            by_cases hsum : sha256 (left.take chunkSize) ≠ hash
            · rw [if_pos hsum]
              refine .corrupt chunkSize _ _ hannounced halloc (by rw [hleft]; omega) ?_
                (by simp [ascii])
              rintro c rest ⟨line', hread', -, hparse', hc⟩
              obtain ⟨rfl, rfl⟩ := Prod.mk.inj (hread.symm.trans hread')
              obtain ⟨-, rfl, rfl⟩ : chunkId = c.chunkId ∧ chunkSize = c.data.length ∧
                hash = c.checksum := by simpa using hparse.symm.trans hparse'
              rw [List.take_left' rfl] at hsum
              exact hsum hc.symm
            · rw [if_neg hsum]
              have hlength : (left.take chunkSize).length = chunkSize := by omega
              refine .arrives _ _ ⟨line, ?_, hchunk, ?_, (not_not.mp hsum).symm⟩ ?_
              · rw [hread, List.take_append_drop]
              · rw [hparse, hlength]
              · rw [hlength]
                exact halloc
        · rw [if_pos (by simpa using halloc)]
          exact .throws chunkSize _ hannounced (by simpa using halloc)
  · have hannounced : announcedSize (readLine stream).1 = none := by
      rw [hline, announcedSize, if_neg hchunk]
    rw [if_neg hchunk]
    by_cases heof : line = ascii "EOF"
    · rw [if_pos heof]
      exact .eof left (hline.trans heof)
    · rw [if_neg heof]
      exact .refused _ _ (hline ▸ hempty) (hline ▸ heof) hannounced (by simp [ascii])

@[simp] lemma announcedSize_nil : announcedSize [] = none := by decide

@[simp] lemma announcedSize_eof : announcedSize (ascii "EOF") = none := by decide

/-- **When a chunk arrives.** -/
lemma receiveRound_ok_iff : receiveRound .stream allocates stream = (.ok c, rest) ↔
    ChunkFrame stream c rest ∧ allocates c.data.length = true := by
  have hround := receiveRound_round allocates stream
  have hsize := fun h => @ChunkFrame.announcedSize stream rest c h
  have hunique := fun c' rest' h h' => @ChunkFrame.unique stream rest c c' rest' h h'
  generalize receiveRound .stream allocates stream = result at hround ⊢
  cases hround <;> grind [announcedSize_nil, announcedSize_eof]

/-- The loop is done exactly where it reads `EOF`. -/
lemma receiveRound_done_iff : (receiveRound .stream allocates stream).1 = .error none ↔
    (readLine stream).1 = ascii "EOF" := by
  have hround := receiveRound_round allocates stream
  have hsize := fun c rest h => @ChunkFrame.announcedSize stream rest c h
  have hne : ascii "EOF" ≠ [] := by decide
  generalize receiveRound .stream allocates stream = result at hround ⊢
  cases hround <;> grind [announcedSize_eof]

/-- **When an allocation throws**: the header announces a size there is no memory for. -/
lemma receiveRound_crashed_iff :
    (receiveRound .stream allocates stream).1 = .error (some .crashed) ↔
      ∃ size, announcedSize (readLine stream).1 = some size ∧ allocates size = false := by
  have hround := receiveRound_round allocates stream
  have hsize := fun c rest h => @ChunkFrame.announcedSize stream rest c h
  generalize receiveRound .stream allocates stream = result at hround ⊢
  cases hround <;> grind [announcedSize_nil, announcedSize_eof]

/-- No round ends the handler with the answer `SUCCESS`. -/
lemma receiveRound_ne_success :
    (receiveRound .stream allocates stream).1 ≠ .error (some success) := by
  have hround := receiveRound_round allocates stream
  have hno : ¬ascii "ERROR" <+: ascii "SUCCESS\n" := by decide
  generalize receiveRound .stream allocates stream = result at hround ⊢
  cases hround <;> grind [success]

end

/-! ### The loop -/

section

variable {allocates : Nat → Nat → Bool} {n : Nat} {stream rest : Bytes} {c : ReceivedChunk}
  {cs : List ReceivedChunk}

lemma receiveLoop_of_error {ended : Option UploadEnd} (n : Nat)
    (h : (receiveRound .stream (allocates 0) stream).1 = .error ended) :
    (receiveLoop .stream allocates (n + 1) stream).1 = [] ∧
      (receiveLoop .stream allocates (n + 1) stream).2.1 = ended := by
  rw [receiveLoop]
  generalize receiveRound .stream (allocates 0) stream = round at h ⊢
  obtain ⟨result, rest⟩ := round
  obtain rfl : result = .error ended := h
  exact ⟨rfl, rfl⟩

lemma receiveLoop_of_ok (n : Nat) (h : receiveRound .stream (allocates 0) stream = (.ok c, rest)) :
    receiveLoop .stream allocates (n + 1) stream =
      (c :: (receiveLoop .stream (fun i => allocates (i + 1)) n rest).1,
        (receiveLoop .stream (fun i => allocates (i + 1)) n rest).2) := by
  rw [receiveLoop, h]

/-- **What the loop receives are frames**, and where it stops it has enough of them or reads
something else. -/
lemma receiveLoop_frames (allocates : Nat → Nat → Bool) (n : Nat) (stream : Bytes) :
    ∃ rest, ChunkFrames stream (receiveLoop .stream allocates n stream).1 rest ∧
      ((receiveLoop .stream allocates n stream).1.length = n ∧
          (receiveLoop .stream allocates n stream).2.1 = none ∨
        (receiveLoop .stream allocates n stream).1.length < n ∧
          (receiveRound .stream (allocates (receiveLoop .stream allocates n stream).1.length)
            rest).1 = .error (receiveLoop .stream allocates n stream).2.1) := by
  induction n generalizing allocates stream with
  | zero => exact ⟨stream, .nil stream, Or.inl ⟨rfl, rfl⟩⟩
  | succ n ih =>
      cases hround : receiveRound .stream (allocates 0) stream with
      | mk result left =>
          cases result with
          | error ended =>
              obtain ⟨hnil, hended⟩ := receiveLoop_of_error n (congrArg Prod.fst hround)
              rw [hnil, hended]
              exact ⟨stream, .nil stream, Or.inr ⟨Nat.succ_pos n, congrArg Prod.fst hround⟩⟩
          | ok c =>
              obtain ⟨rest, hframes, hstop⟩ := ih (fun i => allocates (i + 1)) left
              rw [receiveLoop_of_ok n hround]
              refine ⟨rest, .cons (receiveRound_ok_iff.mp hround).1 hframes, ?_⟩
              rw [List.length_cons]
              rcases hstop with ⟨hlength, hended⟩ | ⟨hlength, hended⟩
              · exact Or.inl ⟨congrArg (· + 1) hlength, hended⟩
              · exact Or.inr ⟨Nat.succ_lt_succ hlength, hended⟩

/-- **Frames are received**, unless an allocation throws before. -/
lemma ChunkFrames.receiveLoop (h : ChunkFrames stream cs rest) (allocates : Nat → Nat → Bool)
    (n : Nat) :
    (receiveLoop .stream allocates (cs.length + n) stream).2.1 = some .crashed ∨
      receiveLoop .stream allocates (cs.length + n) stream =
        (cs ++ (receiveLoop .stream (fun i => allocates (i + cs.length)) n rest).1,
          (receiveLoop .stream (fun i => allocates (i + cs.length)) n rest).2) := by
  induction h generalizing allocates with
  | nil stream => simp
  | @cons stream rest left c cs hframe _ ih =>
      rw [List.length_cons, show cs.length + 1 + n = (cs.length + n) + 1 by omega]
      by_cases halloc : allocates 0 c.data.length = true
      · rw [receiveLoop_of_ok _ (receiveRound_ok_iff.mpr ⟨hframe, halloc⟩)]
        rcases ih fun i => allocates (i + 1) with hcrashed | heq
        · exact Or.inl hcrashed
        · exact Or.inr (by rw [heq]; rfl)
      · have hcrashed := receiveRound_crashed_iff.mpr
          ⟨_, hframe.announcedSize.1, Bool.eq_false_of_not_eq_true halloc⟩
        exact Or.inl (receiveLoop_of_error _ hcrashed).2

/-- A chunk of a frame has an `int` for its identifier, and its SHA-256. -/
lemma ChunkFrames.chunk_spec (h : ChunkFrames stream cs rest) (hc : c ∈ cs) :
    -2 ^ 31 ≤ c.chunkId ∧ c.chunkId ≤ 2 ^ 31 - 1 ∧ c.checksum = sha256 c.data := by
  induction h with
  | nil stream => cases hc
  | cons hframe _ ih =>
      rcases List.mem_cons.mp hc with rfl | hc
      · obtain ⟨line, -, -, hparse, hsum⟩ := hframe
        simp only [parseChunkHeader, Option.bind_eq_bind, Option.bind_eq_some_iff,
          Prod.exists] at hparse
        obtain ⟨id, s₁, hid, size, s₂, -, hash, s₃, -, hheader⟩ := hparse
        cases hheader
        exact ⟨(readInt_range hid).1, (readInt_range hid).2, hsum⟩
      · exact ih hc

lemma receiveChunks_of_error {ended : Option UploadEnd} (n : Nat)
    (h : (receiveRound .stream (unlimited 0) stream).1 = .error ended) :
    receiveChunks (n + 1) stream = ([], ended) :=
  Prod.ext (receiveLoop_of_error n h).1 (receiveLoop_of_error n h).2

lemma receiveChunks_of_ok (n : Nat)
    (h : receiveRound .stream (unlimited 0) stream = (.ok c, rest)) :
    receiveChunks (n + 1) stream =
      (c :: (receiveChunks n rest).1, (receiveChunks n rest).2) := by
  rw [receiveChunks, receiveLoop_of_ok n h]
  rfl

/-- Where there is memory for everything, nothing throws. -/
lemma receiveChunks_ne_crashed (n : Nat) (stream : Bytes) :
    (receiveChunks n stream).2 ≠ some .crashed := by
  intro hcrashed
  obtain ⟨rest, -, ⟨-, hended⟩ | ⟨-, hended⟩⟩ := receiveLoop_frames unlimited n stream
  · rw [show (receiveLoop .stream unlimited n stream).2.1 = _ from hcrashed] at hended
    cases hended
  · rw [show (receiveLoop .stream unlimited n stream).2.1 = _ from hcrashed] at hended
    obtain ⟨size, -, hfails⟩ := receiveRound_crashed_iff.mp hended
    cases hfails

/-- **When the loop comes to its end**: it has received as many frames as it expects, or fewer and
then `EOF`. -/
lemma receiveChunks_done_iff : receiveChunks n stream = (cs, none) ↔
    ∃ rest, ChunkFrames stream cs rest ∧
      (cs.length = n ∨ cs.length < n ∧ (readLine rest).1 = ascii "EOF") := by
  constructor
  · intro h
    obtain ⟨hreceived, hended⟩ := Prod.mk.inj h
    obtain ⟨rest, hframes, hstop⟩ := receiveLoop_frames unlimited n stream
    rw [hreceived, hended] at hstop
    rw [hreceived] at hframes
    refine ⟨rest, hframes, ?_⟩
    rcases hstop with ⟨hlength, -⟩ | ⟨hlength, hround⟩
    · exact Or.inl hlength
    · exact Or.inr ⟨hlength, receiveRound_done_iff.mp hround⟩
  · rintro ⟨rest, hframes, hstop⟩
    obtain ⟨k, rfl⟩ : ∃ k, n = cs.length + k := ⟨n - cs.length, by omega⟩
    rcases hframes.receiveLoop unlimited k with hcrashed | heq
    · exact absurd hcrashed (receiveChunks_ne_crashed _ _)
    rw [receiveChunks, heq]
    rcases hstop with hlength | ⟨hlength, heof⟩
    · obtain rfl : k = 0 := by omega
      simp [receiveLoop]
    · obtain ⟨k, rfl⟩ : ∃ j, k = j + 1 := ⟨k - 1, by omega⟩
      obtain ⟨hnil, hended⟩ := @receiveLoop_of_error (fun i => unlimited (i + cs.length)) rest none
        k (receiveRound_done_iff.mpr heof)
      rw [hnil, List.append_nil]
      exact Prod.ext rfl hended

lemma receiveChunks_ended (n : Nat) (stream : Bytes) :
    (receiveChunks n stream).2 ≠ some success := by
  intro hsuccess
  obtain ⟨rest, -, ⟨-, hended⟩ | ⟨-, hended⟩⟩ := receiveLoop_frames unlimited n stream
  · rw [show (receiveLoop .stream unlimited n stream).2.1 = _ from hsuccess] at hended
    cases hended
  · rw [show (receiveLoop .stream unlimited n stream).2.1 = _ from hsuccess] at hended
    exact receiveRound_ne_success hended

/-- A chunk that was received has an `int` for its identifier, and its SHA-256. -/
lemma receiveChunks_spec {n : Nat} {stream : Bytes} {c : ReceivedChunk}
    (h : c ∈ (receiveChunks n stream).1) :
    -2 ^ 31 ≤ c.chunkId ∧ c.chunkId ≤ 2 ^ 31 - 1 ∧ c.checksum = sha256 c.data := by
  obtain ⟨rest, hframes, -⟩ := receiveLoop_frames unlimited n stream
  exact hframes.chunk_spec h

end

lemma UploadRequest.received_spec {r : UploadRequest} {stream : Bytes} {c : ReceivedChunk}
    (h : c ∈ (r.received stream).1) :
    -2 ^ 31 ≤ c.chunkId ∧ c.chunkId ≤ 2 ^ 31 - 1 ∧ c.checksum = sha256 c.data := by
  unfold UploadRequest.received at h
  split_ifs at h
  · simp at h
  · exact receiveChunks_spec h

/-- The stream of a request came to its end, and the file has the hash that was announced. -/
def UploadRequest.Accepted (r : UploadRequest) (stream : Bytes) : Prop :=
  (r.received stream).2 = none ∧
    (r.fileSize = 0 ∨ sha256 ((r.received stream).1.map (·.data)).flatten = r.fileHash)

section

variable {σ τ : Type} (run : σ → Bytes → List Transfer → σ × List (Option Bytes))
  (store : τ → Bytes → List ChunkInfo → Bytes → Int → τ)
  (env : UploadEnv) (s : σ) (m : MetadataMap) (t : τ) (initialReq stream : Bytes)

/-- The replicas an upload stores. -/
def storedReplicas (r : UploadRequest) : List ChunkInfo :=
  let pending := env.pending (r.received stream).1
  collectTransfers r.filename pending (run s r.filename pending).2

lemma storedReplicas_of_empty {r : UploadRequest} (h : r.fileSize = 0) :
    storedReplicas run env s stream r = [] := by
  simp [storedReplicas, UploadRequest.received, h, UploadEnv.pending, collectTransfers]

/-- **When an upload succeeds**: it is accepted, and something was stored. -/
theorem uploadOn_success_iff :
    (handleClientUploadOn run store env s t initialReq stream).2.2 = success ↔
      ∃ r, parseUploadRequest env.chunkSize initialReq = .ok r ∧ r.Accepted stream ∧
        (r.fileSize = 0 ∨ storedReplicas run env s stream r ≠ []) := by
  unfold handleClientUploadOn completeUpload commitUpload
  cases hparse : parseUploadRequest env.chunkSize initialReq with
  | error ended =>
      rcases parseUploadRequest_cases env.chunkSize initialReq with ⟨_, heq, hne⟩ | ⟨_, heq, -⟩
      · rw [hparse] at heq
        cases heq
        simpa using hne
      · rw [hparse] at heq
        cases heq
  | ok r =>
      simp only [Except.ok.injEq, exists_eq_left', UploadRequest.Accepted,
        UploadRequest.received, storedReplicas]
      by_cases hsize : r.fileSize = 0
      · simp [hsize]
      have hhash : r.fileHash ≠ [] := (parseUploadRequest_words hparse).2.1
      simp only [hsize, if_false, false_or, digest_foldl_update]
      cases hended : (receiveChunks r.numChunks stream).2 with
      | some ended =>
          have hne := receiveChunks_ended r.numChunks stream
          rw [hended] at hne
          simpa using hne
      | none =>
          by_cases hsum : sha256 ((receiveChunks r.numChunks stream).1.map (·.data)).flatten =
              r.fileHash
          · simp only [hsum, ne_eq, not_true_eq_false, and_false, if_false, true_and]
            split_ifs with hnil
            · simp [hnil.1, success, ascii]
            · have hne := fun h => hnil ⟨h, Nat.pos_of_ne_zero hsize⟩
              simpa using hne
          · simp only [hhash, hsum, ne_eq, not_false_eq_true, and_self, if_true, false_and,
              and_false, iff_false]
            simp [success, ascii]

theorem upload_success_iff :
    (handleClientUpload run env s m initialReq stream).2.2 = success ↔
      ∃ r, parseUploadRequest env.chunkSize initialReq = .ok r ∧ r.Accepted stream ∧
        (r.fileSize = 0 ∨ storedReplicas run env s stream r ≠ []) :=
  uploadOn_success_iff run storeMetadata env s m initialReq stream

/-- What a successful upload commits. -/
theorem uploadOn_commits {r : UploadRequest}
    (hparse : parseUploadRequest env.chunkSize initialReq = .ok r)
    (h : (handleClientUploadOn run store env s t initialReq stream).2.2 = success) :
    (handleClientUploadOn run store env s t initialReq stream).2.1 =
      store t r.filename (storedReplicas run env s stream r) r.fileHash
        env.replicationFactor := by
  obtain ⟨r', hparse', ⟨hended, hsum⟩, hstored⟩ :=
    (uploadOn_success_iff run store env s t _ _).mp h
  obtain rfl : r = r' := Except.ok.inj (hparse.symm.trans hparse')
  have hhash : r.fileHash ≠ [] := (parseUploadRequest_words hparse).2.1
  by_cases hsize : r.fileSize = 0
  · rw [storedReplicas_of_empty run env s stream hsize]
    simp only [handleClientUploadOn, completeUpload, hparse, hsize, if_true, if_pos hhash]
  · simp only [UploadRequest.received, if_neg hsize] at hended hsum
    simp only [hsize, false_or, storedReplicas, UploadRequest.received, if_false] at hstored hsum
    simp only [handleClientUploadOn, completeUpload, commitUpload, hparse, hsize, if_false, hended,
      digest_foldl_update, hsum, ne_eq, not_true_eq_false, and_false, hstored, false_and,
      storedReplicas, UploadRequest.received]

theorem upload_commits {r : UploadRequest}
    (hparse : parseUploadRequest env.chunkSize initialReq = .ok r)
    (h : (handleClientUpload run env s m initialReq stream).2.2 = success) :
    (handleClientUpload run env s m initialReq stream).2.1 =
      storeMetadata m r.filename (storedReplicas run env s stream r) r.fileHash
        env.replicationFactor :=
  uploadOn_commits run storeMetadata env s m initialReq stream hparse h

/-- Whether or not the upload of a file succeeds, its transfers are run. -/
lemma upload_state_of_size {r : UploadRequest}
    (hparse : parseUploadRequest env.chunkSize initialReq = .ok r) (hsize : r.fileSize ≠ 0) :
    (handleClientUpload run env s m initialReq stream).1 =
      (run s r.filename (env.pending (r.received stream).1)).1 := by
  simp only [handleClientUpload, handleClientUploadOn, completeUpload, hparse,
    UploadRequest.received, if_neg hsize]
  cases (receiveChunks r.numChunks stream).2 <;> rfl

lemma upload_state : (handleClientUpload run env s m initialReq stream).1 = s ∨
    ∃ r, parseUploadRequest env.chunkSize initialReq = .ok r ∧
      (handleClientUpload run env s m initialReq stream).1 =
        (run s r.filename (env.pending (r.received stream).1)).1 := by
  cases hparse : parseUploadRequest env.chunkSize initialReq with
  | error ended =>
      left
      simp only [handleClientUpload, handleClientUploadOn, hparse]
  | ok r =>
      by_cases hsize : r.fileSize = 0
      · left
        simp only [handleClientUpload, handleClientUploadOn, completeUpload, hparse, if_pos hsize]
      · exact Or.inr ⟨r, rfl, upload_state_of_size run env s m initialReq stream hparse hsize⟩

/-- An upload that does not succeed commits nothing. -/
theorem uploadOn_failed
    (h : (handleClientUploadOn run store env s t initialReq stream).2.2 ≠ success) :
    (handleClientUploadOn run store env s t initialReq stream).2.1 = t := by
  cases hparse : parseUploadRequest env.chunkSize initialReq with
  | error ended => simp only [handleClientUploadOn, hparse]
  | ok r =>
      by_cases hsize : r.fileSize = 0
      · simp only [handleClientUploadOn, completeUpload, hparse, if_pos hsize] at h
        exact absurd rfl h
      cases hended : (receiveChunks r.numChunks stream).2 with
      | some ended => simp only [handleClientUploadOn, completeUpload, hparse, if_neg hsize, hended]
      | none =>
          simp only [handleClientUploadOn, completeUpload, commitUpload, hparse, if_neg hsize,
            hended] at h ⊢
          split_ifs at h ⊢
          · rfl
          · rfl
          · exact absurd rfl h

theorem upload_failed (h : (handleClientUpload run env s m initialReq stream).2.2 ≠ success) :
    (handleClientUpload run env s m initialReq stream).2.1 = m :=
  uploadOn_failed run storeMetadata env s m initialReq stream h

end

/-! ## Whether every chunk was stored -/

/-- The placement a successful transfer is to be recorded as. -/
def Transfer.placement (t : Transfer) (filename path : Bytes) : Placement :=
  { chunkId := t.chunkId, server := t.server, path := t.recordedPath filename path
    checksum := t.checksum }

lemma mem_collectTransfers {filename : Bytes} {pending : List Transfer}
    {outcomes : List (Option Bytes)} {p : Placement} :
    p ∈ (collectTransfers filename pending outcomes).map (·.placement) ↔
      ∃ (i : Nat) (t : Transfer) (path : Bytes), pending[i]? = some t ∧
        outcomes[i]? = some (some path) ∧ p = t.placement filename path := by
  rw [collectTransfers, List.map_filterMap, List.mem_filterMap]
  constructor
  · rintro ⟨⟨t, outcome⟩, hzip, hp⟩
    obtain ⟨i, hi⟩ := List.mem_iff_getElem?.mp hzip
    obtain ⟨ht, ho⟩ := List.getElem?_zip_eq_some.mp hi
    cases outcome with
    | none => cases hp
    | some path => exact ⟨i, t, path, ht, ho, (Option.some.inj hp).symm⟩
  · rintro ⟨i, t, path, ht, ho, rfl⟩
    exact ⟨(t, some path), List.mem_of_getElem? (List.getElem?_zip_eq_some.mpr ⟨ht, ho⟩), rfl⟩

lemma collectTransfers_sublist (filename : Bytes) (pending : List Transfer)
    (outcomes : List (Option Bytes)) :
    List.Sublist ((collectTransfers filename pending outcomes).map fun c => (c.chunkId, c.serverIp))
      (pending.map fun t => (t.chunkId, t.server)) := by
  -- the counts look at all the transfers, so the induction is over any way to make a replica
  have hgen : ∀ (info : Transfer → Bytes → ChunkInfo),
      (∀ t path, ((info t path).chunkId, (info t path).serverIp) = (t.chunkId, t.server)) →
      ∀ (pending : List Transfer) (outcomes : List (Option Bytes)),
        List.Sublist (((pending.zip outcomes).filterMap fun (t, outcome) =>
          outcome.map (info t)).map fun c => (c.chunkId, c.serverIp))
          (pending.map fun t => (t.chunkId, t.server)) := by
    intro info hinfo pending
    induction pending with
    | nil => exact fun outcomes => by simp
    | cons t pending ih =>
        intro outcomes
        cases outcomes with
        | nil => simp
        | cons outcome outcomes =>
            rw [List.zip_cons_cons, List.map_cons]
            cases outcome with
            | none => exact (ih outcomes).cons _
            | some path =>
                simp only [List.filterMap_cons, Option.map_some, List.map_cons, hinfo]
                exact (ih outcomes).cons_cons _
  exact hgen (fun t path =>
    { chunkId := t.chunkId, serverIp := t.server, filePath := t.recordedPath filename path
      size := t.data.length, checksum := t.checksum
      replicaCount := (pending.zip outcomes).countP fun r =>
        r.1.chunkId = t.chunkId ∧ r.2.isSome }) (fun _ _ => rfl) pending outcomes

lemma mem_pending {env : UploadEnv} {received : List ReceivedChunk} {t : Transfer} :
    t ∈ env.pending received ↔ ∃ c ∈ received, ∃ server ∈ env.selectServersForChunk,
      t = { chunkId := c.chunkId, server, data := c.data, checksum := c.checksum } := by
  simp only [UploadEnv.pending, List.mem_flatMap, List.mem_map, eq_comm]

/-- No chunk is sent to a server twice, if no identifier and no server occurs twice. -/
lemma nodup_pending {env : UploadEnv} {received : List ReceivedChunk}
    (hids : (received.map (·.chunkId)).Nodup) (hservers : env.selectServersForChunk.Nodup) :
    ((env.pending received).map fun t => (t.chunkId, t.server)).Nodup := by
  have hproduct : (env.pending received).map (fun t => (t.chunkId, t.server)) =
      (received.map (·.chunkId)).product env.selectServersForChunk := by
    simp only [UploadEnv.pending, List.map_flatMap, List.map_map, List.product, List.flatMap_map]
    rfl
  rw [hproduct]
  exact hids.product hservers

/-- Transfers whose outcomes are given: the `i`-th one pending reports `outcome i`. -/
def withOutcomes (outcome : Nat → Option Bytes) (_ : Unit) (_ : Bytes) (pending : List Transfer) :
    Unit × List (Option Bytes) := ((), (List.range pending.length).map outcome)

/-- The transfer is one of the upload's, and it succeeds with this path. -/
def Succeeds (env : UploadEnv) (outcome : Nat → Option Bytes) (r : UploadRequest) (stream : Bytes)
    (t : Transfer) (path : Bytes) : Prop :=
  ∃ i, (env.pending (r.received stream).1)[i]? = some t ∧ outcome i = some path

section

variable {env : UploadEnv} {outcome : Nat → Option Bytes} {m : MetadataMap} {r : UploadRequest}
  {initialReq stream : Bytes}

lemma mem_storedReplicas {p : Placement} :
    p ∈ (storedReplicas (withOutcomes outcome) env () stream r).map (·.placement) ↔
      ∃ t path, Succeeds env outcome r stream t path ∧ p = t.placement r.filename path := by
  simp only [storedReplicas, mem_collectTransfers, withOutcomes, Succeeds]
  constructor
  · rintro ⟨i, t, path, ht, ho, rfl⟩
    have hi := (List.getElem?_eq_some_iff.mp ht).1
    rw [List.getElem?_map, List.getElem?_range hi] at ho
    exact ⟨t, path, ⟨i, ht, Option.some.inj ho⟩, rfl⟩
  · rintro ⟨t, path, ⟨i, ht, ho⟩, rfl⟩
    have hi := (List.getElem?_eq_some_iff.mp ht).1
    exact ⟨i, t, path, ht, by rw [List.getElem?_map, List.getElem?_range hi, ← ho]; rfl, rfl⟩

/-- A successful transfer is recorded exactly when its server and its path are words. -/
lemma placement_mem_commit_iff (hname : Word r.filename) (hhash : Word r.fileHash) {t : Transfer}
    {path : Bytes} (ht : Succeeds env outcome r stream t path) :
    t.placement r.filename path ∈ (storeMetadata m r.filename
        (storedReplicas (withOutcomes outcome) env () stream r) r.fileHash
        env.replicationFactor).placementsOf r.filename ↔
      Word t.server ∧ Word (t.recordedPath r.filename path) := by
  rw [placementsOf_storeMetadata m _ _ hname.not_mem_newline hhash.not_mem_newline, if_pos rfl]
  constructor
  · intro hp
    obtain ⟨rec, hrec, hplace⟩ := List.mem_map.mp hp
    obtain ⟨c, -, hrec⟩ := List.mem_flatMap.mp hrec
    obtain ⟨hserver, hpath⟩ := word_of_mem_readBack hrec
    have hs : rec.server = t.server := congrArg Placement.server hplace
    have hq : rec.path = t.recordedPath r.filename path := congrArg Placement.path hplace
    exact ⟨hs ▸ hserver, hq ▸ hpath⟩
  · rintro ⟨hserver, hpath⟩
    obtain ⟨c, hc, hplace⟩ := List.mem_map.mp (mem_storedReplicas.mpr ⟨t, path, ht, rfl⟩)
    obtain ⟨i, hi, -⟩ := ht
    obtain ⟨k, hk, server, -, rfl⟩ := mem_pending.mp (List.mem_of_getElem? hi)
    obtain ⟨hlo, hhi, hsum⟩ := UploadRequest.received_spec hk
    have hid : c.chunkId = k.chunkId := congrArg Placement.chunkId hplace
    have hback := readBack_eq (c := c) (by rw [hid]; omega) (by rw [hid]; omega)
      (by rw [show c.serverIp = server from congrArg Placement.server hplace]; exact hserver)
      (by rw [show c.filePath = _ from congrArg Placement.path hplace]; exact hpath)
      (by
        rw [show c.checksum = k.checksum from congrArg Placement.checksum hplace, hsum]
        exact word_sha256 _)
    have hmem : c.placement ∈ (readBack c).map (·.placement) := by rw [hback]; simp
    obtain ⟨rec, hrec, hrp⟩ := List.mem_map.mp hmem
    exact List.mem_map.mpr ⟨rec, List.mem_flatMap.mpr ⟨c, hc, hrec⟩, hrp.trans hplace⟩

end

/-- **When `SUCCESS` means that every chunk is stored.**  The answer is not given, or no transfer
succeeded, or every chunk received has a transfer that succeeded, to a server and a path without
white space. -/
theorem upload_stores_chunks_iff (env : UploadEnv) (outcome : Nat → Option Bytes) (m : MetadataMap)
    (initialReq stream : Bytes) :
    ((handleClientUpload (withOutcomes outcome) env () m initialReq stream).2.2 = success →
      ∀ r, parseUploadRequest env.chunkSize initialReq = .ok r → ∀ c ∈ (r.received stream).1,
        ∃ t path, Succeeds env outcome r stream t path ∧ t.chunkId = c.chunkId ∧
          t.placement r.filename path ∈ (handleClientUpload (withOutcomes outcome) env () m
            initialReq stream).2.1.placementsOf r.filename) ↔
    ∀ r, parseUploadRequest env.chunkSize initialReq = .ok r → r.Accepted stream →
      (∃ t path, Succeeds env outcome r stream t path) → ∀ c ∈ (r.received stream).1,
        ∃ t path, Succeeds env outcome r stream t path ∧ t.chunkId = c.chunkId ∧
          Word t.server ∧ Word (t.recordedPath r.filename path) := by
  constructor
  · intro h r hparse haccepted hsome c hc
    obtain ⟨hname, hhash⟩ := parseUploadRequest_words hparse
    have hstored : storedReplicas (withOutcomes outcome) env () stream r ≠ [] := by
      obtain ⟨t, path, ht⟩ := hsome
      intro hnil
      have := mem_storedReplicas.mpr ⟨t, path, ht, rfl⟩
      rw [hnil] at this
      simp at this
    have hsuccess := (upload_success_iff (withOutcomes outcome) env () m initialReq stream).mpr
      ⟨r, hparse, haccepted, Or.inr hstored⟩
    obtain ⟨t, path, ht, hid, hmem⟩ := h hsuccess r hparse c hc
    rw [upload_commits _ _ _ _ _ _ hparse hsuccess] at hmem
    exact ⟨t, path, ht, hid, (placement_mem_commit_iff hname hhash ht).mp hmem⟩
  · intro h hsuccess r hparse c hc
    obtain ⟨hname, hhash⟩ := parseUploadRequest_words hparse
    obtain ⟨r', hparse', haccepted, hstored⟩ :=
      (upload_success_iff (withOutcomes outcome) env () m initialReq stream).mp hsuccess
    obtain rfl : r = r' := Except.ok.inj (hparse.symm.trans hparse')
    have hsome : ∃ t path, Succeeds env outcome r stream t path := by
      rcases hstored with hsize | hstored
      · -- an empty file has no chunks
        simp [UploadRequest.received, hsize] at hc
      · obtain ⟨i, hi⟩ := List.exists_mem_of_ne_nil _ hstored
        obtain ⟨t, path, ht, -⟩ := mem_storedReplicas.mp (List.mem_map_of_mem hi)
        exact ⟨t, path, ht⟩
    obtain ⟨t, path, ht, hid, hserver, hpath⟩ := h r hparse haccepted hsome c hc
    refine ⟨t, path, ht, hid, ?_⟩
    rw [upload_commits _ _ _ _ _ _ hparse hsuccess]
    exact (placement_mem_commit_iff hname hhash ht).mpr ⟨hserver, hpath⟩

/-- One server, and a file of two chunks. -/
def oneServer : UploadEnv where
  registry :=
    { servers := (∅ : Map Int ServerEntry).insert 1
        { id := 1, host := ascii "10.0.0.1", port := 8080, transferPort := 8180,
          publicPort := 8280 }
      nextId := 2 }

def twoChunkRequest : Bytes :=
  ascii "UPLOAD f 2 2 38164fbd17603d73f696b8b4d72664d735bb6a7c88577687fd2ae33fd6964153"

def twoChunkStream : Bytes :=
  ascii "CHUNK 0 1 559aead08264d5795d3909718cdd05abd49572e84fe55590eef31a88a08fdffd\nA" ++
  ascii "CHUNK 1 1 df7e70e5021544f4834bbee64a9e3789febc4be81470df629cad6ddb03320a5c\nB" ++
  ascii "EOF\n"

set_option maxRecDepth 100000 in
/-- The transfer of chunk 1 fails, the upload succeeds, and chunk 1 is nowhere. -/
theorem upload_loses_chunk :
    let result := handleClientUpload (withOutcomes fun i =>
      if i = 0 then some (ascii "/c/0.dat") else none) oneServer () ∅ twoChunkRequest twoChunkStream
    result.2.2 = success ∧
      (parseUploadRequest oneServer.chunkSize twoChunkRequest).toOption.map (fun r =>
        (r.filename, (r.received twoChunkStream).1.map (·.chunkId))) = some (ascii "f", [0, 1]) ∧
      (result.2.1.placementsOf (ascii "f")).map (·.chunkId) = [0] := by
  decide +kernel

end FileGrid
