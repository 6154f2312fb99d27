import FileGrid.Grid.Steps

/-!
# The client

`file_upload` and `file_download`.  An upload splits the file into chunks of a fixed size and sends
them one after the other, each with its hash; a download reads the plan the head sends, fetches each
chunk from the node it names, checks it, and puts the chunks together by their identifiers.

What the two ends of a connection make of each other is settled here.

* `uploadRequest_parsed`, `uploadStream_received` — if the head accepts an upload, it has the name,
  the hash and exactly the chunks of the client.
* `readPlan_downloadText` — the plan the client reads is the plan the head made.
* `fetchChunk_eq` — a chunk that the registry of a running node leads to is fetched.
-/

namespace FileGrid

/-! ## Uploading -/

/-- The chunks of a file. -/
def clientChunks (chunkSize : Nat) (content : Bytes) : List Bytes :=
  let numChunks := if content.length = 0 then 0 else (content.length + chunkSize - 1) / chunkSize
  (List.range numChunks).map fun i => (content.drop (i * chunkSize)).take chunkSize

/-- The hash of a file, which is read in pieces of 64 KiB. -/
def clientHash (content : Bytes) : Bytes :=
  ((clientChunks (64 * 1024) content).foldl SHA256.update SHA256.reset).digest

/-- The request line, without its newline. -/
def uploadRequest (chunkSize : Nat) (fileName content : Bytes) : Bytes :=
  ascii "UPLOAD" ++ 32 :: (fileName ++ 32 :: (natDec content.length ++ 32 ::
    (natDec (clientChunks chunkSize content).length ++ 32 :: clientHash content)))

def chunkFrame (i : Nat) (data : Bytes) : Bytes :=
  ascii "CHUNK " ++ natDec i ++ 32 :: (natDec data.length ++ 32 :: sha256 data) ++ 10 :: data

/-- The frames of chunks numbered from `i` on. -/
def chunkFrames : Nat → List Bytes → Bytes
  | _, [] => []
  | i, data :: parts => chunkFrame i data ++ chunkFrames (i + 1) parts

/-- What the client sends after the request has been answered `READY`. -/
def uploadStream (chunkSize : Nat) (content : Bytes) : Bytes :=
  chunkFrames 0 (clientChunks chunkSize content) ++ ascii "EOF\n"

/-- `file_upload` against the grid; the client returns 0 if the answer is `SUCCESS`. -/
def fileUpload (d : Deployment) (env : RequestEnv) (g : Grid) (chunkSize : Nat)
    (fileName content : Bytes) : Grid × Bool :=
  match clientRequest (uploadRequest chunkSize fileName content ++ ascii "\n") with
  | .upload initialReq =>
      let (g', ended) := gridUpload d env g initialReq (uploadStream chunkSize content)
      (g', ended = success)
  | _ => (g, false)

/-! ## Downloading -/

/-- A `CHUNK_LOC` line. -/
structure ChunkLoc where
  id : Int
  ip : Bytes
  port : Int
  hash : Bytes
deriving DecidableEq

def parseChunkLoc (s : Bytes) : Option ChunkLoc := do
  let (id, rest) ← readI32 s
  let (ip, rest) ← readWord rest
  let (port, rest) ← readI32 rest
  let (hash, _) ← readWord rest
  return { id, ip, port, hash }

/-- The loop over the lines the head sends: the hash of the file and the chunks, or `none` if the
client gives up. -/
def readPlan (fileHash : Bytes) (chunks : List ChunkLoc) :
    List Bytes → Option (Bytes × List ChunkLoc)
  | [] => none
  | line :: rest =>
      if line = [] then none
      else if ascii "ERROR:" <+: line then none
      else if ascii "FILE_HASH " <+: line then readPlan (line.drop 10) chunks rest
      else if ascii "CHUNKS " <+: line then readPlan fileHash chunks rest
      else if ascii "CHUNK_LOC " <+: line then
        match parseChunkLoc (line.drop 10) with
        | none => none
        | some c => readPlan fileHash (chunks ++ [c]) rest
      else if line = ascii "EOF" then some (fileHash, chunks)
      else readPlan fileHash chunks rest

def getChunkRequest (fileName : Bytes) (id : Int) : Bytes :=
  ascii "GET_CHUNK " ++ (dec id ++ 32 :: fileName)

/-- What a node of the grid answers to the request of a thread, if there is a connection. -/
def gridAnswer (net : Network) (nodes : Nodes) (fileName : Bytes) (c : ChunkLoc) :
    Option Bytes := do
  let ip ← inetPton c.ip
  let n ← net.publicAt ip (htons c.port)
  return if (nodes n).running then
    (nodes n).publicRequest (getChunkRequest fileName c.id ++ ascii "\n") else []

/-- One thread of a download, with what the node sends before it closes the connection: the bytes of
the chunk, if they arrive and have the hash. -/
def fetchFrom (answer : Option Bytes) (c : ChunkLoc) : Option Bytes := do
  let _ ← inetPton c.ip
  let resp ← answer
  let (line, rest) := readLine resp
  if ascii "CHUNK_SIZE " <+: line then
    let size ← stoull (line.drop 11)
    if rest.length < size then none
    else if sha256 (rest.take size) ≠ c.hash then none
    else some (rest.take size)
  else none

def fetchChunk (net : Network) (nodes : Nodes) (fileName : Bytes) (c : ChunkLoc) : Option Bytes :=
  fetchFrom (gridAnswer net nodes fileName c) c

/-- What all the threads verified, by announcement; `none` if one of them failed. -/
def fetchAll (fetch : Nat → ChunkLoc → Option Bytes) (chunks : List ChunkLoc) :
    Option (List (Int × Bytes)) :=
  chunks.zipIdx.mapM fun ci => (fetch ci.2 ci.1).map (ci.1.id, ·)

/-- `chunk_data`, filled in the order the threads finish. -/
def collectChunks (schedule : Schedule) (fetched : List (Int × Bytes)) : Map Int Bytes :=
  ((schedule.order fetched.length).filterMap (fetched[·]?)).foldl
    (fun m p => m.insert p.1 p.2) ∅

/-- `file_download`, from the text the head sends on: what is written to the output file, if the
client returns 0.  The counter is a `size_t`, the keys of `chunk_data` are `int`s. -/
def downloadWith (fetch : Nat → ChunkLoc → Option Bytes) (schedule : Schedule) (text : Bytes) :
    Option Bytes := do
  let (fileHash, chunks) ← readPlan [] [] (lines text)
  let fetched ← fetchAll fetch chunks
  let chunkData := collectChunks schedule fetched
  let written := (List.range chunks.length).map fun i : Nat => (chunkData[wrap32 i]?).getD []
  let hash := (written.foldl SHA256.update SHA256.reset).digest
  if fileHash ≠ [] ∧ hash ≠ fileHash then none else some written.flatten

/-- `file_download` with the answers of the grid's nodes. -/
def fileDownload (net : Network) (nodes : Nodes) (schedule : Schedule) (fileName text : Bytes) :
    Option Bytes :=
  downloadWith (fun _ => fetchChunk net nodes fileName) schedule text

/-- `file_download` against the grid. -/
def gridDownload (d : Deployment) (env : DownloadEnv) (schedule : Schedule) (g : Grid)
    (fileName : Bytes) : Option Bytes :=
  match clientRequest (ascii "DOWNLOAD " ++ fileName ++ ascii "\n") with
  | .download filename =>
      let (nodes, text) := streamFileToClient d env g.nodes g.metadata filename
      fileDownload d.net nodes schedule fileName text
  | _ => none

/-! ## The chunks of a file -/

lemma flatten_range_take {k : Nat} (l : Bytes) (n : Nat) :
    ((List.range n).map fun i => (l.drop (i * k)).take k).flatten = l.take (n * k) := by
  induction n with
  | zero => simp
  | succ n ih =>
      rw [List.range_succ, List.map_append, List.flatten_append, ih, Nat.succ_mul, List.take_add]
      simp

lemma clientChunks_flatten {chunkSize : Nat} (h : 0 < chunkSize) (content : Bytes) :
    (clientChunks chunkSize content).flatten = content := by
  unfold clientChunks
  dsimp only
  rw [flatten_range_take]
  split_ifs with hlen
  · simp [List.length_eq_zero_iff.mp hlen]
  · refine List.take_of_length_le ?_
    have := Nat.lt_div_mul_add h (a := content.length + chunkSize - 1)
    omega

lemma clientChunks_ne_nil {chunkSize : Nat} (h : 0 < chunkSize) {content data : Bytes}
    (hdata : data ∈ clientChunks chunkSize content) : data ≠ [] := by
  unfold clientChunks at hdata
  dsimp only at hdata
  obtain ⟨i, hi, rfl⟩ := List.mem_map.mp hdata
  rw [List.mem_range] at hi
  split_ifs at hi with hlen
  · omega
  · have hlt : i * chunkSize < content.length := by
      have h1 : (i + 1) * chunkSize ≤ content.length + chunkSize - 1 :=
        (Nat.mul_le_mul_right _ hi).trans (Nat.div_mul_le_self _ _)
      rw [Nat.succ_mul] at h1
      omega
    rw [← List.length_pos_iff, List.length_take, List.length_drop]
    omega

lemma clientChunks_length_le {chunkSize : Nat} {content data : Bytes}
    (hdata : data ∈ clientChunks chunkSize content) : data.length ≤ content.length := by
  unfold clientChunks at hdata
  obtain ⟨i, -, rfl⟩ := List.mem_map.mp hdata
  rw [List.length_take, List.length_drop]
  omega

lemma clientHash_eq (content : Bytes) : clientHash content = sha256 content := by
  rw [clientHash, digest_foldl_update, clientChunks_flatten (by norm_num)]

/-! ## What the head makes of an upload -/

/-- A line that fits the buffer and has no NUL is received as it was sent. -/
lemma received_eq {line : Bytes} (hlen : line.length ≤ 1023) (hnul : (0 : UInt8) ∉ line) :
    (line.take 1023).takeWhile (· ≠ 0) = line := by
  rw [List.take_of_length_le hlen, List.takeWhile_eq_self_iff]
  intro b hb
  simpa using fun h : b = 0 => hnul (h ▸ hb)

lemma zero_not_mem_natDec (n : Nat) : (0 : UInt8) ∉ natDec n := by
  intro h
  have := isDigit_of_mem_natDec h
  simp [isDigit] at this

lemma zero_not_mem_uploadRequest {chunkSize : Nat} {fileName content : Bytes}
    (hnul : (0 : UInt8) ∉ fileName) : (0 : UInt8) ∉ uploadRequest chunkSize fileName content := by
  have hcmd : (0 : UInt8) ∉ ascii "UPLOAD" := by decide
  intro h
  simp only [uploadRequest, clientHash_eq, List.mem_append, List.mem_cons] at h
  rcases h with h | h | h | h | h | h | h | h | h
  · exact hcmd h
  · exact absurd h (by decide)
  · exact hnul h
  · exact absurd h (by decide)
  · exact zero_not_mem_natDec _ h
  · exact absurd h (by decide)
  · exact zero_not_mem_natDec _ h
  · exact absurd h (by decide)
  · exact (plain_of_mem_sha256 h).2 rfl

/-- A newline after a word is trimmed, and nothing else. -/
lemma rdropWhile_word {p : UInt8 → Bool} {s w : Bytes} (hw : Word w)
    (hp : ∀ b, p b = true → isSpace b = true) (hnl : p 10 = true) :
    (s ++ w ++ [10]).rdropWhile p = s ++ w := by
  rw [List.rdropWhile_concat_pos p _ _ hnl]
  rcases List.eq_nil_or_concat w with rfl | ⟨init, b, hb⟩
  · exact absurd rfl hw.1
  · rw [List.concat_eq_append] at hb
    have hpb : ¬ p b = true := by
      intro h
      have := hp b h
      rw [hw.2 b (by rw [hb]; simp)] at this
      cases this
    rw [hb, ← List.append_assoc, List.rdropWhile_concat_neg p _ _ hpb]

/-- The request of a client is dispatched to the upload handler as it was sent. -/
lemma clientRequest_upload {chunkSize : Nat} {fileName content : Bytes}
    (hlen : (uploadRequest chunkSize fileName content).length < 1023)
    (hnul : (0 : UInt8) ∉ fileName) :
    clientRequest (uploadRequest chunkSize fileName content ++ ascii "\n") =
      .upload (uploadRequest chunkSize fileName content) := by
  have hline : (0 : UInt8) ∉ uploadRequest chunkSize fileName content ++ ascii "\n" := by
    intro h
    rcases List.mem_append.mp h with h | h
    · exact zero_not_mem_uploadRequest hnul h
    · revert h; decide
  have hrecv := received_eq (by simpa [ascii] using hlen) hline
  have hform : ∃ rest : Bytes, uploadRequest chunkSize fileName content ++ ascii "\n" =
      [85, 80, 76, 79, 65, 68, 32] ++ rest := ⟨_, rfl⟩
  have htrim : (uploadRequest chunkSize fileName content ++ ascii "\n").rdropWhile
      (fun b => decide (b = 10 ∨ b = 13)) = uploadRequest chunkSize fileName content := by
    have hsplit : uploadRequest chunkSize fileName content =
        (ascii "UPLOAD" ++ 32 :: (fileName ++ 32 :: (natDec content.length ++ 32 ::
          (natDec (clientChunks chunkSize content).length ++ [32])))) ++ clientHash content := by
      simp [uploadRequest]
    rw [hsplit]
    refine rdropWhile_word (clientHash_eq content ▸ word_sha256 content) ?_ (by decide)
    intro b hb
    rcases of_decide_eq_true hb with rfl | rfl <;> decide
  simp only [clientRequest, hrecv]
  rw [htrim]
  obtain ⟨rest, hrest⟩ := hform
  rw [hrest, if_neg (by simp [ascii]), if_neg (by simp [ascii]), if_pos (by simp [ascii])]

/-- **What the head reads in the request of a client**, if it can read it at all. -/
theorem uploadRequest_parsed {headChunkSize chunkSize : Nat} {fileName content : Bytes}
    (hname : Word fileName) {r : UploadRequest}
    (h : parseUploadRequest headChunkSize (uploadRequest chunkSize fileName content) = .ok r) :
    r = { filename := fileName, fileSize := content.length,
          numChunks := (clientChunks chunkSize content).length, fileHash := sha256 content } ∧
      content.length ≤ 2 ^ 64 - 1 := by
  have hwords : words (uploadRequest chunkSize fileName content) =
      [ascii "UPLOAD", fileName, natDec content.length,
        natDec (clientChunks chunkSize content).length, sha256 content] := by
    rw [uploadRequest, clientHash_eq, words_append_space _ (by decide) (by decide),
      words_append_space _ hname (by decide), words_append_space _ (word_natDec _) (by decide),
      words_append_space _ (word_natDec _) (by decide), words_single (word_sha256 _)]
  unfold parseUploadRequest at h
  rw [hwords] at h
  dsimp only at h
  rw [if_neg (by simp), stoull_natDec, stoull_natDec] at h
  split_ifs at h with hsize hnum
  · cases h
    exact ⟨rfl, hsize⟩
  · cases h
  · cases h
  · cases h

/-- The chunks as they are received. -/
def receivedFrom : Nat → List Bytes → List ReceivedChunk
  | _, [] => []
  | i, data :: parts =>
      { chunkId := i, data, checksum := sha256 data } :: receivedFrom (i + 1) parts

lemma mem_receivedFrom {i : Nat} {parts : List Bytes} {c : ReceivedChunk} :
    c ∈ receivedFrom i parts ↔ ∃ (k : Nat) (data : Bytes), parts[k]? = some data ∧
      c = { chunkId := ((i + k : Nat) : Int), data, checksum := sha256 data } := by
  induction parts generalizing i with
  | nil => simp [receivedFrom]
  | cons data parts ih =>
      rw [receivedFrom, List.mem_cons, ih]
      constructor
      · rintro (rfl | ⟨k, data', hk, rfl⟩)
        · exact ⟨0, data, rfl, rfl⟩
        · exact ⟨k + 1, data', hk, by rw [show i + 1 + k = i + (k + 1) from by omega]⟩
      · rintro ⟨k, data', hk, rfl⟩
        cases k with
        | zero =>
            cases hk
            exact Or.inl rfl
        | succ k =>
            exact Or.inr ⟨k, data', hk, by rw [show i + 1 + k = i + (k + 1) from by omega]⟩

/-- The header of a frame is read back, if its number is an `int`. -/
lemma parseChunkHeader_frame {i : Nat} {data : Bytes} (hi : i < 2 ^ 31)
    (hdata : data.length ≤ 2 ^ 64 - 1) :
    parseChunkHeader (natDec i ++ 32 :: (natDec data.length ++ 32 :: sha256 data)) =
      some ((i : Int), data.length, sha256 data) := by
  have hdigit : ∀ s : Bytes, Stops isDigit (32 :: s) := fun s => stops_cons s (by decide)
  have hhash := readWord_append (word_sha256 data) (stops_nil (! isSpace ·))
  rw [List.append_nil] at hhash
  rw [parseChunkHeader, ← dec_natCast i, readI32_dec (by omega) (by omega) (hdigit _)]
  simp only [Option.bind_eq_bind, Option.bind_some,
    readU64_space _ (show isSpace 32 = true from rfl), readU64_natDec hdata (hdigit _),
    readWord_space _ (show isSpace 32 = true from rfl), hhash]
  rfl

lemma parseChunkHeader_frame_of_le {i : Nat} {rest : Bytes} (hi : 2 ^ 31 ≤ i) :
    parseChunkHeader (natDec i ++ 32 :: rest) = none := by
  rw [parseChunkHeader, ← dec_natCast i, readI32,
    readInt_dec_of_lt (by omega) (stops_cons _ (by decide))]
  rfl

lemma readLine_frame (i : Nat) (data rest : Bytes) :
    readLine (chunkFrame i data ++ rest) =
      (ascii "CHUNK " ++ (natDec i ++ 32 :: (natDec data.length ++ 32 :: sha256 data)),
        data ++ rest) := by
  have hcmd : (10 : UInt8) ∉ ascii "CHUNK " := by decide
  have hline : (10 : UInt8) ∉ ascii "CHUNK " ++ (natDec i ++ 32 :: (natDec data.length ++ 32 ::
      sha256 data)) := by
    intro h
    simp only [List.mem_append, List.mem_cons] at h
    rcases h with h | h | h | h | h | h
    · exact hcmd h
    · exact (word_natDec i).not_mem_newline h
    · exact absurd h (by decide)
    · exact (word_natDec _).not_mem_newline h
    · exact absurd h (by decide)
    · exact (word_sha256 data).not_mem_newline h
  rw [← readLine_append (data ++ rest) hline]
  congr 1
  simp [chunkFrame]

section

variable {allocates : Nat → Bool} {i : Nat} {data : Bytes} (rest : Bytes)

/-- One frame is received as one chunk, if its number is an `int` and there is memory for it. -/
lemma receiveRound_frame (hi : i < 2 ^ 31) (hdata : data.length ≤ 2 ^ 64 - 1)
    (halloc : allocates data.length = true) :
    receiveRound .stream allocates (chunkFrame i data ++ rest) =
      (.ok { chunkId := i, data, checksum := sha256 data }, rest) :=
  receiveRound_ok_iff.mpr ⟨⟨_, readLine_frame i data rest, List.prefix_append _ _,
    parseChunkHeader_frame hi hdata, rfl⟩, halloc⟩

/-- If its number is no `int`, the header is refused. -/
lemma receiveRound_frame_of_le (hi : 2 ^ 31 ≤ i) :
    ∃ text, (receiveRound .stream allocates (chunkFrame i data ++ rest)).1 =
      .error (some (.reply text)) := by
  rw [receiveRound, show Source.stream.readLine (chunkFrame i data ++ rest) = _ from
    readLine_frame i data rest]
  dsimp only
  rw [if_neg (by simp [ascii]), if_pos (List.prefix_append _ _),
    show (ascii "CHUNK " ++ (natDec i ++ 32 :: (natDec data.length ++ 32 :: sha256 data))).drop 6 =
      natDec i ++ 32 :: (natDec data.length ++ 32 :: sha256 data) from rfl,
    parseChunkHeader_frame_of_le hi]
  exact ⟨_, rfl⟩

end

/-- **The head receives the chunks the client sends**, if it receives them to the end. -/
theorem receiveChunks_frames {i : Nat} {parts : List Bytes} {rest : Bytes}
    (hparts : ∀ data ∈ parts, data.length ≤ 2 ^ 64 - 1)
    (h : (receiveChunks parts.length (chunkFrames i parts ++ rest)).2 = none) :
    (receiveChunks parts.length (chunkFrames i parts ++ rest)).1 = receivedFrom i parts ∧
      (parts ≠ [] → i + parts.length ≤ 2 ^ 31) := by
  induction parts generalizing i with
  | nil => exact ⟨rfl, by simp⟩
  | cons data parts ih =>
      rw [chunkFrames, List.append_assoc, List.length_cons] at h ⊢
      rcases Nat.lt_or_ge i (2 ^ 31) with hi | hi
      · rw [receiveChunks_of_ok parts.length (receiveRound_frame _ hi
          (hparts data List.mem_cons_self) rfl)] at h ⊢
        obtain ⟨hrest, hlen⟩ := ih (fun x hx => hparts x (List.mem_cons_of_mem _ hx)) h
        refine ⟨by rw [receivedFrom, hrest], fun _ => ?_⟩
        rcases eq_or_ne parts [] with rfl | hne
        · simpa using hi
        · have := hlen hne
          omega
      · obtain ⟨text, hround⟩ := receiveRound_frame_of_le (chunkFrames (i + 1) parts ++ rest) hi
        rw [receiveChunks_of_error parts.length hround] at h
        cases h

lemma clientChunks_nil {chunkSize : Nat} {content : Bytes} (h : content.length = 0) :
    clientChunks chunkSize content = [] := by
  simp [clientChunks, h]

/-- **If the head takes the upload of a client to its end, it has the chunks of the client.** -/
theorem uploadStream_received {chunkSize : Nat} {content : Bytes} {r : UploadRequest}
    (hsize : r.fileSize = content.length)
    (hnum : r.numChunks = (clientChunks chunkSize content).length)
    (hlen : content.length ≤ 2 ^ 64 - 1)
    (h : (r.received (uploadStream chunkSize content)).2 = none) :
    (r.received (uploadStream chunkSize content)).1 =
        receivedFrom 0 (clientChunks chunkSize content) ∧
      (clientChunks chunkSize content).length ≤ 2 ^ 31 := by
  unfold UploadRequest.received at h ⊢
  by_cases hempty : r.fileSize = 0
  · have hnil : clientChunks chunkSize content = [] := clientChunks_nil (hsize ▸ hempty)
    rw [if_pos hempty, hnil]
    exact ⟨rfl, by simp⟩
  · rw [if_neg hempty, hnum] at h ⊢
    obtain ⟨hreceived, hcount⟩ := receiveChunks_frames
      (fun data hdata => (clientChunks_length_le hdata).trans hlen) h
    refine ⟨hreceived, ?_⟩
    rcases eq_or_ne (clientChunks chunkSize content) [] with hnil | hne
    · simp [hnil]
    · have := hcount hne
      omega

lemma nodup_receivedFrom (i : Nat) (parts : List Bytes) :
    ((receivedFrom i parts).map (·.chunkId)).Nodup := by
  induction parts generalizing i with
  | nil => simp [receivedFrom]
  | cons data parts ih =>
      rw [receivedFrom, List.map_cons, List.nodup_cons]
      refine ⟨fun hmem => ?_, ih (i + 1)⟩
      obtain ⟨c, hc, hid⟩ := List.mem_map.mp hmem
      obtain ⟨k, data', -, rfl⟩ := mem_receivedFrom.mp hc
      simp only at hid
      omega

/-! ## What the client makes of a download -/

lemma clientRequest_download {fileName : Bytes} (hname : Word fileName)
    (hnul : (0 : UInt8) ∉ fileName) (hlen : fileName.length ≤ 1013) :
    clientRequest (ascii "DOWNLOAD " ++ fileName ++ ascii "\n") = .download fileName := by
  have hcmd : (0 : UInt8) ∉ ascii "DOWNLOAD " := by decide
  have hline : (0 : UInt8) ∉ ascii "DOWNLOAD " ++ fileName ++ ascii "\n" := by
    intro h
    simp only [List.mem_append] at h
    rcases h with (h | h) | h
    · exact hcmd h
    · exact hnul h
    · exact absurd h (by decide)
  have hfit : (ascii "DOWNLOAD " ++ fileName ++ ascii "\n").length ≤ 1023 := by
    have h9 : (ascii "DOWNLOAD ").length = 9 := rfl
    have h1 : (ascii "\n").length = 1 := rfl
    simp only [List.length_append]
    omega
  have hget : ascii "DOWNLOAD " <+: ascii "DOWNLOAD " ++ fileName ++ ascii "\n" := by
    rw [List.append_assoc]
    exact List.prefix_append _ _
  have hdrop : (ascii "DOWNLOAD " ++ fileName ++ ascii "\n").drop 9 = [] ++ fileName ++ [10] := by
    rw [List.append_assoc]
    rfl
  unfold clientRequest
  dsimp only
  rw [received_eq hfit hline, if_pos hget, hdrop, rdropWhile_word hname ?_ (by decide)]
  · rfl
  · intro b hb
    rcases of_decide_eq_true hb with rfl | rfl <;> decide

lemma mapM_eq_some {α β : Type} {f : α → Option β} {g : α → β} {l : List α}
    (h : ∀ a ∈ l, f a = some (g a)) : l.mapM f = some (l.map g) := by
  induction l with
  | nil => rfl
  | cons a l ih =>
      rw [List.mapM_cons, h a List.mem_cons_self, ih fun b hb => h b (List.mem_cons_of_mem _ hb)]
      rfl

/-- The line of a plan, as the client reads it. -/
def ChunkFetchPlan.loc (d : Deployment) (p : ChunkFetchPlan) : ChunkLoc where
  id := p.chunkId
  ip := p.bestServer.serverIp.takeWhile (· ≠ colon)
  port := d.publicPort p.bestServer.serverIp
  hash := p.majorityHash

/-- The fields of a plan fit on its line. -/
structure ChunkFetchPlan.Printable (d : Deployment) (p : ChunkFetchPlan) : Prop where
  id_lo : -2 ^ 31 ≤ p.chunkId
  id_hi : p.chunkId ≤ 2 ^ 31 - 1
  host : Word (p.bestServer.serverIp.takeWhile (· ≠ colon))
  port_lo : -2 ^ 31 ≤ d.publicPort p.bestServer.serverIp
  port_hi : d.publicPort p.bestServer.serverIp ≤ 2 ^ 31 - 1
  hash : Word p.majorityHash

section

variable {d : Deployment}

lemma parseChunkLoc_line {p : ChunkFetchPlan} (hp : p.Printable d) :
    parseChunkLoc ((chunkLocLine d p).drop 10) = some (p.loc d) := by
  have hdigit : ∀ s : Bytes, Stops isDigit (32 :: s) := fun s => stops_cons s (by decide)
  have hspace : ∀ s : Bytes, Stops (! isSpace ·) (32 :: s) := fun s => stops_cons s (by decide)
  have hword : ∀ s : Bytes, readWord (32 :: s) = readWord s := fun s => readWord_space s (by decide)
  have hint : ∀ s : Bytes, readI32 (32 :: s) = readI32 s := fun s => readInt_space s (by decide)
  have hhash := readWord_append hp.hash (stops_nil (! isSpace ·))
  rw [List.append_nil] at hhash
  have hdrop : (chunkLocLine d p).drop 10 = dec p.chunkId ++ 32 ::
      (p.bestServer.serverIp.takeWhile (· ≠ colon) ++
        32 :: (dec (d.publicPort p.bestServer.serverIp) ++ 32 :: p.majorityHash)) := rfl
  rw [hdrop, parseChunkLoc, readI32_dec hp.id_lo hp.id_hi (hdigit _)]
  simp only [Option.bind_eq_bind, Option.bind_some, hword, readWord_append hp.host (hspace _), hint,
    readI32_dec hp.port_lo hp.port_hi (hdigit _), hhash]
  rfl

lemma chunkLocLine_newline {p : ChunkFetchPlan} (hp : p.Printable d) :
    (10 : UInt8) ∉ chunkLocLine d p := by
  have hcmd : (10 : UInt8) ∉ ascii "CHUNK_LOC " := by decide
  intro h
  simp only [chunkLocLine, List.mem_append, List.mem_cons] at h
  rcases h with h | h | h | h | h | h | h | h
  · exact hcmd h
  · exact (word_dec _).not_mem_newline h
  · exact absurd h (by decide)
  · exact hp.host.not_mem_newline h
  · exact absurd h (by decide)
  · exact (word_dec _).not_mem_newline h
  · exact absurd h (by decide)
  · exact hp.hash.not_mem_newline h

lemma readPlan_locs {plans : List ChunkFetchPlan} (hplans : ∀ p ∈ plans, p.Printable d)
    (fileHash : Bytes) (chunks : List ChunkLoc) (rest : List Bytes) :
    readPlan fileHash chunks (plans.map (chunkLocLine d) ++ rest) =
      readPlan fileHash (chunks ++ plans.map (·.loc d)) rest := by
  induction plans generalizing chunks with
  | nil => simp
  | cons p plans ih =>
      have hloc : ascii "CHUNK_LOC " <+: chunkLocLine d p := List.prefix_append _ _
      rw [List.map_cons, List.cons_append, readPlan,
        if_neg (by simp [chunkLocLine, ascii]), if_neg (by simp [chunkLocLine, ascii]),
        if_neg (by simp [chunkLocLine, ascii]), if_neg (by simp [chunkLocLine, ascii]),
        if_pos hloc, parseChunkLoc_line (hplans p List.mem_cons_self)]
      dsimp only
      rw [ih (fun q hq => hplans q (List.mem_cons_of_mem _ hq))]
      simp

lemma lines_locs {plans : List ChunkFetchPlan} (hplans : ∀ p ∈ plans, p.Printable d)
    (rest : Bytes) : lines ((plans.flatMap fun p => chunkLocLine d p ++ [10]) ++ rest) =
      plans.map (chunkLocLine d) ++ lines rest := by
  induction plans with
  | nil => rfl
  | cons p plans ih =>
      rw [List.flatMap_cons, List.map_cons, List.append_assoc, List.append_assoc,
        List.singleton_append, lines_append _ (chunkLocLine_newline (hplans p List.mem_cons_self)),
        ih fun q hq => hplans q (List.mem_cons_of_mem _ hq)]
      rfl

lemma readPlan_fileHash {fileHash fileHash' : Bytes} (chunks : List ChunkLoc) (rest : List Bytes) :
    readPlan fileHash chunks (fileHashLine fileHash' :: rest) = readPlan fileHash' chunks rest := by
  have hcmd : ascii "FILE_HASH " <+: fileHashLine fileHash' := List.prefix_append _ _
  rw [readPlan, if_neg (by simp [fileHashLine, ascii]), if_neg (by simp [fileHashLine, ascii]),
    if_pos hcmd]
  rfl

lemma fileHashLine_newline {fileHash : Bytes} (h : (10 : UInt8) ∉ fileHash) :
    (10 : UInt8) ∉ fileHashLine fileHash := by
  have hcmd : (10 : UInt8) ∉ ascii "FILE_HASH " := by decide
  intro hmem
  rcases List.mem_append.mp hmem with hmem | hmem
  · exact hcmd hmem
  · exact h hmem

/-- The end of every answer that is not an error. -/
lemma readPlan_end {fileHash : Bytes} (h : (10 : UInt8) ∉ fileHash) (chunks : List ChunkLoc)
    (fileHash' : Bytes) :
    readPlan fileHash' chunks (lines (fileHashLine fileHash ++ 10 :: ascii "EOF\n")) =
      some (fileHash, chunks) := by
  rw [lines_append _ (fileHashLine_newline h), readPlan_fileHash]
  rfl

/-- **The client reads the plan the head made.** -/
theorem readPlan_downloadText {plans : List ChunkFetchPlan} (hplans : ∀ p ∈ plans, p.Printable d)
    {fileHash : Bytes} (hhash : (10 : UInt8) ∉ fileHash) (n : Nat) :
    readPlan [] [] (lines (fileHashLine fileHash ++ 10 :: (ascii "CHUNKS " ++ natDec n ++ [10]) ++
        (plans.flatMap fun p => chunkLocLine d p ++ [10]) ++
        (fileHashLine fileHash ++ 10 :: ascii "EOF\n"))) =
      some (fileHash, plans.map (·.loc d)) := by
  have hcount : (10 : UInt8) ∉ ascii "CHUNKS " ++ natDec n := by
    have hcmd : (10 : UInt8) ∉ ascii "CHUNKS " := by decide
    intro h
    rcases List.mem_append.mp h with h | h
    · exact hcmd h
    · exact (word_natDec n).not_mem_newline h
  have hform : fileHashLine fileHash ++ 10 :: (ascii "CHUNKS " ++ natDec n ++ [10]) ++
        (plans.flatMap fun p => chunkLocLine d p ++ [10]) ++
        (fileHashLine fileHash ++ 10 :: ascii "EOF\n") =
      fileHashLine fileHash ++ 10 :: ((ascii "CHUNKS " ++ natDec n) ++ 10 ::
        ((plans.flatMap fun p => chunkLocLine d p ++ [10]) ++
          (fileHashLine fileHash ++ 10 :: ascii "EOF\n"))) := by simp
  rw [hform, lines_append _ (fileHashLine_newline hhash), lines_append _ hcount, lines_locs hplans,
    readPlan_fileHash, readPlan, if_neg (by simp [ascii]), if_neg (by simp [ascii]),
    if_neg (by simp [ascii]), if_pos (List.prefix_append _ _), readPlan_locs hplans,
    readPlan_end hhash]
  rfl

end

/-! ### Fetching a chunk -/

lemma readLine_take {l s : Bytes} {k : Nat} (hl : (10 : UInt8) ∉ l) (hk : l.length ≤ k) :
    (readLine ((l ++ 10 :: s).take k)).1 = l := by
  rw [List.take_append, List.take_of_length_le hk]
  cases hrest : (10 :: s).take (k - l.length) with
  | nil =>
      rw [List.append_nil, readLine, List.takeWhile_eq_self_iff]
      intro b hb
      simpa using fun h : b = 10 => hl (h ▸ hb)
  | cons b rest =>
      have hb : b = 10 := by
        cases hsub : k - l.length with
        | zero => rw [hsub] at hrest; cases hrest
        | succ j =>
            rw [hsub, List.take_succ_cons] at hrest
            exact (List.cons.inj hrest).1.symm
      rw [hb, readLine_append _ hl]

/-- What a node answers to a request for a chunk its registry leads to. -/
lemma publicRequest_eq {node : Node} {fileName path data : Bytes} {id : Int}
    (hname : Word fileName) (hlen : (getChunkRequest fileName id).length ≤ 255)
    (hreg : node.chunkRegistry[chunkKey fileName id]? = some path)
    (hdisk : node.disk[path]? = some data) (hdata : data ≠ []) :
    node.publicRequest (getChunkRequest fileName id ++ ascii "\n") =
      ascii "CHUNK_SIZE " ++ natDec data.length ++ ascii "\n" ++ data := by
  have hcmd : (10 : UInt8) ∉ ascii "GET_CHUNK " := by decide
  have hline : (10 : UInt8) ∉ getChunkRequest fileName id := by
    intro h
    simp only [getChunkRequest, List.mem_append, List.mem_cons] at h
    rcases h with h | h | h | h
    · exact hcmd h
    · exact (word_dec id).not_mem_newline h
    · exact absurd h (by decide)
    · exact hname.not_mem_newline h
  have hread : (readLine ((getChunkRequest fileName id ++ ascii "\n").take 255)).1 =
      getChunkRequest fileName id := readLine_take hline hlen
  have hdrop : (getChunkRequest fileName id).drop 10 = dec id ++ 32 :: fileName := rfl
  have hfile := readWord_append hname (stops_nil (! isSpace ·))
  rw [List.append_nil] at hfile
  have hstop : Stops (! isSpace ·) (32 :: fileName) := stops_cons _ (by decide)
  have hkey : fileName ++ ascii "_chunk_" ++ dec id = chunkKey fileName id := rfl
  have hget : ascii "GET_CHUNK " <+: getChunkRequest fileName id := List.prefix_append _ _
  rw [Node.publicRequest, hread]
  dsimp only
  rw [if_pos hget, hdrop, readWord_append (word_dec id) hstop]
  simp only [Option.getD_some, readWord_space _ (show isSpace 32 = true from rfl), hfile,
    Option.map_some, hkey, Node.retrieveChunk, hreg, hdisk, if_pos hdata]

/-- **A chunk that the registry of a running node leads to is fetched.** -/
theorem fetchChunk_eq {net : Network} {nodes : Nodes} {fileName path data : Bytes} {c : ChunkLoc}
    {ip : List Nat} {n : Nat} (hip : inetPton c.ip = some ip)
    (hn : net.publicAt ip (htons c.port) = some n) (hrun : (nodes n).running = true)
    (hname : Word fileName) (hlen : (getChunkRequest fileName c.id).length ≤ 255)
    (hreg : (nodes n).chunkRegistry[chunkKey fileName c.id]? = some path)
    (hdisk : (nodes n).disk[path]? = some data) (hdata : data ≠ [])
    (hsize : data.length ≤ 2 ^ 64 - 1) (hhash : sha256 data = c.hash) :
    fetchChunk net nodes fileName c = some data := by
  have hcmd : (10 : UInt8) ∉ ascii "CHUNK_SIZE " := by decide
  have hline : (10 : UInt8) ∉ ascii "CHUNK_SIZE " ++ natDec data.length := by
    intro h
    rcases List.mem_append.mp h with h | h
    · exact hcmd h
    · exact (word_natDec _).not_mem_newline h
  have hread : readLine (ascii "CHUNK_SIZE " ++ natDec data.length ++ ascii "\n" ++ data) =
      (ascii "CHUNK_SIZE " ++ natDec data.length, data) := by
    rw [← readLine_append data hline]
    congr 1
    simp [ascii]
  simp only [fetchChunk, fetchFrom, gridAnswer, hip, hn, Option.bind_eq_bind, Option.bind_some,
    hrun, if_true, Option.pure_def, publicRequest_eq hname hlen hreg hdisk hdata, hread,
    List.prefix_append]
  rw [show (ascii "CHUNK_SIZE " ++ natDec data.length).drop 11 = natDec data.length from rfl,
    stoull_natDec, if_pos hsize]
  simp [hhash]

/-! ### Putting the chunks together -/

/-- **The chunks of a file, each fetched once, make the file**, in whatever order they come. -/
theorem fileDownload_eq {net : Network} {nodes : Nodes} {fileName text : Bytes}
    {chunks : List ChunkLoc} {parts : List Bytes} (schedule : Schedule)
    (hcount : parts.length ≤ 2 ^ 31)
    (hplan : readPlan [] [] (lines text) = some (sha256 parts.flatten, chunks))
    (hids : (chunks.map (·.id)).Perm ((List.range parts.length).map fun i : Nat => (i : Int)))
    (hfetch : ∀ c ∈ chunks, fetchChunk net nodes fileName c = some ((parts[c.id.toNat]?).getD [])) :
    fileDownload net nodes schedule fileName text = some parts.flatten := by
  have hfetched : fetchAll (fun _ => fetchChunk net nodes fileName) chunks =
      some (chunks.map fun c => (c.id, (parts[c.id.toNat]?).getD [])) := by
    have hthread : ∀ ci ∈ chunks.zipIdx, (fetchChunk net nodes fileName ci.1).map (ci.1.id, ·) =
        some ((fun c : ChunkLoc => (c.id, (parts[c.id.toNat]?).getD [])) ci.1) := by
      intro ci hci
      rw [hfetch ci.1 (List.fst_mem_of_mem_zipIdx hci)]
      rfl
    rw [fetchAll, mapM_eq_some hthread, ← List.zipIdx_map_fst 0 chunks, List.map_map]
    simp [Function.comp_def]
  have hlen : chunks.length = parts.length := by simpa using hids.length_eq
  have hperm := order_filterMap_perm schedule
    (chunks.map fun c => (c.id, (parts[c.id.toNat]?).getD []))
  -- each identifier below the number of chunks occurs, and has its chunk
  have hget : ∀ i ∈ List.range chunks.length, ((collectChunks schedule
      (chunks.map fun c => (c.id, (parts[c.id.toNat]?).getD [])))[wrap32 i]?).getD [] =
        (parts[i]?).getD [] := by
    intro i hi
    have hint : wrap32 (i : Int) = i := by
      rw [List.mem_range, hlen] at hi
      exact wrap32_of_lt (by omega) (by omega)
    rw [hint]
    have hval : ∀ p ∈ (schedule.order (chunks.map fun c =>
        (c.id, (parts[c.id.toNat]?).getD [])).length).filterMap
          ((chunks.map fun c => (c.id, (parts[c.id.toNat]?).getD []))[·]?),
        p.2 = (parts[p.1.toNat]?).getD [] := by
      intro p hp
      obtain ⟨c, -, rfl⟩ := List.mem_map.mp (hperm.mem_iff.mp hp)
      rfl
    have hkey : (i : Int) ∈ ((schedule.order (chunks.map fun c =>
        (c.id, (parts[c.id.toNat]?).getD [])).length).filterMap
          ((chunks.map fun c => (c.id, (parts[c.id.toNat]?).getD []))[·]?)).map (·.1) := by
      rw [(hperm.map _).mem_iff, List.map_map]
      refine hids.mem_iff.mpr (List.mem_map.mpr ⟨i, ?_, rfl⟩)
      rwa [hlen] at hi
    rw [collectChunks, @Map.get_foldl_insert Int Bytes _ _ _ _
      (fun k => (parts[k.toNat]?).getD []) _ hval, if_pos hkey]
    rfl
  have hwritten : (List.range chunks.length).map (fun i : Nat => ((collectChunks schedule
      (chunks.map fun c => (c.id, (parts[c.id.toNat]?).getD [])))[wrap32 i]?).getD []) =
        parts := by
    rw [List.map_congr_left hget, hlen]
    refine List.ext_getElem? fun i => ?_
    rw [List.getElem?_map]
    rcases Nat.lt_or_ge i parts.length with hi | hi
    · rw [List.getElem?_range hi]
      simp [hi]
    · rw [List.getElem?_eq_none (by simpa using hi), List.getElem?_eq_none hi]
      rfl
  simp only [fileDownload, downloadWith, hplan, hfetched, Option.bind_eq_bind, Option.bind_some,
    hwritten, digest_foldl_update, ne_eq, not_true_eq_false, and_false, if_false]

end FileGrid
