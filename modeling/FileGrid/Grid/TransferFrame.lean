import FileGrid.Client.Client
import FileGrid.Core.Protobuf
import FileGrid.Grid.Links
import FileGrid.Head.Heartbeat

/-!
# A chunk on its way to a node

`sendChunkToServer` sends a message and gets an answer.  Here is what is behind that: the bytes that
`send_chunk_to_server` writes to its connection, what `handle_connection` reads of them, and the
bytes that come back.  A message goes as a frame, of a type, a length in 32 bits, and the
serialised message; the answer goes as a length and a message.

**The connection.**  A `Wire` says how a connection goes: whether it comes about, how many bytes of
the request get to the node, whether the head is told that they could be sent, and how many bytes of
the reply get back.

**Two levels.**  `framedSend_refines`: whatever the wire does, the transfer does what
`sendChunkToServer` does over some link.  A frame that does not arrive as a whole has no effect, a
frame that does is taken for the message that `ChunkData.delivered` says, and a name that is not
UTF-8 is as good as a link that is down.

**What a positive result is worth.**  The head does not look at whether the message could be
serialised, and it does not look at the key in the answer.  A message of 2 GiB or more goes as an
empty one, which the node stores as an empty chunk with an empty key, and says so.
**`transfer_genuine_iff`**: a positive result means that the node has the chunk exactly if the
message is smaller.
-/

namespace FileGrid

/-! ## Messages -/

namespace ChunkData

/-- The fields that are sent. -/
def fields (msg : ChunkData) : List WireField :=
  bytesField 1 msg.chunkId ++ bytesField 2 msg.filename ++ bytesField 3 msg.data

/-- A field that was read; fields with other numbers or types are skipped. -/
def setField (msg : ChunkData) : WireField → Option ChunkData
  | .bytes 1 s => if validUtf8 s then some { msg with chunkId := s } else none
  | .bytes 2 s => if validUtf8 s then some { msg with filename := s } else none
  | .bytes 3 s => some { msg with data := s }
  | _ => some msg

def parseFromArray (buf : Bytes) : Option ChunkData :=
  (decode buf).bind fun fields => fields.foldlM setField {}

end ChunkData

/-- `file_transfer.v1.ChunkResponse`. -/
structure ChunkResponse where
  success : Bool := false
  chunkId : Bytes := []
  errorMessage : Bytes := []
  filePath : Bytes := []
deriving DecidableEq

namespace ChunkResponse

/-- The fields that are sent. -/
def fields (msg : ChunkResponse) : List WireField :=
  boolField 1 msg.success ++ bytesField 2 msg.chunkId ++ bytesField 3 msg.errorMessage ++
    bytesField 4 msg.filePath

/-- A field that was read; fields with other numbers or types are skipped. -/
def setField (msg : ChunkResponse) : WireField → Option ChunkResponse
  | .varint 1 n => some { msg with success := n ≠ 0 }
  | .bytes 2 s => if validUtf8 s then some { msg with chunkId := s } else none
  | .bytes 3 s => if validUtf8 s then some { msg with errorMessage := s } else none
  | .bytes 4 s => if validUtf8 s then some { msg with filePath := s } else none
  | _ => some msg

def parseFromArray (buf : Bytes) : Option ChunkResponse :=
  (decode buf).bind fun fields => fields.foldlM setField {}

end ChunkResponse

/-! ## The node -/

/-- The answer to a store: whether it succeeded, and where the file is. -/
def storeResponse (chunkId : Bytes) (stored : Option Bytes) : ChunkResponse where
  success := stored.isSome
  chunkId := chunkId
  filePath := stored.getD []
  errorMessage := if stored.isSome then [] else ascii "Failed to store chunk on disk"

/-- The frame of an answer. -/
def responseFrame (resp : ChunkResponse) : Bytes :=
  let serialized := (serializeToString resp.fields).2
  htonl (UInt32.ofNat serialized.length) ++ serialized

namespace Node

/-- A request of type 1, and the bytes of the reply; there is none if the request is not parsed. -/
def storeRequest (node : Node) (fault : StoreFault) (epochUs : Int) (buf : Bytes) : Node × Bytes :=
  match ChunkData.parseFromArray buf with
  | none => (node, [])
  | some req =>
      let (node, stored) := node.storeChunk fault epochUs req.chunkId req.data
      (node, responseFrame (storeResponse req.chunkId stored))

/-- `handle_connection`, of the bytes that arrive before the connection ends.  What the node does
for requests of other types is a parameter. -/
def handleConnection (node : Node) (other : UInt32 → Bytes → Node × Bytes) (fault : StoreFault)
    (epochUs : Int) (stream : Bytes) : Node × Bytes :=
  match readExact 4 stream with
  | none => (node, [])
  | some (first4, stream) =>
      if first4 = ascii "DEAD" ∨ first4 = ascii "KILL" then (node.crash, ascii "OK\n")
      else
        match readExact 4 stream with
        | none => (node, [])
        | some (lenBytes, stream) =>
            let type := ntohl first4
            let len := ntohl lenBytes
            if type = 99 then (node.crash, ascii "OK\n")
            else
              match readExact len.toNat stream with
              | none => (node, [])
              | some (buf, _) =>
                  if type = 1 then node.storeRequest fault epochUs buf else other type buf

end Node

/-! ## The head -/

/-- How a connection of the head to a node goes. -/
structure Wire where
  connects : Bool := true
  /-- How many bytes of the request get to the node. -/
  arrives : Nat
  /-- `send_all` reports that everything was sent. -/
  sends : Bool := true
  /-- How many bytes of the reply get to the head. -/
  returns : Nat

/-- The frame of a request. -/
def frame (type : UInt32) (serialized : Bytes) : Bytes :=
  htonl type ++ (htonl (UInt32.ofNat serialized.length) ++ serialized)

/-- The head reads the reply: the path of the new replica, if the node reports success. -/
def readResponse (received : Bytes) : Option Bytes :=
  match readExact 4 received with
  | none => none
  | some (respLenNet, received) =>
      match readExact (ntohl respLenNet).toNat received with
      | none => none
      | some (respBuf, _) =>
          match ChunkResponse.parseFromArray respBuf with
          | none => none
          | some resp => if resp.success then some resp.filePath else none

/-- The part of `send_chunk_to_server` after the message is serialised. -/
def sendFrame (d : Deployment) (nodes : Nodes) (wire : Wire)
    (other : UInt32 → Bytes → Node × Bytes) (fault : StoreFault) (epochUs : Int)
    (server serialized : Bytes) : Nodes × Option Bytes :=
  match d.transferNode server with
  | none => (nodes, none)
  | some n =>
      if wire.connects = false ∨ (nodes n).running = false then (nodes, none)
      else
        let (node, reply) := (nodes n).handleConnection other fault epochUs
          ((frame 1 serialized).take wire.arrives)
        (Function.update nodes n node,
          if wire.sends then readResponse (reply.take wire.returns) else none)

/-- `send_chunk_to_server`, with the bytes on the connection.  Whether the message could be
serialised is not looked at. -/
def framedSend (d : Deployment) (nodes : Nodes) (wire : Wire)
    (other : UInt32 → Bytes → Node × Bytes) (fault : StoreFault) (epochUs : Int)
    (server filename : Bytes) (chunkId : Int) (data : Bytes) : Nodes × Option Bytes :=
  let msg : ChunkData := { chunkId := chunkKey filename chunkId, filename, data }
  sendFrame d nodes wire other fault epochUs server (serializeToString msg.fields).2

/-! ## Messages are read back -/

section Fields

variable {α : Type} (set : α → WireField → Option α) (m : α) (number : Nat) (s : Bytes)

lemma foldlM_bytesField : (bytesField number s).foldlM set m =
    if s = [] then some m else set m (.bytes number s) := by
  rw [bytesField]
  split_ifs with hs
  · rfl
  · simp

/-- A string that is not set is as good as an empty one. -/
lemma foldlM_stringField (update : Bytes → α) (hdefault : update [] = m)
    (hset : set m (.bytes number s) = if validUtf8 s then some (update s) else none) :
    (bytesField number s).foldlM set m = if validUtf8 s then some (update s) else none := by
  rw [foldlM_bytesField]
  split_ifs with hs hvalid hvalid
  · rw [hs, hdefault]
  · exact absurd (hs ▸ rfl) hvalid
  · rw [hset, if_pos hvalid]
  · rw [hset, if_neg hvalid]

end Fields

lemma encode_append (fields fields' : List WireField) :
    encode (fields ++ fields') = encode fields ++ encode fields' := List.flatMap_append

/-- A message that is serialised is small, and so are its parts. -/
lemma length_le_encode_bytesField (number : Nat) (s : Bytes) :
    s.length ≤ (encode (bytesField number s)).length := by
  rw [bytesField]
  split_ifs with hs
  · simp [hs]
  · simp only [encode, List.flatMap_cons, List.flatMap_nil, encodeField, List.length_append]
    omega

namespace ChunkData

/-- The strings of the message are UTF-8. -/
def Utf8 (msg : ChunkData) : Prop := validUtf8 msg.chunkId ∧ validUtf8 msg.filename

instance (msg : ChunkData) : Decidable msg.Utf8 := inferInstanceAs (Decidable (_ ∧ _))

lemma length_encode_fields (msg : ChunkData) : (encode msg.fields).length = msg.byteSize := by
  rw [fields, encode_append, encode_append]
  simp only [List.length_append, length_encode_bytesField (by norm_num : 1 < 16),
    length_encode_bytesField (by norm_num : 2 < 16),
    length_encode_bytesField (by norm_num : 3 < 16)]
  rfl

lemma foldlM_fields (msg : ChunkData) :
    msg.fields.foldlM setField {} = if msg.Utf8 then some msg else none := by
  have hdata : ∀ m : ChunkData, m.data = [] → (bytesField 3 msg.data).foldlM setField m =
      some { m with data := msg.data } := by
    intro m hm
    rw [foldlM_bytesField]
    split_ifs with hs
    · rw [hs, ← hm]
    · rfl
  rw [fields, List.foldlM_append, List.foldlM_append,
    foldlM_stringField setField {} 1 msg.chunkId (fun s => { chunkId := s }) rfl rfl]
  by_cases hid : validUtf8 msg.chunkId
  · rw [if_pos hid, Option.bind_eq_bind, Option.bind_some,
      foldlM_stringField setField { chunkId := msg.chunkId } 2 msg.filename
        (fun s => { chunkId := msg.chunkId, filename := s }) rfl rfl]
    by_cases hname : validUtf8 msg.filename
    · rw [if_pos hname, Option.bind_some, hdata _ rfl, if_pos ⟨hid, hname⟩]
    · rw [if_neg hname, if_neg fun h => hname h.2]
      rfl
  · rw [if_neg hid, if_neg fun h => hid h.1]
    rfl

lemma wellFormed_fields {msg : ChunkData} (h : (encode msg.fields).length < 2 ^ 31) :
    ∀ field ∈ msg.fields, field.WellFormed := by
  have hid := length_le_encode_bytesField 1 msg.chunkId
  have hname := length_le_encode_bytesField 2 msg.filename
  have hdata := length_le_encode_bytesField 3 msg.data
  rw [fields, encode_append, encode_append, List.length_append, List.length_append] at h
  intro field hfield
  simp only [fields, List.mem_append] at hfield
  rcases hfield with (hfield | hfield) | hfield
  · exact wellFormed_bytesField (by norm_num) (by omega) hfield
  · exact wellFormed_bytesField (by norm_num) (by omega) hfield
  · exact wellFormed_bytesField (by norm_num) (by omega) hfield

/-- **What the node parses is what is delivered**, if its strings are UTF-8. -/
theorem parseFromArray_serialize (msg : ChunkData) :
    parseFromArray (serializeToString msg.fields).2 =
      if msg.delivered.Utf8 then some msg.delivered else none := by
  rw [serializeToString, delivered, length_encode_fields]
  by_cases hsize : msg.byteSize < 2 ^ 31
  · have hwell := wellFormed_fields (msg.length_encode_fields.trans_lt hsize)
    rw [if_pos hsize, if_pos hsize, parseFromArray, decode_encode hwell, Option.bind_some,
      foldlM_fields]
  · rw [if_neg hsize, if_neg hsize]
    rfl

end ChunkData

namespace ChunkResponse

/-- The strings of the message are UTF-8. -/
def Utf8 (msg : ChunkResponse) : Prop :=
  validUtf8 msg.chunkId ∧ validUtf8 msg.errorMessage ∧ validUtf8 msg.filePath

instance (msg : ChunkResponse) : Decidable msg.Utf8 := inferInstanceAs (Decidable (_ ∧ _))

/-- The message as it arrives: what cannot be serialised arrives as the empty message. -/
def delivered (msg : ChunkResponse) : ChunkResponse :=
  if (encode msg.fields).length < 2 ^ 31 then msg else {}

lemma foldlM_fields (msg : ChunkResponse) :
    msg.fields.foldlM setField {} = if msg.Utf8 then some msg else none := by
  have hsuccess : (boolField 1 msg.success).foldlM setField {} =
      some { success := msg.success } := by
    rw [boolField]
    cases msg.success <;> rfl
  rw [fields, List.foldlM_append, List.foldlM_append, List.foldlM_append, hsuccess,
    Option.bind_eq_bind, Option.bind_some,
    foldlM_stringField setField { success := msg.success } 2 msg.chunkId
      (fun s => { success := msg.success, chunkId := s }) rfl rfl]
  by_cases hid : validUtf8 msg.chunkId
  · rw [if_pos hid, Option.bind_some,
      foldlM_stringField setField { success := msg.success, chunkId := msg.chunkId } 3
        msg.errorMessage
        (fun s => { success := msg.success, chunkId := msg.chunkId, errorMessage := s }) rfl rfl]
    by_cases herror : validUtf8 msg.errorMessage
    · rw [if_pos herror, Option.bind_some,
        foldlM_stringField setField
          { success := msg.success, chunkId := msg.chunkId, errorMessage := msg.errorMessage } 4
          msg.filePath (fun s => { msg with filePath := s }) rfl rfl]
      by_cases hpath : validUtf8 msg.filePath
      · rw [if_pos hpath, if_pos ⟨hid, herror, hpath⟩]
      · rw [if_neg hpath, if_neg fun h => hpath h.2.2]
    · rw [if_neg herror, if_neg fun h => herror h.2.1]
      rfl
  · rw [if_neg hid, if_neg fun h => hid h.1]
    rfl

lemma wellFormed_fields {msg : ChunkResponse} (h : (encode msg.fields).length < 2 ^ 31) :
    ∀ field ∈ msg.fields, field.WellFormed := by
  have hid := length_le_encode_bytesField 2 msg.chunkId
  have herror := length_le_encode_bytesField 3 msg.errorMessage
  have hpath := length_le_encode_bytesField 4 msg.filePath
  rw [fields, encode_append, encode_append, encode_append, List.length_append, List.length_append,
    List.length_append] at h
  intro field hfield
  simp only [fields, List.mem_append] at hfield
  rcases hfield with ((hfield | hfield) | hfield) | hfield
  · exact wellFormed_boolField (by norm_num) hfield
  · exact wellFormed_bytesField (by norm_num) (by omega) hfield
  · exact wellFormed_bytesField (by norm_num) (by omega) hfield
  · exact wellFormed_bytesField (by norm_num) (by omega) hfield

/-- **What the head parses is what is delivered**, if its strings are UTF-8. -/
theorem parseFromArray_serialize (msg : ChunkResponse) :
    parseFromArray (serializeToString msg.fields).2 =
      if msg.delivered.Utf8 then some msg.delivered else none := by
  rw [serializeToString, delivered]
  by_cases hsize : (encode msg.fields).length < 2 ^ 31
  · rw [if_pos hsize, if_pos hsize, parseFromArray, decode_encode (wellFormed_fields hsize),
      Option.bind_some, foldlM_fields]
  · rw [if_neg hsize, if_neg hsize]
    rfl

end ChunkResponse

/-! ## Frames -/

lemma length_serialize (fields : List WireField) :
    (serializeToString fields).2.length < 2 ^ 31 := by
  rw [serializeToString]
  split_ifs with hsize
  · exact hsize
  · norm_num

lemma ntohl_htonl (n : UInt32) : ntohl (htonl n) = n := by
  rw [ntohl, bigEndian_htonl, UInt32.ofNat_toNat]

/-- A length before a text is the length of the text. -/
lemma toNat_length {s : Bytes} (h : s.length < 2 ^ 31) :
    (ntohl (htonl (UInt32.ofNat s.length))).toNat = s.length := by
  rw [ntohl_htonl, UInt32.toNat_ofNat']
  omega

lemma readExact_htonl (n : UInt32) (s : Bytes) (k : Nat) :
    readExact 4 ((htonl n ++ s).take k) =
      if 4 ≤ k then some (htonl n, s.take (k - 4)) else none := readExact_take (htonl n) s k

lemma readExact_text (s : Bytes) (k : Nat) :
    readExact s.length (s.take k) = if s.length ≤ k then some (s, []) else none := by
  simpa using readExact_take s [] k

namespace Node

variable (node : Node) (other : UInt32 → Bytes → Node × Bytes) (fault : StoreFault) (us : Int)

/-- **A frame is handled if all of it arrives**, and otherwise has no effect. -/
theorem handleConnection_frame {serialized : Bytes} (h : serialized.length < 2 ^ 31) (k : Nat) :
    node.handleConnection other fault us ((frame 1 serialized).take k) =
      if 8 + serialized.length ≤ k then node.storeRequest fault us serialized else (node, []) := by
  have hword : ¬ (htonl 1 = ascii "DEAD" ∨ htonl 1 = ascii "KILL") := by decide
  rw [handleConnection, frame, readExact_htonl]
  by_cases htype : 4 ≤ k
  · rw [if_pos htype]
    dsimp only
    rw [if_neg hword, readExact_htonl]
    by_cases hlen : 4 ≤ k - 4
    · rw [if_pos hlen]
      dsimp only
      rw [ntohl_htonl, if_neg (by decide), toNat_length h, readExact_text]
      by_cases hbody : serialized.length ≤ k - 4 - 4
      · rw [if_pos hbody, if_pos (by omega)]
        rfl
      · rw [if_neg hbody, if_neg (by omega)]
    · rw [if_neg hlen, if_neg (by omega)]
  · rw [if_neg htype, if_neg (by omega)]

/-- A request is handled as the message that is delivered, if its strings are UTF-8. -/
lemma storeRequest_serialize (msg : ChunkData) :
    node.storeRequest fault us (serializeToString msg.fields).2 =
      if msg.delivered.Utf8 then
        ((node.storeChunk fault us msg.delivered.chunkId msg.delivered.data).1,
          responseFrame (storeResponse msg.delivered.chunkId
            (node.storeChunk fault us msg.delivered.chunkId msg.delivered.data).2))
      else (node, []) := by
  rw [storeRequest, msg.parseFromArray_serialize]
  by_cases hutf8 : msg.delivered.Utf8
  · rw [if_pos hutf8, if_pos hutf8]
  · rw [if_neg hutf8, if_neg hutf8]

end Node

/-- What the head takes from a reply of which only a part may have come back. -/
lemma readResponse_take (resp : ChunkResponse) (k : Nat) :
    readResponse ((responseFrame resp).take k) =
      if (responseFrame resp).length ≤ k ∧ resp.delivered.Utf8 ∧ resp.delivered.success then
        some resp.delivered.filePath
      else none := by
  have hlength : (responseFrame resp).length = 4 + (serializeToString resp.fields).2.length := by
    rw [responseFrame, List.length_append]
    rfl
  rw [hlength, readResponse, responseFrame, readExact_htonl]
  by_cases hlen : 4 ≤ k
  · rw [if_pos hlen]
    dsimp only
    rw [toNat_length (length_serialize resp.fields), readExact_text]
    by_cases hbody : (serializeToString resp.fields).2.length ≤ k - 4
    · rw [if_pos hbody]
      dsimp only
      rw [resp.parseFromArray_serialize]
      by_cases hutf8 : resp.delivered.Utf8
      · have hall : 4 + (serializeToString resp.fields).2.length ≤ k := by omega
        rw [if_pos hutf8]
        simp only [hall, hutf8, true_and]
      · rw [if_neg hutf8, if_neg fun h => hutf8 h.2.1]
    · rw [if_neg hbody, if_neg (by omega)]
  · rw [if_neg hlen, if_neg (by omega)]

/-- The answer to a store tells the head the path that was stored, or nothing. -/
lemma readResponse_storeResponse (chunkId : Bytes) (stored : Option Bytes) (k : Nat) :
    readResponse ((responseFrame (storeResponse chunkId stored)).take k) = none ∨
      readResponse ((responseFrame (storeResponse chunkId stored)).take k) = stored := by
  rw [readResponse_take]
  split_ifs with h
  · right
    obtain ⟨-, -, hsuccess⟩ := h
    rw [ChunkResponse.delivered] at hsuccess ⊢
    split_ifs at hsuccess ⊢
    -- an answer that could not be sent reports no success
    cases stored with
    | none => cases hsuccess
    | some path => rfl
  · exact Or.inl rfl

/-! ## The transfer -/

section

variable (d : Deployment) (nodes : Nodes) (wire : Wire) (other : UInt32 → Bytes → Node × Bytes)
  (fault : StoreFault) (us : Int) (server : Bytes)

/-- All that a serialised message can do: nothing, or its node stores what is delivered; and what
the head then learns is where, or nothing. -/
lemma sendFrame_cases (msg : ChunkData) :
    sendFrame d nodes wire other fault us server (serializeToString msg.fields).2 = (nodes, none) ∨
      ∃ n, d.transferNode server = some n ∧ (nodes n).running = true ∧
        let stored := (nodes n).storeChunk fault us msg.delivered.chunkId msg.delivered.data
        ∃ path, (path = none ∨ path = stored.2) ∧
          sendFrame d nodes wire other fault us server (serializeToString msg.fields).2 =
            (Function.update nodes n stored.1, path) := by
  rw [sendFrame]
  cases htarget : d.transferNode server with
  | none => exact Or.inl rfl
  | some n =>
      dsimp only
      by_cases hconnect : wire.connects = false ∨ (nodes n).running = false
      · exact Or.inl (if_pos hconnect)
      · have hrunning : (nodes n).running = true := by simpa using fun h => hconnect (Or.inr h)
        have hnothing : (Function.update nodes n (nodes n),
            if wire.sends then readResponse (List.take wire.returns []) else none) =
              (nodes, none) := by
          rw [Function.update_eq_self, List.take_nil]
          simp [readResponse, readExact]
        rw [if_neg hconnect, Node.handleConnection_frame _ _ _ _ (length_serialize msg.fields)]
        by_cases harrives : 8 + (serializeToString msg.fields).2.length ≤ wire.arrives
        · rw [if_pos harrives, Node.storeRequest_serialize]
          by_cases hutf8 : msg.delivered.Utf8
          · rw [if_pos hutf8]
            refine Or.inr ⟨n, rfl, hrunning, _, ?_, rfl⟩
            cases wire.sends with
            | false => exact Or.inl rfl
            | true => exact readResponse_storeResponse _ _ wire.returns
          · rw [if_neg hutf8]
            exact Or.inl hnothing
        · rw [if_neg harrives]
          exact Or.inl hnothing

variable (filename : Bytes) (chunkId : Int) (data : Bytes)

/-- A message that reaches its node, whose answer may be lost. -/
lemma sendChunkToServer_running {n : Nat} (hn : d.transferNode server = some n)
    (hrunning : (nodes n).running = true) {link : Link} (hlink : link ≠ .down) :
    let msg := chunkMessage filename chunkId data
    let stored := (nodes n).storeChunk fault us msg.chunkId msg.data
    sendChunkToServer d nodes link fault us server filename chunkId data =
      (Function.update nodes n stored.1, if link = .replyLost then none else stored.2) := by
  intro msg stored
  rw [sendChunkToServer, hn]
  cases link with
  | down => exact absurd rfl hlink
  | up => simp [request, hrunning, msg, stored]
  | replyLost => simp [request, hrunning, msg, stored]

/-- **The bytes on the connection do what a message does**, over some link. -/
theorem framedSend_refines :
    ∃ link, framedSend d nodes wire other fault us server filename chunkId data =
      sendChunkToServer d nodes link fault us server filename chunkId data := by
  rw [framedSend]
  rcases sendFrame_cases d nodes wire other fault us server
      { chunkId := chunkKey filename chunkId, filename, data } with
    hnothing | ⟨n, hn, hrunning, path, rfl | rfl, hsend⟩
  · exact ⟨.down, hnothing.trans (sendChunkToServer_down ..).symm⟩
  · refine ⟨.replyLost, hsend.trans ?_⟩
    rw [sendChunkToServer_running d nodes fault us server filename chunkId data hn hrunning
      (by simp)]
    rfl
  · refine ⟨.up, hsend.trans ?_⟩
    rw [sendChunkToServer_running d nodes fault us server filename chunkId data hn hrunning
      (by simp)]
    rfl

end

/-! ## What a positive result is worth -/

/-- A store that reports a path has registered the bytes there. -/
lemma Node.stored_of_storeChunk {node : Node} {fault : StoreFault} {us : Int}
    {key data path : Bytes} (h : (node.storeChunk fault us key data).2 = some path) :
    (node.storeChunk fault us key data).1.chunkRegistry[key]? = some path ∧
      (node.storeChunk fault us key data).1.disk[path]? = some data := by
  refine ⟨?_, (Node.holds_storeChunk h).file⟩
  cases fault with
  | openFails => cases h
  | writeFails written => cases h
  | none =>
      rw [← h]
      simp [Node.storeChunk]

/-- A network with one node, which listens for transfers on the default port. -/
def loopback : Deployment where
  net :=
    { transferAt := fun _ port => if port = 8180 then some 0 else none
      publicAt := fun _ _ => none
      baseAt := fun _ _ => none }
  registry := {}

/-- A transfer to an empty node over a connection that loses nothing of the first thousand bytes. -/
def loopbackSend (filename : Bytes) (chunkId : Int) (data : Bytes) : Nodes × Option Bytes :=
  framedSend loopback (fun _ => {}) { arrives := 1000, returns := 1000 }
    (fun _ _ => ({}, [])) .none 0 (ascii "127.0.0.1:8080") filename chunkId data

/-- The empty chunk that the node then has. -/
def emptyChunkPath : Bytes := ascii "/var/cluster_storage/chunk__0_1.dat"

/-- **A message that is too large is stored as an empty chunk without a key**, and the head is told
that it is stored. -/
lemma loopbackSend_large {filename : Bytes} {chunkId : Int} {data : Bytes}
    (h : 2 ^ 31 ≤ ChunkData.byteSize { chunkId := chunkKey filename chunkId, filename, data }) :
    (loopbackSend filename chunkId data).2 = some emptyChunkPath ∧
      ((loopbackSend filename chunkId data).1 0).chunkRegistry =
        (∅ : Map Bytes Bytes).insert [] emptyChunkPath ∧
      ((loopbackSend filename chunkId data).1 0).disk =
        (∅ : Map Bytes Bytes).insert emptyChunkPath [] := by
  have hempty : (serializeToString (ChunkData.fields
      { chunkId := chunkKey filename chunkId, filename, data })).2 = [] := by
    rw [serializeToString, ChunkData.length_encode_fields, if_neg (by omega)]
  rw [loopbackSend, framedSend, hempty]
  exact ⟨by decide +kernel, rfl, rfl⟩

/-- **When a positive result is genuine**: a transfer that reports a path has stored these bytes
under the key of the chunk, whatever the node, the disk and the connection do, exactly if the
message is smaller than 2 GiB. -/
theorem transfer_genuine_iff (filename : Bytes) (chunkId : Int) (data : Bytes) :
    (∀ (d : Deployment) (nodes : Nodes) (wire : Wire) (other : UInt32 → Bytes → Node × Bytes)
      (fault : StoreFault) (us : Int) (server path : Bytes),
      let result := framedSend d nodes wire other fault us server filename chunkId data
      result.2 = some path →
        ∃ n, d.transferNode server = some n ∧
          (result.1 n).chunkRegistry[chunkKey filename chunkId]? = some path ∧
          (result.1 n).disk[path]? = some data) ↔
    ChunkData.byteSize { chunkId := chunkKey filename chunkId, filename, data } < 2 ^ 31 := by
  constructor
  · intro h
    by_contra hlarge
    obtain ⟨hpath, hregistry, -⟩ := loopbackSend_large (Nat.le_of_not_lt hlarge)
    obtain ⟨n, hn, hkey, -⟩ := h _ _ _ _ _ _ _ _ hpath
    have hn : n = 0 := by
      have : loopback.transferNode (ascii "127.0.0.1:8080") = some 0 := by decide +kernel
      exact Option.some.inj (hn.symm.trans this)
    have hne : chunkKey filename chunkId ≠ [] := by simp [chunkKey, ascii]
    rw [hn, ← loopbackSend, hregistry] at hkey
    simp [hne] at hkey
  · intro hsmall d nodes wire other fault us server path result hpath
    obtain ⟨link, hlink⟩ := framedSend_refines d nodes wire other fault us server filename chunkId
      data
    have hresult : result = sendChunkToServer d nodes link fault us server filename chunkId data :=
      hlink
    rw [hresult] at hpath ⊢
    rcases sendChunkToServer_cases d nodes link fault us server filename chunkId data with
      hnothing | ⟨n, hn, -, hnodes, hstored⟩
    · rw [hnothing] at hpath
      cases hpath
    · have hstored := Node.stored_of_storeChunk (hstored path hpath)
      rw [chunkMessage_of_small hsmall] at hstored hnodes
      refine ⟨n, hn, ?_⟩
      rw [hnodes, Function.update_self]
      exact hstored

/-- A chunk of one byte is stored, and the head is told where. -/
example : (loopbackSend (ascii "f") 0 [65]).2 =
    some (ascii "/var/cluster_storage/chunk_f_chunk_0_0_1.dat") := by decide +kernel

/-- The head receives a chunk of 2 GiB, and its transfer is reported as a success. -/
lemma loopbackSend_of_length {data : Bytes} (hlength : data.length = 2 ^ 31) :
    receiveChunks 1 (chunkFrame 0 data ++ []) =
      ([{ chunkId := 0, data, checksum := sha256 data }], none) ∧
    (loopbackSend (ascii "f") 0 data).2 = some emptyChunkPath ∧
    ((loopbackSend (ascii "f") 0 data).1 0).chunkRegistry[chunkKey (ascii "f") 0]? = none ∧
    ((loopbackSend (ascii "f") 0 data).1 0).disk =
      (∅ : Map Bytes Bytes).insert emptyChunkPath [] := by
  have hne : data ≠ [] := List.ne_nil_of_length_pos (by omega)
  have hlarge : 2 ^ 31 ≤ ChunkData.byteSize
      { chunkId := chunkKey (ascii "f") 0, filename := ascii "f", data } := by
    have hdata : fieldSize data = 1 + varintSize data.length + data.length := if_neg hne
    rw [ChunkData.byteSize]
    dsimp only
    omega
  obtain ⟨hpath, hregistry, hdisk⟩ := loopbackSend_large hlarge
  have hkey : chunkKey (ascii "f") 0 ≠ [] := by simp [chunkKey, ascii]
  refine ⟨?_, hpath, ?_, hdisk⟩
  · exact receiveChunks_of_ok 0 (receiveRound_frame [] (by norm_num) (by omega) rfl)
  · rw [hregistry]
    simp [hkey]

def chunkOfSize (n : Nat) : Bytes := List.replicate n 65

lemma length_chunkOfSize (n : Nat) : (chunkOfSize n).length = n := List.length_replicate

/-- **A positive result for a chunk that no node has**: the head takes a chunk of 2 GiB from a
client, the transfer reports success, and all that the node then has is an empty file under an empty
key. -/
theorem large_chunk_not_stored :
    receiveChunks 1 (chunkFrame 0 (chunkOfSize (2 ^ 31)) ++ []) =
      ([{ chunkId := 0, data := chunkOfSize (2 ^ 31), checksum := sha256 (chunkOfSize (2 ^ 31)) }],
        none) ∧
    (loopbackSend (ascii "f") 0 (chunkOfSize (2 ^ 31))).2 = some emptyChunkPath ∧
    ((loopbackSend (ascii "f") 0 (chunkOfSize (2 ^ 31))).1 0).chunkRegistry[
      chunkKey (ascii "f") 0]? = none ∧
    ((loopbackSend (ascii "f") 0 (chunkOfSize (2 ^ 31))).1 0).disk =
      (∅ : Map Bytes Bytes).insert emptyChunkPath [] :=
  loopbackSend_of_length (length_chunkOfSize (2 ^ 31))

end FileGrid
