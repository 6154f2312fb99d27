import FileGrid.Head.Upload
import FileGrid.Core.Runs
import FileGrid.Metadata.RedisFailover

/-!
# How long a stored file stays

A file whose upload was answered with `SUCCESS` is to be found until it is deleted.  The head has
one of two backends for its metadata, and `store_metadata` sends both the header `TTL=3600`.  The
on-disk backend reads the line and drops it.  The Redis backend sets the key of the file to expire.

**Runs.**  A run is any sequence of uploads, of the two steps of a failover, of queries, of
deletions and of spells of time, on either backend (`backendStep`).  `lastUpload` reads off the
events alone which upload of a file was the last to be answered with `SUCCESS`, and how long ago,
and forgets it when the file is deleted.

**On disk** the record stays whatever happens (`hashOf_backendStep`).  **On Redis** the key has the
hash of the file and expires an hour after the upload; nothing but an upload moves the expiry, since
the other operations spare the field `file_hash` (`expiry_foldl_exec_spares`), and nothing but an
upload brings the field back (`redis_step`).

**`stored_file_returned_iff`**: in every state of every run, the file is returned if and only if the
backend is the on-disk one or less than an hour has passed since its last upload.
-/

namespace FileGrid

/-! ## The two backends -/

/-- The metadata of the head, in either build. -/
inductive MetadataBackend
  | onDisk (m : MetadataMap)
  | redis (s : Redis)

namespace MetadataBackend

def storeMetadata (b : MetadataBackend) (filename : Bytes) (chunks : List ChunkInfo)
    (fileHash : Bytes) (replicationFactor : Int) : MetadataBackend :=
  match b with
  | onDisk m => onDisk (FileGrid.storeMetadata m filename chunks fileHash replicationFactor)
  | redis s => redis (Redis.storeMetadata s filename chunks fileHash replicationFactor [])

def atomicReplaceServerChunks (b : MetadataBackend) (deadServer newServer : Bytes)
    (fileChunksToUpdate : Map Bytes (List ChunkRecord)) : MetadataBackend :=
  match b with
  | onDisk m => onDisk (m.atomicReplaceServerChunks deadServer fileChunksToUpdate)
  | redis s => redis (Redis.atomicReplaceServerChunks s deadServer newServer fileChunksToUpdate)

def deleteServerMetadata (b : MetadataBackend) (order : Bytes → Schedule) (serverAddress : Bytes) :
    MetadataBackend :=
  match b with
  | onDisk m => onDisk (m.deleteServerMetadata serverAddress)
  | redis s => redis (Redis.deleteServerMetadata s order serverAddress)

def deleteEntry (b : MetadataBackend) (fileName : Bytes) : MetadataBackend :=
  match b with
  | onDisk m => onDisk (m.deleteEntry fileName)
  | redis s => redis (Redis.deleteEntry s fileName)

/-- Time passes, in milliseconds; only Redis has a clock. -/
def elapse (b : MetadataBackend) (time : Nat) : MetadataBackend :=
  match b with
  | onDisk m => onDisk m
  | redis s => redis (s.elapse time)

def queryMetadata (b : MetadataBackend) (order : Schedule) (fileName : Bytes) : FileRecord :=
  match b with
  | onDisk m => m.queryMetadata fileName
  | redis s => Redis.queryMetadata s order fileName

def listAllFiles (b : MetadataBackend) : List Bytes :=
  match b with
  | onDisk m => m.listAllFiles
  | redis s => Redis.listAllFiles s

def isOnDisk (b : MetadataBackend) : Bool :=
  match b with
  | onDisk _ => true
  | redis _ => false

end MetadataBackend

/-! ## Runs -/

inductive BackendEvent
  | upload (env : UploadEnv) (outcome : Nat → Option Bytes) (initialReq stream : Bytes)
  | replaceServerChunks (deadServer newServer : Bytes) (us : Map Bytes (List ChunkRecord))
  | deleteServerMetadata (order : Bytes → Schedule) (serverAddress : Bytes)
  | query (order : Schedule) (fileName : Bytes)
  | deleteEntry (fileName : Bytes)
  | elapse (time : Nat)

def backendStep (b : MetadataBackend) : BackendEvent → MetadataBackend
  | .upload env outcome initialReq stream =>
      (handleClientUploadOn (withOutcomes outcome) MetadataBackend.storeMetadata env () b initialReq
        stream).2.1
  | .replaceServerChunks dead newServer us => b.atomicReplaceServerChunks dead newServer us
  | .deleteServerMetadata order server => b.deleteServerMetadata order server
  | .query _ _ => b
  | .deleteEntry fileName => b.deleteEntry fileName
  | .elapse time => b.elapse time

/-- The name and the hash of the file, if the upload is answered with `SUCCESS`.  The answer does
not depend on the metadata. -/
def committed (env : UploadEnv) (outcome : Nat → Option Bytes) (initialReq stream : Bytes) :
    Option UploadRequest :=
  if (handleClientUpload (withOutcomes outcome) env () ∅ initialReq stream).2.2 = success then
    (parseUploadRequest env.chunkSize initialReq).toOption
  else none

/-- An upload that was answered with `SUCCESS`: the hash of the file, and the time since. -/
structure LastUpload where
  fileHash : Bytes
  age : Nat := 0
deriving DecidableEq

/-- The last successful upload of a file, if the file was not deleted since. -/
def lastUpload (f : Bytes) (u : Option LastUpload) : BackendEvent → Option LastUpload
  | .upload env outcome initialReq stream =>
      match committed env outcome initialReq stream with
      | some r => if r.filename = f then some { fileHash := r.fileHash } else u
      | none => u
  | .deleteEntry fileName => if fileName = f then none else u
  | .elapse time => u.map fun u => { u with age := u.age + time }
  | _ => u

/-- The file is returned: it is listed, and a query has its hash. -/
def Returned (b : MetadataBackend) (f fileHash : Bytes) : Prop :=
  f ∈ b.listAllFiles ∧ ∀ order, (b.queryMetadata order f).fileHash = fileHash

/-! ## What an upload does to a backend -/

lemma committed_eq_some {env : UploadEnv} {outcome : Nat → Option Bytes} {initialReq stream : Bytes}
    {r : UploadRequest} (h : committed env outcome initialReq stream = some r) :
    parseUploadRequest env.chunkSize initialReq = .ok r ∧
      (handleClientUpload (withOutcomes outcome) env () ∅ initialReq stream).2.2 = success := by
  unfold committed at h
  split_ifs at h with hsuccess
  refine ⟨?_, hsuccess⟩
  cases hparse : parseUploadRequest env.chunkSize initialReq with
  | error ended =>
      rw [hparse] at h
      cases h
  | ok r' =>
      rw [hparse] at h
      cases h
      rfl

lemma words_of_committed {env : UploadEnv} {outcome : Nat → Option Bytes}
    {initialReq stream : Bytes}
    {r : UploadRequest} (h : committed env outcome initialReq stream = some r) :
    Word r.filename ∧ Word r.fileHash :=
  parseUploadRequest_words (committed_eq_some h).1

/-- **An upload that succeeds stores its metadata, and any other leaves the backend alone.** -/
theorem backendStep_upload (b : MetadataBackend) (env : UploadEnv) (outcome : Nat → Option Bytes)
    (initialReq stream : Bytes) :
    backendStep b (.upload env outcome initialReq stream) =
      match committed env outcome initialReq stream with
      | some r => b.storeMetadata r.filename
          (storedReplicas (withOutcomes outcome) env () stream r) r.fileHash env.replicationFactor
      | none => b := by
  have hsame : (handleClientUploadOn (withOutcomes outcome) MetadataBackend.storeMetadata env () b
      initialReq stream).2.2 = success ↔
        (handleClientUpload (withOutcomes outcome) env () ∅ initialReq stream).2.2 = success :=
    (uploadOn_success_iff _ _ env () b initialReq stream).trans
      (upload_success_iff _ env () ∅ initialReq stream).symm
  unfold committed
  split_ifs with hsuccess
  · obtain ⟨r, hparse, -⟩ := (upload_success_iff _ env () ∅ initialReq stream).mp hsuccess
    rw [hparse]
    exact uploadOn_commits _ _ env () b initialReq stream hparse (hsame.mpr hsuccess)
  · exact uploadOn_failed _ _ env () b initialReq stream (mt hsame.mp hsuccess)

/-! ## On disk -/

/-- **Nothing but its deletion takes a file out of the on-disk store.** -/
theorem hashOf_backendStep {m : MetadataMap} {f : Bytes} {u : Option LastUpload}
    (h : ∀ x, u = some x → m.hashOf f = some x.fileHash) {ev : BackendEvent} {u' : LastUpload}
    (hu : lastUpload f u ev = some u') :
    ∃ m', backendStep (.onDisk m) ev = .onDisk m' ∧ m'.hashOf f = some u'.fileHash := by
  cases ev with
  | upload env outcome initialReq stream =>
      rw [backendStep_upload]
      simp only [lastUpload] at hu
      cases hr : committed env outcome initialReq stream with
      | none =>
          rw [hr] at hu
          exact ⟨m, rfl, h u' hu⟩
      | some r =>
          obtain ⟨hname, hhash⟩ := words_of_committed hr
          rw [hr] at hu
          refine ⟨_, rfl, ?_⟩
          rw [hashOf_storeMetadata m _ _ hname.not_mem_newline hhash.not_mem_newline]
          dsimp only at hu
          split_ifs at hu with hfile
          · cases hu
            rw [if_pos hfile.symm]
          · rw [if_neg (Ne.symm hfile), h u' hu]
  | replaceServerChunks dead newServer us =>
      exact ⟨_, rfl, (m.hashOf_atomicReplaceServerChunks dead us f).trans (h u' hu)⟩
  | deleteServerMetadata order server =>
      exact ⟨_, rfl, (m.hashOf_deleteServerMetadata server f).trans (h u' hu)⟩
  | query order fileName => exact ⟨m, rfl, h u' hu⟩
  | deleteEntry fileName =>
      simp only [lastUpload] at hu
      split_ifs at hu with hfile
      refine ⟨_, rfl, ?_⟩
      by_cases hname : fileName = []
      · rw [MetadataMap.deleteEntry, if_pos hname, h u' hu]
      · rw [m.hashOf_deleteEntry fileName f hname, if_neg (Ne.symm hfile), h u' hu]
  | elapse time =>
      obtain ⟨x, hx, rfl⟩ := Option.map_eq_some_iff.mp hu
      exact ⟨m, rfl, h x hx⟩

/-! ## On Redis -/

/-- `TTL=3600`, in milliseconds. -/
def ttl : Nat := 3600 * 1000

/-- Until the hour is over, the key has the hash of the file and the expiry that the upload set;
after it, the key has no hash. -/
structure KeptOnRedis (s : Redis) (f : Bytes) (u : LastUpload) : Prop where
  live : u.age < ttl → (s.hgetall (fileKey f))[ascii "file_hash"]? = some u.fileHash ∧
    s.expiry (fileKey f) = some (s.now + (ttl - u.age))
  gone : ttl ≤ u.age → (s.hgetall (fileKey f))[ascii "file_hash"]? = none

section

variable {s : Redis} {f : Bytes} {u : LastUpload}

/-- A script that spares the hash keeps the file. -/
lemma KeptOnRedis.foldl_exec (h : KeptOnRedis s f u) {cs : List RedisCommand}
    (hcs : ∀ c ∈ cs, c.Spares (ascii "file_hash")) :
    KeptOnRedis (cs.foldl HashStore.exec s) f u := by
  have hget := HashStore.get_foldl_exec_keeps (fun c hc => (hcs c hc).keeps) s (fileKey f)
  constructor
  · intro hage
    obtain ⟨hhash, hexpiry⟩ := h.live hage
    rw [hget, HashStore.expiry_foldl_exec_spares hcs s (by rw [hhash]; rfl),
      HashStore.now_foldl_exec]
    exact ⟨hhash, hexpiry⟩
  · intro hage
    rw [hget]
    exact h.gone hage

lemma KeptOnRedis.exec (h : KeptOnRedis s f u) {c : RedisCommand}
    (hc : c.Spares (ascii "file_hash")) : KeptOnRedis (s.exec c) f u := by
  have hone : ∀ x ∈ [c], x.Spares (ascii "file_hash") := by
    intro x hx
    exact List.mem_singleton.mp hx ▸ hc
  exact h.foldl_exec hone

/-- So does a script about other keys. -/
lemma KeptOnRedis.of_hashes (h : KeptOnRedis s f u) {s' : Redis} (hnow : s'.now = s.now)
    (hkey : s'.hashes[fileKey f]? = s.hashes[fileKey f]?) : KeptOnRedis s' f u := by
  have hget : s'.hgetall (fileKey f) = s.hgetall (fileKey f) := by
    rw [HashStore.hgetall, hkey, HashStore.hgetall]
  have hexpiry : s'.expiry (fileKey f) = s.expiry (fileKey f) := by
    rw [HashStore.expiry, hkey, HashStore.expiry]
  exact ⟨by rw [hget, hexpiry, hnow]; exact h.live, by rw [hget]; exact h.gone⟩

lemma KeptOnRedis.elapse (h : KeptOnRedis s f u) (time : Nat) :
    KeptOnRedis (s.elapse time) f { u with age := u.age + time } := by
  constructor
  · intro hage
    dsimp only at hage
    obtain ⟨hhash, hexpiry⟩ := h.live (by omega)
    have hlater : ∀ e, s.expiry (fileKey f) = some e → s.now + time < e := by
      rw [hexpiry]
      rintro e he
      cases he
      omega
    rw [HashStore.hgetall_elapse hlater, HashStore.expiry_elapse hlater, hexpiry]
    refine ⟨hhash, congrArg some ?_⟩
    show s.now + (ttl - u.age) = s.now + time + (ttl - (u.age + time))
    omega
  · intro hage
    dsimp only at hage
    by_cases hlive : u.age < ttl
    · -- the hour is over now
      obtain ⟨-, hexpiry⟩ := h.live hlive
      rw [HashStore.hgetall_elapse_of_due hexpiry (by omega)]
      rfl
    · exact HashStore.get_elapse_eq_none (h.gone (by omega)) time

end

/-- The script of an upload ends with the expiry of the key. -/
lemma expiry_commit (s : Redis) (filename : Bytes) (records : List ChunkRecord) {fileHash : Bytes}
    (replicaCount : Int) (hhash : fileHash ≠ []) :
    ((commitCommands filename records fileHash replicaCount).foldl HashStore.exec s).expiry
      (fileKey filename) = some (s.now + ttl) := by
  have hfield : (((commitCommands filename records fileHash replicaCount).foldl HashStore.exec
      s).hgetall (fileKey filename))[ascii "file_hash"]? = some fileHash := by
    rw [hgetall_commit, ← commitInto, get_commitInto_fileHash, if_pos hhash]
  obtain ⟨fields, hscript⟩ : ∃ fields, commitCommands filename records fileHash replicaCount =
      fields ++ [.expire (fileKey filename) 3600] := ⟨_, rfl⟩
  simp only [hscript, List.foldl_append, List.foldl_cons, List.foldl_nil,
    HashStore.hgetall_expire] at hfield ⊢
  rw [HashStore.expiry_expire, HashStore.now_foldl_exec, if_pos]
  · rfl
  · refine ⟨rfl, Bool.eq_false_of_not_eq_true fun hempty => ?_⟩
    rw [Std.ExtTreeMap.isEmpty_iff.mp hempty] at hfield
    simp at hfield

/-- **An upload sets the hash and the expiry**, whatever was there. -/
theorem keptOnRedis_storeMetadata (s : Redis) {filename fileHash : Bytes} (chunks : List ChunkInfo)
    (replicationFactor : Int) (hname : Word filename) (hhash : Word fileHash) :
    KeptOnRedis (Redis.storeMetadata s filename chunks fileHash replicationFactor []) filename
      { fileHash } := by
  have hget := hgetall_storeMetadata s chunks replicationFactor hname.not_mem_newline
    hhash.not_mem_newline
  have hcommands := createCommands_metadataRequest chunks replicationFactor hname.not_mem_newline
    hhash.not_mem_newline
  refine ⟨fun _ => ⟨?_, ?_⟩, fun hage => absurd hage (by show ¬ttl ≤ 0; decide)⟩
  · rw [hget, get_commitInto_fileHash, if_pos hhash.1]
  · simp only [Redis.storeMetadata, Redis.createEntry, hcommands, HashStore.execAll_nil]
    rw [expiry_commit s filename _ _ hhash.1, HashStore.now_foldl_exec]
    rfl

lemma KeptOnRedis.storeMetadata {s : Redis} {f : Bytes} {u : LastUpload} (h : KeptOnRedis s f u)
    {filename fileHash : Bytes} (chunks : List ChunkInfo) (replicationFactor : Int)
    (hname : Word filename) (hhash : Word fileHash) (hne : filename ≠ f) :
    KeptOnRedis (Redis.storeMetadata s filename chunks fileHash replicationFactor []) f u := by
  have hcommands := createCommands_metadataRequest chunks replicationFactor hname.not_mem_newline
    hhash.not_mem_newline
  simp only [Redis.storeMetadata, Redis.createEntry, hcommands, HashStore.execAll_nil]
  refine h.of_hashes (HashStore.now_foldl_exec _ s) (HashStore.hashes_foldl_exec_of_ne ?_ s)
  intro c hc heq
  rw [key_commitCommands hc] at heq
  exact hne (fileKey_inj heq)

/-! ### What spares the hash -/

lemma spares_replaceCommands {dead newServer filename : Bytes} {r : ChunkRecord} {c : RedisCommand}
    (hc : c ∈ Redis.replaceCommands dead newServer filename r) : c.Spares (ascii "file_hash") := by
  simp only [Redis.replaceCommands, List.mem_cons, List.not_mem_nil, or_false] at hc
  rcases hc with rfl | rfl | rfl
  · exact Ne.symm (fileHash_ne_chunkField _ _)
  · simpa [HashCommand.Spares, HashCommand.Keeps] using field_ne_fileHash _
  · simpa [HashCommand.Spares, HashCommand.Keeps] using fileHash_ne_chunkReplicasField _

/-- `delete_entry` of another name: the key of another file, or a chunk field. -/
lemma KeptOnRedis.deleteEntry {s : Redis} {f : Bytes} {u : LastUpload} (h : KeptOnRedis s f u)
    {fileName : Bytes} (hne : fileName ≠ f) : KeptOnRedis (Redis.deleteEntry s fileName) f u := by
  unfold Redis.deleteEntry
  cases hfind : find (ascii "#chunk:") fileName with
  | none =>
      exact h.of_hashes (HashStore.now_exec s _)
        (HashStore.hashes_exec_of_ne fun heq => hne (fileKey_inj heq))
  | some pos =>
      have hfield : fileName.drop (pos + 1) ≠ ascii "file_hash" := by
        obtain ⟨rest, hrest⟩ := drop_of_find hfind
        rw [← List.drop_drop, hrest]
        simp [ascii]
      exact h.exec hfield

/-- **On Redis a file is kept for an hour after its last upload, and no longer.** -/
theorem redis_step {s : Redis} {f : Bytes} {u : Option LastUpload}
    (h : ∀ x, u = some x → KeptOnRedis s f x) {ev : BackendEvent} {u' : LastUpload}
    (hu : lastUpload f u ev = some u') :
    ∃ s', backendStep (.redis s) ev = .redis s' ∧ KeptOnRedis s' f u' := by
  cases ev with
  | upload env outcome initialReq stream =>
      rw [backendStep_upload]
      simp only [lastUpload] at hu
      cases hr : committed env outcome initialReq stream with
      | none =>
          rw [hr] at hu
          exact ⟨s, rfl, h u' hu⟩
      | some r =>
          obtain ⟨hname, hhash⟩ := words_of_committed hr
          rw [hr] at hu
          dsimp only at hu
          refine ⟨_, rfl, ?_⟩
          split_ifs at hu with hfile
          · cases hu
            subst hfile
            exact keptOnRedis_storeMetadata s _ _ hname hhash
          · exact (h u' hu).storeMetadata _ _ hname hhash hfile
  | replaceServerChunks dead newServer us =>
      refine ⟨_, rfl, (h u' hu).foldl_exec fun c hc => ?_⟩
      obtain ⟨p, -, hc⟩ := List.mem_flatMap.mp hc
      obtain ⟨r, -, hc⟩ := List.mem_flatMap.mp hc
      exact spares_replaceCommands hc
  | deleteServerMetadata order server =>
      refine ⟨_, rfl, (h u' hu).foldl_exec fun c hc => ?_⟩
      obtain ⟨filename, -, hc⟩ := List.mem_flatMap.mp hc
      obtain ⟨chunk, -, rfl⟩ := List.mem_map.mp hc
      exact Ne.symm (fileHash_ne_chunkField _ _)
  | query order fileName => exact ⟨s, rfl, h u' hu⟩
  | deleteEntry fileName =>
      simp only [lastUpload] at hu
      split_ifs at hu with hfile
      exact ⟨_, rfl, (h u' hu).deleteEntry hfile⟩
  | elapse time =>
      obtain ⟨x, hx, rfl⟩ := Option.map_eq_some_iff.mp hu
      exact ⟨_, rfl, (h x hx).elapse time⟩

/-! ## Whole runs -/

/-- What a backend holds of a file after its last upload. -/
def KeptIn : MetadataBackend → Bytes → LastUpload → Prop
  | .onDisk m, f, u => m.hashOf f = some u.fileHash
  | .redis s, f, u => KeptOnRedis s f u

lemma keptIn_step {b : MetadataBackend} {f : Bytes} {u : Option LastUpload}
    (h : ∀ x, u = some x → KeptIn b f x) (ev : BackendEvent) :
    ∀ x, lastUpload f u ev = some x → KeptIn (backendStep b ev) f x := by
  intro x hx
  cases b with
  | onDisk m =>
      obtain ⟨m', hstep, hkept⟩ := hashOf_backendStep h hx
      rw [hstep]
      exact hkept
  | redis s =>
      obtain ⟨s', hstep, hkept⟩ := redis_step h hx
      rw [hstep]
      exact hkept

lemma keptIn_run {b : MetadataBackend} {f : Bytes} {u : Option LastUpload}
    (h : ∀ x, u = some x → KeptIn b f x) (events : List BackendEvent) :
    ∀ x, events.foldl (lastUpload f) u = some x → KeptIn (events.foldl backendStep b) f x := by
  induction events generalizing b u with
  | nil => exact h
  | cons ev events ih => exact ih (keptIn_step h ev)

/-- The name and the hash of an upload that was answered with `SUCCESS` are not empty. -/
lemma lastUpload_nonempty {f : Bytes} {u : Option LastUpload}
    (h : ∀ x, u = some x → f ≠ [] ∧ x.fileHash ≠ []) (events : List BackendEvent) :
    ∀ x, events.foldl (lastUpload f) u = some x → f ≠ [] ∧ x.fileHash ≠ [] := by
  induction events generalizing u with
  | nil => exact h
  | cons ev events ih =>
      refine ih fun x hx => ?_
      cases ev with
      | upload env outcome initialReq stream =>
          simp only [lastUpload] at hx
          cases hr : committed env outcome initialReq stream with
          | none =>
              rw [hr] at hx
              exact h x hx
          | some r =>
              obtain ⟨hname, hhash⟩ := words_of_committed hr
              rw [hr] at hx
              dsimp only at hx
              split_ifs at hx with hfile
              · cases hx
                exact ⟨hfile ▸ hname.1, hhash.1⟩
              · exact h x hx
      | deleteEntry fileName =>
          simp only [lastUpload] at hx
          split_ifs at hx
          exact h x hx
      | elapse time =>
          obtain ⟨y, hy, rfl⟩ := Option.map_eq_some_iff.mp hx
          exact h y hy
      | _ => exact h x hx

/-- What is kept is returned, but for a file on Redis whose hour is over. -/
lemma KeptIn.returned_iff {b : MetadataBackend} {f : Bytes} {u : LastUpload} (h : KeptIn b f u)
    (hf : f ≠ []) (hhash : u.fileHash ≠ []) :
    Returned b f u.fileHash ↔ b.isOnDisk = true ∨ u.age < ttl := by
  cases b with
  | onDisk m =>
      have hlisted : (m[f]?).isSome := by
        rw [← Option.isSome_map, ← MetadataMap.hashOf, h]
        rfl
      refine iff_of_true ⟨?_, fun order => ?_⟩ (.inl rfl)
      · exact MetadataMap.mem_listAllFiles.mpr hlisted
      · show (m.queryMetadata f).fileHash = u.fileHash
        rw [MetadataMap.fileHash_queryMetadata m hf, h, Option.getD_some]
  | redis s =>
      have hquery : ∀ order, (MetadataBackend.queryMetadata (.redis s) order f).fileHash =
          ((s.hgetall (fileKey f))[ascii "file_hash"]?).getD [] := by
        intro order
        show (Redis.queryMetadata s order f).fileHash = _
        rw [queryMetadata_redis s order hf]
      constructor
      · rintro ⟨-, hreturned⟩
        right
        by_contra hage
        have hnone := (hquery .inOrder).symm.trans (hreturned .inOrder)
        rw [KeptOnRedis.gone h (by omega)] at hnone
        exact hhash hnone.symm
      · rintro (hdisk | hage)
        · cases hdisk
        · obtain ⟨hget, -⟩ := KeptOnRedis.live h hage
          refine ⟨Redis.mem_listAllFiles.mpr (Bool.eq_false_of_not_eq_true fun hempty => ?_), ?_⟩
          · rw [Std.ExtTreeMap.isEmpty_iff.mp hempty] at hget
            simp at hget
          · intro order
            rw [hquery, hget]
            rfl

lemma isOnDisk_step (b : MetadataBackend) (ev : BackendEvent) :
    (backendStep b ev).isOnDisk = b.isOnDisk := by
  cases ev with
  | upload env outcome initialReq stream =>
      rw [backendStep_upload]
      cases committed env outcome initialReq stream with
      | none => rfl
      | some r => cases b <;> rfl
  | _ => cases b <;> rfl

lemma isOnDisk_run (b : MetadataBackend) (events : List BackendEvent) :
    (events.foldl backendStep b).isOnDisk = b.isOnDisk := by
  induction events generalizing b with
  | nil => rfl
  | cons ev events ih => exact (ih (backendStep b ev)).trans (isOnDisk_step b ev)

/-- **A stored file is returned exactly while the backend is the on-disk one or less than an hour
has passed since its last upload.**  The run may begin anywhere, and it may be a part of a longer
one. -/
theorem stored_file_returned_iff (b : MetadataBackend) (events : List BackendEvent) (f : Bytes)
    {u : LastUpload} (hu : events.foldl (lastUpload f) none = some u) :
    Returned (events.foldl backendStep b) f u.fileHash ↔ b.isOnDisk = true ∨ u.age < ttl := by
  obtain ⟨hf, hhash⟩ := lastUpload_nonempty (by simp) events u hu
  rw [(keptIn_run (by simp) events u hu).returned_iff hf hhash, isOnDisk_run]

/-- The upload of the file `A`, in one chunk, to a server that stores it. -/
def uploadOfLetter : BackendEvent :=
  .upload oneServer (fun _ => some (ascii "/c/0.dat"))
    (ascii "UPLOAD f 1 1 559aead08264d5795d3909718cdd05abd49572e84fe55590eef31a88a08fdffd")
    (ascii "CHUNK 0 1 559aead08264d5795d3909718cdd05abd49572e84fe55590eef31a88a08fdffd\nAEOF\n")

set_option maxRecDepth 100000 in
/-- On Redis the file is still there just before the hour is over, after a failover. -/
theorem stored_file_returned_within_the_hour :
    Returned ([uploadOfLetter, .elapse 1000,
      .deleteServerMetadata (fun _ => .inOrder) (ascii "10.0.0.1:8080"),
      .elapse (ttl - 1001)].foldl backendStep (.redis {})) (ascii "f")
      (ascii "559aead08264d5795d3909718cdd05abd49572e84fe55590eef31a88a08fdffd") := by
  have hlast : [uploadOfLetter, .elapse 1000,
      .deleteServerMetadata (fun _ => .inOrder) (ascii "10.0.0.1:8080"),
      .elapse (ttl - 1001)].foldl (lastUpload (ascii "f")) none =
      some ⟨ascii "559aead08264d5795d3909718cdd05abd49572e84fe55590eef31a88a08fdffd", ttl - 1⟩ := by
    decide +kernel
  exact (stored_file_returned_iff (.redis {}) _ (ascii "f") hlast).mpr (.inr (by decide))

set_option maxRecDepth 100000 in
/-- **An hour after its upload a file is gone**: it is listed, and an hour later it is not. -/
theorem stored_file_expires :
    [uploadOfLetter].foldl (lastUpload (ascii "f")) none =
        some ⟨ascii "559aead08264d5795d3909718cdd05abd49572e84fe55590eef31a88a08fdffd", 0⟩ ∧
      ([uploadOfLetter].foldl backendStep (.redis {})).listAllFiles = [ascii "f"] ∧
      ([uploadOfLetter, .elapse ttl].foldl backendStep (.redis {})).listAllFiles = [] ∧
      ([uploadOfLetter, .elapse ttl].foldl backendStep (.redis {})).queryMetadata .inOrder
        (ascii "f") = {} := by
  decide +kernel

end FileGrid
