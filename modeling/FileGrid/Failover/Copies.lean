import FileGrid.Failover.Preservation
import FileGrid.Grid.Links

/-!
# What a failover copies

The copies of a failover, over the storage nodes.  A copy reads the chunk from the first surviving
server that is listed, writes what it read to the target, and records the new replica with the
checksum of the *dead* server's record.  Nothing compares that checksum with the bytes.

`copySteps` lists the copies that succeed together with the nodes before and after each, and
`rereplicate_checksums_iff` says when the records they leave are true of the bytes on the target:
exactly when each survivor that is read serves bytes with the checksum of the dead server's record.
A survivor with other bytes is copied under a checksum they do not have
(`rereplicate_launders_corruption`).
-/

namespace FileGrid

/-! ## The steps of a failover -/

/-- A copy that succeeds: the state before it, the state after it, and the path it reports. -/
structure CopyStep (σ : Type) where
  before : σ
  job : Job
  after : σ
  path : Bytes

/-- The record the copy leaves. -/
def CopyStep.record {σ : Type} (c : CopyStep σ) : ChunkRecord := c.job.record c.path

section

variable {σ : Type} (copy : σ → Job → σ × Option Bytes)

def copySteps : σ → List Job → List (CopyStep σ)
  | _, [] => []
  | s, job :: jobs =>
      match copy s job with
      | (s', none) => copySteps s' jobs
      | (s', some path) => { before := s, job, after := s', path } :: copySteps s' jobs

/-- Each step is a copy of a planned job, made in the state before it. -/
lemma copySteps_spec {s : σ} {jobs : List Job} {c : CopyStep σ} (h : c ∈ copySteps copy s jobs) :
    c.job ∈ jobs ∧ copy c.before c.job = (c.after, some c.path) := by
  induction jobs generalizing s with
  | nil => simp [copySteps] at h
  | cons job jobs ih =>
      cases hcopy : copy s job with
      | mk s' result =>
          cases result with
          | none =>
              simp only [copySteps, hcopy] at h
              exact ⟨List.mem_cons_of_mem _ (ih h).1, (ih h).2⟩
          | some path =>
              simp only [copySteps, hcopy, List.mem_cons] at h
              rcases h with rfl | h
              · exact ⟨List.mem_cons_self, hcopy⟩
              · exact ⟨List.mem_cons_of_mem _ (ih h).1, (ih h).2⟩

/-- The steps of the failover of a server. -/
def failoverSteps (registry : ServerRegistry) (health : HealthMonitor) (dead : Bytes) (s : σ)
    (m : MetadataMap) : List (CopyStep σ) :=
  copySteps copy s (plan m dead (healthyServers registry health dead))

end

/-! ## The bytes of a copy -/

section

variable (d : Deployment) (env : Nat → CopyEnv)

/-- What the source of a copy serves to the head, in the given state. -/
def servedBytes (s : Nat × Nodes) (source sourcePath filename : Bytes) (chunkId : Int) : Bytes :=
  (readChunkFromServer d s.2 (env s.1).readLink source filename (wrap32 chunkId) sourcePath).2

/-- What then reaches the target: the same bytes, unless the message is too long for protobuf. -/
def sentBytes (s : Nat × Nodes) (source sourcePath filename : Bytes) (chunkId : Int) : Bytes :=
  (chunkMessage filename (wrap32 chunkId)
    (servedBytes d env s source sourcePath filename chunkId)).data

/-- **A copy that succeeds has put the bytes of its source on the target**, at the path it
reports. -/
theorem gridCopy_written {s s' : Nat × Nodes} {job : Job} {path : Bytes}
    (h : gridCopy d env s job = (s', some path)) :
    ∃ n, d.transferNode job.target = some n ∧
      (s'.2 n).disk[path]? =
        some (sentBytes d env s job.source job.sourcePath job.filename job.chunkId) := by
  unfold gridCopy replicateChunkToServer at h
  dsimp only at h
  split_ifs at h with hempty
  · cases h
  · obtain ⟨hstate, hpath⟩ := Prod.mk.inj h
    rcases sendChunkToServer_cases d
        (readChunkFromServer d s.2 (env s.1).readLink job.source job.filename (wrap32 job.chunkId)
          job.sourcePath).1 (env s.1).writeLink (env s.1).fault (env s.1).epochUs job.target
        job.filename (wrap32 job.chunkId)
        (servedBytes d env s job.source job.sourcePath job.filename job.chunkId) with
      hnone | ⟨n, hn, -, hnodes, hreport⟩
    · exact absurd ((congrArg Prod.snd hnone).symm.trans hpath) (by simp)
    · refine ⟨n, hn, ?_⟩
      have hnodes' : s'.2 = _ := (congrArg Prod.snd hstate).symm.trans hnodes
      rw [hnodes', Function.update_self]
      exact (Node.holds_storeChunk (hreport path hpath)).file

/-- **When the records of a failover are true of the bytes**: exactly when, at every copy that
succeeds, the first survivor of the chunk serves bytes whose SHA-256 is the checksum of the dead
server's record. -/
theorem rereplicate_checksums_iff (health : HealthMonitor) (dead : Bytes) (nodes : Nodes)
    (m : MetadataMap) :
    (∀ c ∈ failoverSteps (gridCopy d env) d.registry health dead (0, nodes) m, ∀ n data,
      d.transferNode c.job.target = some n → (c.after.2 n).disk[c.path]? = some data →
        c.record.checksum = sha256 data) ↔
    (∀ c ∈ failoverSteps (gridCopy d env) d.registry health dead (0, nodes) m, ∀ r,
      firstSurvivor dead (recordsOf m c.job.filename c.job.chunkId) = some r →
        lastDeadChecksum dead (recordsOf m c.job.filename c.job.chunkId) =
          sha256 (sentBytes d env c.before r.server r.path c.job.filename c.job.chunkId)) := by
  -- for one step, both sides speak of the same checksum and of the same bytes
  have key : ∀ c ∈ failoverSteps (gridCopy d env) d.registry health dead (0, nodes) m,
      ∃ r n, firstSurvivor dead (recordsOf m c.job.filename c.job.chunkId) = some r ∧
        d.transferNode c.job.target = some n ∧
        (c.after.2 n).disk[c.path]? =
          some (sentBytes d env c.before r.server r.path c.job.filename c.job.chunkId) ∧
        c.record.checksum = lastDeadChecksum dead (recordsOf m c.job.filename c.job.chunkId) := by
    intro c hc
    obtain ⟨hplan, hcopy⟩ := copySteps_spec _ hc
    have hspec := jobOf_spec (mem_plan.mp hplan).2.2
    obtain ⟨r, hr, hsource, hpath⟩ := hspec.source
    obtain ⟨n, hn, hdisk⟩ := gridCopy_written d env hcopy
    refine ⟨r, n, hr, hn, ?_, hspec.checksum⟩
    rw [hdisk, hsource, hpath]
  constructor
  · intro h c hc r hr
    obtain ⟨r', n, hr', hn, hdisk, hsum⟩ := key c hc
    obtain rfl : r' = r := Option.some.inj (hr'.symm.trans hr)
    rw [← hsum]
    exact h c hc n _ hn hdisk
  · intro h c hc n data hn hdata
    obtain ⟨r, n', hr, hn', hdisk, hsum⟩ := key c hc
    obtain rfl : n' = n := Option.some.inj (hn'.symm.trans hn)
    rw [hdisk] at hdata
    rw [hsum, ← Option.some.inj hdata]
    exact h c hc r hr

end

/-! ## A survivor with other bytes -/

/-- The nodes of `threeServers`: node `i` has the address `10.0.0.i`. -/
def smallNetwork : Network :=
  let at_ (port : Nat) (ip : List Nat) (p : Nat) : Option Nat :=
    if p = port then [[10, 0, 0, 1], [10, 0, 0, 2], [10, 0, 0, 3]].findIdx? (· = ip) else none
  { transferAt := at_ 8180, publicAt := at_ 8280, baseAt := at_ 8080 }

def smallGrid : Deployment := { net := smallNetwork, registry := threeServers }

/-- The grid with server 1 alone. -/
def loneGrid : Deployment := { net := smallNetwork, registry := oneServer.registry }

/-- A node that holds these bytes for chunk 0 of `f`, in the file `/p`. -/
def nodeHolding (data : Bytes) : Node where
  chunkRegistry := (∅ : Map Bytes Bytes).insert (chunkKey (ascii "f") 0) (ascii "/p")
  disk := (∅ : Map Bytes Bytes).insert (ascii "/p") data

/-- The file `A`, uploaded as `f` to servers 1 and 2; the replica on server 2 has become `B`. -/
def corruptNodes : Nodes := fun n =>
  if n = 0 then nodeHolding [65] else if n = 1 then nodeHolding [66] else {}

def corruptFile : MetadataMap :=
  (∅ : MetadataMap).replaceFileChunks (ascii "f") (sha256 [65])
    ([serverOne, serverTwo].map fun srv =>
      { chunkId := 0, server := srv, path := ascii "/p", checksum := sha256 [65] })

set_option maxRecDepth 100000 in
/-- Server 1 dies: `B` is copied from server 2 to server 3, and recorded with the checksum of
`A`. -/
theorem rereplicate_launders_corruption :
    let steps := failoverSteps (gridCopy smallGrid fun _ => {}) threeServers {} serverOne
      (0, corruptNodes) corruptFile
    steps.map (fun c => (c.record.chunkId, c.record.server, c.record.checksum)) =
        [(0, serverThree, sha256 [65])] ∧
      steps.map (fun c => (c.after.2 2).disk[c.path]?) = [some [66]] ∧
      sha256 [65] ≠ sha256 [66] := by
  decide +kernel

end FileGrid
