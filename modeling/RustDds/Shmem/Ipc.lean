import Mathlib.Data.List.TakeDrop
import RustDds.Core.SubInner
import RustDds.Lib.Pool

/-!
# The rendezvous file

A sample crosses from one process to another through the file `data.bin` of its domain and topic.
`writeSample` writes the encoded sample to `data.bin.tmp` and renames that into place;
`readCurrent` reads what is at `data.bin` and decodes it.

The directory of one domain and topic is a `TopicDir`: the contents of the inodes, and the inode
each of the two names stands for.  Creating a file that exists truncates its inode, and a file
that is open goes on naming its inode whatever happens to the name.  Each file operation is a step
of its own, and writes and reads move any number of bytes at a time.  An operation may fail, and
the process may die before it.
-/

namespace RustDds

/-! ## The format -/

/-- A payload declared longer than this is not read. -/
def maxPayloadBytes : ℕ := 16 * 1024 * 1024

/-- The bytes before the payload. -/
def headerLen : ℕ := 8 + 8 + 8 + 16 + 4

/-- `timestamp_nanos_opt().unwrap_or(0)`. -/
def timestampUnixNanos (timestamp : ℤ) : ℤ :=
  if -2 ^ 63 ≤ timestamp ∧ timestamp < 2 ^ 63 then timestamp else 0

/-- The file for a sample, as the process `originId` writes it. -/
def encodeSample (originId : UInt64) (sample : Sample) : Bytes :=
  Bytes.ofNatLE 8 originId.toNat ++
    (Bytes.ofNatLE 8 sample.sequenceNumber ++
      (Bytes.ofNatLE 8 (timestampUnixNanos sample.timestamp % 2 ^ 64).toNat ++
        (sample.writerGuid.bytes ++ (Bytes.ofNatLE 4 sample.payload.length ++ sample.payload))))

/-- What the file says. -/
structure Decoded where
  originId : UInt64
  seq : ℕ
  timestampUnixNanos : ℤ
  writerGuid : FixedBytes 16
  payload : Bytes
  deriving DecidableEq

/-- Why the file could not be read. -/
inductive DecodeError
  | truncated
  | oversizedPayload
  | io
  deriving DecidableEq, Repr

/-- `i64::from_le_bytes` of eight bytes. -/
def readI64 (b : Bytes) : ℤ :=
  if Bytes.toNatLE b < 2 ^ 63 then Bytes.toNatLE b else (Bytes.toNatLE b : ℤ) - 2 ^ 64

/-- Read the header and as much payload as it declares. -/
def decodeSample (bytes : Bytes) : Except DecodeError Decoded :=
  if h : bytes.length < headerLen then .error .truncated
  else
    let payloadLen := Bytes.toNatLE (Bytes.slice bytes 40 44)
    if payloadLen > maxPayloadBytes then .error .oversizedPayload
    else if bytes.length < headerLen + payloadLen then .error .truncated
    else .ok {
      originId := UInt64.ofNat (Bytes.toNatLE (Bytes.slice bytes 0 8))
      seq := Bytes.toNatLE (Bytes.slice bytes 8 16)
      timestampUnixNanos := readI64 (Bytes.slice bytes 16 24)
      writerGuid := ⟨Bytes.slice bytes 24 40, by
        simp only [headerLen, not_lt] at h
        rw [Bytes.length_slice]
        omega⟩
      payload := Bytes.slice bytes headerLen (headerLen + payloadLen) }

lemma length_encodeSample (originId : UInt64) (sample : Sample) :
    (encodeSample originId sample).length = headerLen + sample.payload.length := by
  simp [encodeSample, headerLen]
  omega

lemma readI64_ofNatLE {n : ℤ} (h : -2 ^ 63 ≤ n ∧ n < 2 ^ 63) :
    readI64 (Bytes.ofNatLE 8 (n % 2 ^ 64).toNat) = n := by
  have hnonneg : 0 ≤ n % 2 ^ 64 := Int.emod_nonneg _ (by decide)
  have hlt : n % 2 ^ 64 < 2 ^ 64 := Int.emod_lt_of_pos _ (by decide)
  have hnat : (n % 2 ^ 64).toNat % 256 ^ 8 = (n % 2 ^ 64).toNat :=
    Nat.mod_eq_of_lt (by omega)
  rw [readI64, Bytes.toNatLE_ofNatLE, hnat]
  split <;> omega

lemma timestampUnixNanos_range (timestamp : ℤ) :
    -2 ^ 63 ≤ timestampUnixNanos timestamp ∧ timestampUnixNanos timestamp < 2 ^ 63 := by
  rw [timestampUnixNanos]
  split <;> omega

/-- What a file says that `encode` made.  The length of the payload is kept in 32 bits. -/
lemma decodeSample_encodeSample_eq (originId : UInt64) (sample : Sample) :
    decodeSample (encodeSample originId sample) =
      if maxPayloadBytes < sample.payload.length % 2 ^ 32 then .error .oversizedPayload
      else .ok ⟨originId, sample.sequenceNumber % 2 ^ 64, timestampUnixNanos sample.timestamp,
        sample.writerGuid, sample.payload.take (sample.payload.length % 2 ^ 32)⟩ := by
  have hid : Bytes.slice (encodeSample originId sample) 0 8 = Bytes.ofNatLE 8 originId.toNat :=
    Bytes.slice_append_left (by simp)
  have hsn : Bytes.slice (encodeSample originId sample) 8 16 =
      Bytes.ofNatLE 8 sample.sequenceNumber := by
    simpa [encodeSample, Bytes.slice_append_right] using Bytes.slice_append_left (by simp)
  have hstamp : Bytes.slice (encodeSample originId sample) 16 24 =
      Bytes.ofNatLE 8 (timestampUnixNanos sample.timestamp % 2 ^ 64).toNat := by
    simpa [encodeSample, Bytes.slice_append_right] using Bytes.slice_append_left (by simp)
  have hguid : Bytes.slice (encodeSample originId sample) 24 40 = sample.writerGuid.bytes := by
    simpa [encodeSample, Bytes.slice_append_right] using Bytes.slice_append_left (by simp)
  have hdeclared : Bytes.slice (encodeSample originId sample) 40 44 =
      Bytes.ofNatLE 4 sample.payload.length := by
    simpa [encodeSample, Bytes.slice_append_right] using Bytes.slice_append_left (by simp)
  have hbody (n : ℕ) : Bytes.slice (encodeSample originId sample) headerLen (headerLen + n) =
      sample.payload.take n := by
    have hwidth : 44 + n - 8 - 8 - 8 - 16 - 4 = n := by omega
    have htake : Bytes.slice sample.payload 0 n = sample.payload.take n := by simp [Bytes.slice]
    simpa [encodeSample, headerLen, Bytes.slice_append_right, hwidth] using htake
  have hcount : Bytes.toNatLE (Bytes.slice (encodeSample originId sample) 40 44) =
      sample.payload.length % 2 ^ 32 := by
    rw [hdeclared, Bytes.toNatLE_ofNatLE]
    norm_num
  have hle : sample.payload.length % 2 ^ 32 ≤ sample.payload.length := Nat.mod_le _ _
  have hid' : originId.toNat % 2 ^ 64 = originId.toNat := Nat.mod_eq_of_lt originId.toNat_lt
  have hwidth : (256 : ℕ) ^ 8 = 2 ^ 64 := by norm_num
  rw [decodeSample, dif_neg (by rw [length_encodeSample]; omega)]
  simp only [hcount, gt_iff_lt, length_encodeSample]
  split
  · rfl
  · rw [if_neg (by omega)]
    simp only [hid, hsn, hstamp, hguid, hbody, Bytes.toNatLE_ofNatLE,
      readI64_ofNatLE (timestampUnixNanos_range sample.timestamp), hwidth, hid', UInt64.ofNat_toNat]

/-- The sample comes out of the file as it went in, its topic aside, which the reader knows. -/
def Sample.Fits (sample : Sample) : Prop :=
  sample.payload.length ≤ maxPayloadBytes ∧
    -2 ^ 63 ≤ sample.timestamp ∧ sample.timestamp < 2 ^ 63

instance (sample : Sample) : Decidable sample.Fits := inferInstanceAs (Decidable (_ ∧ _))

/-- **A sample survives the file** exactly if it fits. -/
theorem decodeSample_encodeSample (originId : UInt64) (sample : Sample)
    (hseq : sample.sequenceNumber < 2 ^ 64) :
    decodeSample (encodeSample originId sample) =
        .ok ⟨originId, sample.sequenceNumber, sample.timestamp, sample.writerGuid,
          sample.payload⟩ ↔
      sample.Fits := by
  rw [decodeSample_encodeSample_eq, Nat.mod_eq_of_lt hseq, Sample.Fits]
  have htime : timestampUnixNanos sample.timestamp = sample.timestamp ↔
      -2 ^ 63 ≤ sample.timestamp ∧ sample.timestamp < 2 ^ 63 := by
    rw [timestampUnixNanos]
    split <;> omega
  have htake : sample.payload.take (sample.payload.length % 2 ^ 32) = sample.payload ↔
      sample.payload.length < 2 ^ 32 := by
    rw [List.take_eq_self_iff]
    omega
  rw [← htime, maxPayloadBytes]
  split
  · simp only [reduceCtorEq, false_iff]
    omega
  · simp only [Except.ok.injEq, Decoded.mk.injEq, htake, true_and]
    omega

/-! ## The directory -/

/-- The directory of one domain and topic. -/
structure TopicDir where
  /-- The contents of the inodes. -/
  content : ℕ → Bytes
  /-- The number of inodes there have been. -/
  inodes : ℕ
  /-- The inode of `data.bin.tmp`. -/
  tmp : Option ℕ
  /-- The inode of `data.bin`. -/
  data : Option ℕ

namespace TopicDir

/-- A directory without files. -/
def empty : TopicDir := ⟨fun _ => [], 0, none, none⟩

/-- Replace the contents of an inode. -/
def setContent (d : TopicDir) (inode : ℕ) (bytes : Bytes) : TopicDir :=
  { d with content := Function.update d.content inode bytes }

/-- `File::create` of `data.bin.tmp`: the inode, emptied. -/
def createTmp (d : TopicDir) : ℕ × TopicDir :=
  match d.tmp with
  | some inode => (inode, d.setContent inode [])
  | none => (d.inodes, { d.setContent d.inodes [] with
      inodes := d.inodes + 1
      tmp := some d.inodes })

/-- Write bytes at an offset, with zeros in the gap if the file ends before it. -/
def overwrite (old : Bytes) (pos : ℕ) (chunk : Bytes) : Bytes :=
  old.take pos ++ List.replicate (pos - old.length) 0 ++ chunk ++ old.drop (pos + chunk.length)

/-- `rename` of `data.bin.tmp` to `data.bin`; it fails if there is no such file. -/
def renameTmp (d : TopicDir) : TopicDir :=
  match d.tmp with
  | some inode => { d with tmp := none, data := some inode }
  | none => d

end TopicDir

/-! ## Writers and readers -/

/-- A call of `write_sample`. -/
structure WriteCall where
  originId : UInt64
  sample : Sample
  deriving DecidableEq

/-- What the call writes. -/
def WriteCall.bytes (call : WriteCall) : Bytes := encodeSample call.originId call.sample

/-- How a file operation goes. -/
inductive Io
  /-- It succeeds.  A read or a write moves at most `n` bytes. -/
  | ok (n : ℕ)
  | interrupted
  | fail
  /-- The process dies before it. -/
  | crash
  deriving DecidableEq, Repr

/-- What is left of a call. -/
inductive IpcTask
  /-- A `write_sample` that has the directory to create. -/
  | createDir (call : WriteCall)
  /-- It has `data.bin.tmp` to create. -/
  | createTmp (call : WriteCall)
  /-- It has written the first `pos` bytes to the open file. -/
  | writing (call : WriteCall) (inode pos : ℕ)
  /-- It has `data.bin.tmp` to rename. -/
  | rename (call : WriteCall) (inode : ℕ)
  /-- A `read_current` that has `data.bin` to open. -/
  | openData
  /-- It has read some bytes from the open file. -/
  | reading (inode : ℕ) (bytes : Bytes)
  /-- The call is over, or its process dead. -/
  | done
  deriving DecidableEq

/-- The directory, the `write_sample` calls so far, and what the `read_current` calls that
returned have read. -/
structure Rendezvous where
  dir : TopicDir
  written : List WriteCall
  read : List (Except DecodeError Decoded)

namespace Rendezvous

/-- An empty directory. -/
def new : Rendezvous := ⟨.empty, [], []⟩

/-- The next step of a call, if its operation succeeds. -/
def advance (n : ℕ) (r : Rendezvous) : IpcTask → Rendezvous × IpcTask
  | .createDir call => ({ r with written := r.written ++ [call] }, .createTmp call)
  | .createTmp call => ({ r with dir := r.dir.createTmp.2 }, .writing call r.dir.createTmp.1 0)
  | .writing call inode pos =>
    if pos = call.bytes.length then (r, .rename call inode)
    -- a write that moves no byte is an error
    else if n = 0 then (r, .done)
    else
      let chunk := (call.bytes.drop pos).take n
      let content := TopicDir.overwrite (r.dir.content inode) pos chunk
      ({ r with dir := r.dir.setContent inode content },
        .writing call inode (pos + chunk.length))
  | .rename _ _ => ({ r with dir := r.dir.renameTmp }, .done)
  | .openData =>
    match r.dir.data with
    | some inode => (r, .reading inode [])
    | none => ({ r with read := r.read ++ [.error .io] }, .done)
  | .reading inode bytes =>
    let rest := (r.dir.content inode).drop bytes.length
    if rest = [] then ({ r with read := r.read ++ [decodeSample bytes] }, .done)
    else (r, .reading inode (bytes ++ rest.take (max 1 n)))
  | .done => (r, .done)

/-- The next step of a call whose operation fails: a writer gives up, and so does a reader. -/
def giveUp (r : Rendezvous) : IpcTask → Rendezvous × IpcTask
  | .openData => ({ r with read := r.read ++ [.error .io] }, .done)
  | .reading _ _ => ({ r with read := r.read ++ [.error .io] }, .done)
  | _ => (r, .done)

/-- The next step of a call. -/
def move : Io → Rendezvous → IpcTask → Rendezvous × IpcTask
  | .ok n, r, t => r.advance n t
  | .interrupted, r, t => (r, t)
  | .fail, r, t => r.giveUp t
  | .crash, r, _ => (r, .done)

/-- The writers and readers of a directory, as a program. -/
def program : Program Rendezvous IpcTask Io Empty where
  move := move
  env e := e.elim

/-- A call on the directory. -/
inductive Call
  | writeSample (call : WriteCall)
  | readCurrent
  deriving DecidableEq

/-- The whole of a call. -/
def Call.task : Call → IpcTask
  | writeSample call => .createDir call
  | readCurrent => .openData

/-- An empty directory, and calls on it of which none has begun. -/
def start (calls : ℕ → Call) : Pool Rendezvous IpcTask := ⟨new, fun i => (calls i).task⟩

end Rendezvous

end RustDds
