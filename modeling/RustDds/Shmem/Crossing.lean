import RustDds.Lib.Panic
import RustDds.Lib.Run
import RustDds.Shmem.Ipc

/-!
# Samples that cross between processes

One domain and topic, with publishers in any number of processes, and one subscriber in the
process `selfOrigin`.  A write draws the number, hands the sample to the broker of its own
process, and then replaces the rendezvous file; the second part may come at any time later, or
never.  The broker of the process `selfOrigin` pushes to the subscriber at once.  What the others
write reaches it through the poller, which looks at the file once to begin with and then at every
tick.

A sample is known by the position of its write among all of them.  The state keeps what the code
does not: which writes were done when the subscriber was created, and what each look of the
poller found.  What the subscriber's queue does with a push is the matter of `SubInner`.
-/

namespace RustDds

/-- A publisher on the topic, in the process `originId`. -/
structure ShmemPublisher where
  originId : UInt64
  writerGuid : FixedBytes 16
  transientLocal : Bool
  seq : UInt64
  deriving DecidableEq

/-! ## The poller -/

/-- `spawn_poller`, up to its loop: the `last_seq` it begins with, and what it delivers. -/
def seedPoller (selfOrigin : UInt64) (transientLocal : Bool) : Option Decoded → ℕ × Option Decoded
  | none => (0, none)
  | some d => (d.seq, if d.originId ≠ selfOrigin ∧ transientLocal then some d else none)

/-- One turn of its loop. -/
def tickPoller (selfOrigin : UInt64) (lastSeq : ℕ) : Option Decoded → ℕ × Option Decoded
  | none => (lastSeq, none)
  | some d =>
    if d.originId = selfOrigin ∨ d.seq ≤ lastSeq then (lastSeq, none) else (d.seq, some d)

/-- The sample that `deliver` pushes. -/
def Decoded.toSample (topic : String) (d : Decoded) : Sample :=
  ⟨topic, d.payload, d.timestampUnixNanos, d.seq, d.writerGuid⟩

/-- A look at the file: the write it found there, what that decodes to, and what was delivered. -/
structure Look where
  found : Option ℕ
  content : Option Decoded
  delivered : Option Decoded
  deriving DecidableEq

/-- A subscriber. -/
structure Listener where
  transientLocal : Bool
  /-- The writes that were done when it was created. -/
  old : List ℕ
  lastSeq : ℕ
  looks : List Look
  /-- The samples pushed into its queue, each with its write. -/
  pushed : List (ℕ × Sample)
  deriving DecidableEq

namespace Listener

/-- Push a sample. -/
def push (l : Listener) (i : ℕ) (x : Sample) : Listener :=
  { l with pushed := l.pushed ++ [(i, x)] }

/-- What the poller makes of the file: at first, or at a tick. -/
def poll (selfOrigin : UInt64) (l : Listener) (content : Option Decoded) : ℕ × Option Decoded :=
  if l.looks = [] then seedPoller selfOrigin l.transientLocal content
  else tickPoller selfOrigin l.lastSeq content

end Listener

/-- The topic. -/
structure Crossing where
  publishers : List ShmemPublisher
  /-- All writes, as they drew their numbers. -/
  writes : List WriteCall
  /-- Those that have not replaced the file. -/
  pending : List ℕ
  /-- Those that have, in order. -/
  landed : List ℕ
  /-- What the broker of the process `selfOrigin` has cached. -/
  lastSample : Option ℕ
  listener : Option Listener
  deriving DecidableEq

/-- What happens. -/
inductive CrossEvent
  | newPublisher (originId : UInt64) (writerGuid : FixedBytes 16) (transientLocal : Bool)
  | write (publisher : ℕ) (payload : Bytes) (now : ℤ)
  /-- A write replaces the file. -/
  | land (write : ℕ)
  | subscribe (transientLocal : Bool)
  /-- The poller looks at the file. -/
  | look
  deriving DecidableEq

namespace Crossing

/-- No publisher, no file, no subscriber. -/
def new : Crossing := ⟨[], [], [], [], none, none⟩

section
variable (selfOrigin : UInt64) (topic : String) (s : Crossing)

/-- The write is by a publisher of the subscriber's process. -/
def IsOwn (i : ℕ) : Prop := ∃ w, s.writes[i]? = some w ∧ w.originId = selfOrigin

instance (i : ℕ) : Decidable (s.IsOwn selfOrigin i) :=
  decidable_of_iff ((s.writes[i]?.any fun w => w.originId = selfOrigin) = true) <| by
    simp [IsOwn, Option.any_eq_true]

/-- What the file says after a write. -/
def content (i : ℕ) : Option Decoded :=
  s.writes[i]?.bind fun w => (decodeSample w.bytes).toOption

/-- `write_payload`, up to the file.  The counter itself wraps. -/
def write (publisher : ℕ) (payload : Bytes) (now : ℤ) : Crossing :=
  match s.publishers[publisher]? with
  | none => s
  | some pub =>
    let s' := { s with publishers :=
      s.publishers.modify publisher fun pub => { pub with seq := pub.seq + 1 } }
    match checkedAdd 64 pub.seq.toNat 1 with
    | .error _ => s'
    | .ok n =>
      let x : Sample := ⟨topic, payload, now, n, pub.writerGuid⟩
      let i := s.writes.length
      { s' with
        writes := s.writes ++ [⟨pub.originId, x⟩]
        pending := i :: s.pending
        lastSample :=
          if pub.originId = selfOrigin ∧ pub.transientLocal then some i else s.lastSample
        listener :=
          if pub.originId = selfOrigin then s.listener.map fun l => l.push i x
          else s.listener }

/-- `subscribe`, with the sample cached by the broker. -/
def subscribe (transientLocal : Bool) : Crossing :=
  let cached := if transientLocal then s.lastSample else none
  let own := (List.range s.writes.length).filter fun i => s.IsOwn selfOrigin i
  { s with listener := some {
      transientLocal
      old := own ++ s.landed
      lastSeq := 0
      looks := []
      pushed := cached.toList.filterMap fun i => s.writes[i]?.map fun w => (i, w.sample) } }

/-- A look of the poller. -/
def look (l : Listener) : Listener :=
  let found := s.landed.getLast?
  let content := found.bind s.content
  let delivered := (l.poll selfOrigin content).2
  { l with
    lastSeq := (l.poll selfOrigin content).1
    looks := l.looks ++ [⟨found, content, delivered⟩]
    pushed := l.pushed ++
      (found.toList.zip delivered.toList).map fun (i, d) => (i, d.toSample topic) }

/-- One event.  One that cannot happen leaves everything as it is. -/
def step : CrossEvent → Crossing
  | .newPublisher originId writerGuid transientLocal =>
    { s with publishers := s.publishers ++ [⟨originId, writerGuid, transientLocal, 0⟩] }
  | .write publisher payload now => s.write selfOrigin topic publisher payload now
  | .land i =>
    if i ∈ s.pending then { s with pending := s.pending.erase i, landed := s.landed ++ [i] } else s
  | .subscribe transientLocal =>
    if s.listener = none then s.subscribe selfOrigin transientLocal else s
  | .look => { s with listener := s.listener.map (s.look selfOrigin topic) }

/-- A run. -/
def run (events : List CrossEvent) : Crossing := events.foldl (step selfOrigin topic) new

/-- The looks of the poller. -/
def looks : List Look := (s.listener.map Listener.looks).getD []

/-- What has been pushed to the subscriber. -/
def pushed : List (ℕ × Sample) := (s.listener.map Listener.pushed).getD []

end

end Crossing

end RustDds
