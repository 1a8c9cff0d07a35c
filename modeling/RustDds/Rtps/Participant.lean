import RustDds.Core.SubInner
import RustDds.Lib.Visit
import RustDds.Rtps.Cdr
import RustDds.Rtps.Fragment
import RustDds.Rtps.Reliable
import RustDds.Rtps.Sedp
import RustDds.Rtps.Wildcard

/-!
# The participant runtime

An `RtpsParticipant` owns the readers and writers of one participant and their data path.
`handleDataPacket` takes a received datagram apart and handles each submessage;
`RtpsWriter.write` sends a sample.

Both are commands on the participant whose outputs are its effects on the outside: the datagrams
it sends, the samples it hands to its readers' queues, the files it flushes.  The start of every
dispatch is an effect as well, so that a statement can speak of the dispatches of a run.  A
panic ends the call it happens in; the participant, which other tasks share, stays as the call
left it.

A loop over the readers is a `Table.visit`, so its effect on one reader is read off its body.
The three of them differ in that body alone: `ReaderState.contact`, which is the reaction of a
reliable reader to a sample and to a HEARTBEAT, and `ReaderState.deliver`.

Every call works on one state and at one reading of the clock, monotonic and UTC.
-/

namespace RustDds

/-! ## Effects -/

/-- What a dispatch was caused by. -/
inductive Origin
  /-- A local write. -/
  | write
  /-- A DATA submessage. -/
  | data
  /-- The DATA_FRAG submessage that completed a reassembly. -/
  | dataFrag
  deriving DecidableEq, Repr

/-- A call that dispatches a sample. -/
structure Dispatch where
  origin : Origin
  source : Guid
  payload : Bytes
  seqNum : ℕ
  deriving DecidableEq

/-- What a participant does to the outside. -/
inductive Effect
  /-- Send a datagram. -/
  | send (msg : Bytes) (addr : SocketAddr)
  /-- Begin to dispatch a sample. -/
  | dispatch (d : Dispatch)
  /-- Push a sample to a reader's queue, which accepts it or not. -/
  | push (reader : EntityId) (sample : Sample) (accepted : Bool)
  /-- Write a sample to its file. -/
  | persistFlush (dir topic : String) (payload : Bytes)
  deriving DecidableEq

/-- A received datagram, and the readings of the clocks at which it is handled. -/
structure Datagram where
  now : ℕ
  utc : ℤ
  data : Bytes
  src : SocketAddr
  deriving DecidableEq

/-! ## Readers -/

/-- A reader of the participant. -/
structure ReaderState where
  topic : String
  /-- The remote writers it is matched with. -/
  sources : Finset Guid
  inner : SubInner
  reliable : Bool
  trackers : Table Guid RecvTracker

namespace ReaderState

/-- Whether the reader accepts samples of the writer `source`. -/
def acceptsSource (st : ReaderState) (ownPrefix : GuidPrefix) (source : Guid) : Bool :=
  if st.sources = ∅ then source.guidPrefix = ownPrefix
  else if source.guidPrefix = ownPrefix then true
  else source ∈ st.sources

/-- The tracker of a writer, a new one on first contact. -/
def trackerFor (st : ReaderState) (writer : Guid) : RecvTracker :=
  (st.trackers.lookup writer).getD .new

/-- The reader with the tracker of a writer replaced. -/
def setTracker (st : ReaderState) (writer : Guid) (t : RecvTracker) : ReaderState :=
  { st with trackers := st.trackers.insert writer t }

/-- The message that carries an ACKNACK. -/
def acknackMessage (header : Header) (an : AckNack) : Bytes :=
  wrapInRtpsMessage header (encodeAcknackSubmessage an)

/-- What a reader does with the report of its tracker of `source`: if an ACKNACK is needed, it
goes back to `src`. -/
def react (header : Header) (source : Guid) (src : SocketAddr) (eid : EntityId) (st : ReaderState) :
    Except Panic (ℕ × UInt32 × Bool) × RecvTracker → Outcome ReaderState Effect Panic
  | (.error p, tracker) => ⟨st.setTracker source tracker, [], some p⟩
  | (.ok (base, bitmap, needAck), tracker) =>
    if !needAck then ⟨st.setTracker source tracker, [], none⟩
    else
      let (count, tracker) := tracker.nextAckCount
      ⟨st.setTracker source tracker,
        [.send (acknackMessage header ⟨eid, source.entity, .fromU64 base, bitmap, count⟩) src],
        none⟩

/-- The reaction of a reliable reader that accepts `source` to a contact with it: `op` updates
the tracker, which then reports what is missing up to `lastSn`. -/
def contact (header : Header) (source : Guid) (src : SocketAddr)
    (op : RecvTracker → Except Panic Unit × RecvTracker) (lastSn : ℕ) (eid : EntityId)
    (st : ReaderState) : Outcome ReaderState Effect Panic :=
  if !st.reliable || !st.acceptsSource header.guidPrefix source then ⟨st, [], none⟩
  else st.react header source src eid (RecvTracker.report op lastSn (st.trackerFor source))

/-- Whether the topic of the reader, as a pattern, admits the topic of the filter. -/
def matchesTopic (st : ReaderState) : Option String → Bool
  | none => true
  | some tf => st.topic = tf || topicMatches st.topic tf

/-- Deliver a sample to the reader, if it matches. -/
def deliver (ownPrefix : GuidPrefix) (source : Guid) (topicFilter : Option String)
    (payload : Bytes) (timestamp : ℤ) (seqNum : ℕ) (eid : EntityId) (st : ReaderState) :
    Outcome ReaderState Effect Panic :=
  if !st.matchesTopic topicFilter || !st.acceptsSource ownPrefix source then ⟨st, [], none⟩
  else
    let sample : Sample := ⟨st.topic, payload, timestamp, seqNum, source.toBytes⟩
    let (accepted, inner) := st.inner.push sample
    ⟨{ st with inner }, [.push eid sample accepted], none⟩

end ReaderState

/-! ## The participant -/

/-- A writer of the participant. -/
structure WriterState where
  topic : String
  /-- The last sequence number assigned. -/
  seq : ℕ
  reliable : Bool
  /-- The messages kept for retransmission, by a reliable writer. -/
  history : Option SendHistory
  /-- The highest sequence number some reader has acknowledged. -/
  acked : ℕ

/-- Record that a reader has everything below `ackBase`. -/
def advanceAcked (st : WriterState) (ackBase : ℕ) : WriterState :=
  if ackBase = 0 then st
  else if ackBase - 1 > st.acked then { st with acked := ackBase - 1 } else st

/-- Counters of one topic. -/
structure TopicCounters where
  writes : UInt64
  delivers : UInt64
  drops : UInt64
  bytesWritten : UInt64
  bytesDelivered : UInt64
  deriving DecidableEq

/-- Counters at zero. -/
def TopicCounters.zero : TopicCounters := ⟨0, 0, 0, 0, 0⟩

/-- The state of a participant. -/
structure RtpsParticipant where
  guidPrefix : GuidPrefix
  vendorId : VendorId
  sedp : SedpService
  entityCounter : UInt32
  readers : Table EntityId ReaderState
  writers : Table EntityId WriterState
  fragAssembler : FragmentAssembler
  delivers : UInt64
  drops : UInt64
  lastSample : Table String Sample
  persistDir : Option String
  userDataMulticastAddr : Option SocketAddr
  topicMetrics : Table String TopicCounters

namespace RtpsParticipant

/-- The header of every message the participant sends. -/
def header (p : RtpsParticipant) : Header := ⟨protocolVersion23, p.vendorId, p.guidPrefix⟩

/-- Update the counters of a topic, from zero on first access. -/
def countTopic (topic : String) (f : TopicCounters → TopicCounters) (p : RtpsParticipant) :
    RtpsParticipant :=
  { p with topicMetrics :=
      p.topicMetrics.insert topic (f ((p.topicMetrics.lookup topic).getD .zero)) }

/-- Count a push as a delivery or a drop. -/
def countPush (p : RtpsParticipant) : Effect → RtpsParticipant
  | .push _ sample true =>
    countTopic sample.topic (fun c => { c with
      delivers := c.delivers + 1
      bytesDelivered := c.bytesDelivered + UInt64.ofNat sample.payload.length })
      { p with delivers := p.delivers + 1 }
  | .push _ sample false =>
    countTopic sample.topic (fun c => { c with drops := c.drops + 1 })
      { p with drops := p.drops + 1 }
  | _ => p

/-- Run the body of a loop over the readers. -/
def visitReaders (f : EntityId → ReaderState → Outcome ReaderState Effect Panic) :
    Cmd RtpsParticipant Effect Panic := fun p =>
  let o := Table.visit f p.readers
  ⟨{ p with readers := o.state }, o.out, o.panic⟩

/-- Deliver a sample to every local reader that matches.  The counters do not depend on the
readers, so they are updated after the loop. -/
def dispatchToReaders (origin : Origin) (source : Guid) (topicFilter : Option String)
    (payload : Bytes) (timestamp : ℤ) (seqNum : ℕ) : Cmd RtpsParticipant Effect Panic := fun p =>
  let o := visitReaders
    (ReaderState.deliver p.guidPrefix source topicFilter payload timestamp seqNum) p
  ⟨o.out.foldl countPush o.state, .dispatch ⟨origin, source, payload, seqNum⟩ :: o.out, o.panic⟩

/-! ## Reliability -/

/-- Tell every reliable reader that accepts the writer that `seq` has arrived. -/
def notifyReliableReaders (writerGuid : Guid) (seq : ℕ) (src : SocketAddr) :
    Cmd RtpsParticipant Effect Panic := fun p =>
  visitReaders (ReaderState.contact p.header writerGuid src (fun t => t.noteReceived seq) seq) p

/-- Tell every reliable reader that accepts the writer of its HEARTBEAT. -/
def handleHeartbeat (writerGuid : Guid) (hb : Heartbeat) (src : SocketAddr) :
    Cmd RtpsParticipant Effect Panic := fun p =>
  visitReaders (ReaderState.contact p.header writerGuid src
    (fun t => t.initExpected hb.firstSn.toU64) hb.lastSn.toU64) p

/-- The socket addresses of every matched reader of a topic. -/
def matchedAddrs (p : RtpsParticipant) (topic : String) : List SocketAddr :=
  (p.sedp.matchedReaderLocators topic).filterMap Locator.udpAddr

/-- Resend a requested message, if it is still retained. -/
def retransmit (history : SendHistory) (addrs : List SocketAddr) (ackBase bit : ℕ) :
    Cmd RtpsParticipant Effect Panic :=
  match checkedAdd 64 ackBase bit with
  | .error p => Cmd.fail p
  | .ok seq =>
    match history.get seq with
    | none => Cmd.skip
    | some msg => Cmd.emit (addrs.map (Effect.send msg))

/-- Declare the part of a request that has been evicted from the history, up to the end of the
window. -/
def sendGap (header : Header) (history : SendHistory) (an : AckNack) (addrs : List SocketAddr)
    (src : SocketAddr) : Cmd RtpsParticipant Effect Panic :=
  let ackBase := an.base.toU64
  match history.firstLast with
  | none => Cmd.skip
  | some (histFirst, _) =>
    if ackBase < histFirst then
      match checkedAdd 64 ackBase 31 with
      | .error p => Cmd.fail p
      | .ok limit =>
        let gapEnd := if histFirst - 1 > limit then limit else histFirst - 1
        let gap : Gap := ⟨an.readerEntityId, an.writerEntityId, .fromU64 ackBase, .fromU64 gapEnd⟩
        let msg := wrapInRtpsMessage header (encodeGapSubmessage gap)
        Cmd.emit ((src :: addrs).map (Effect.send msg))
    else Cmd.skip

/-- Answer a request of a reader: resend what is retained of it and declare what is not. -/
def handleAcknack (an : AckNack) (src : SocketAddr) : Cmd RtpsParticipant Effect Panic := fun p =>
  match p.writers.lookup an.writerEntityId with
  | none => Cmd.skip p
  | some st =>
    if !st.reliable then Cmd.skip p
    else
      match st.history with
      | none => Cmd.skip p
      | some history =>
        let ackBase := an.base.toU64
        let addrs := p.matchedAddrs st.topic
        ((Cmd.modify fun p => { p with
            writers := p.writers.adjust an.writerEntityId (advanceAcked · ackBase) }).andThen
          ((Cmd.forEach (retransmit history addrs ackBase) (Bitmap.members an.bitmap)).andThen
            (sendGap p.header history an addrs src))) p

/-- Advertise a reliable writer's history to every matched reader. -/
def sendHeartbeat (writerEid : EntityId) : Cmd RtpsParticipant Effect Panic := fun p =>
  match p.writers.lookup writerEid with
  | none => Cmd.skip p
  | some st =>
    match st.history with
    | none => Cmd.skip p
    | some history =>
      match history.firstLast with
      | none => Cmd.skip p
      | some (first, last) =>
        let (count, history) := history.nextHbCount
        let hb : Heartbeat := ⟨entityIdUnknown, writerEid, .fromU64 first, .fromU64 last, count⟩
        let msg := wrapInRtpsMessage p.header (encodeHeartbeatSubmessage hb)
        ⟨{ p with writers := p.writers.adjust writerEid ({ · with history := some history }) },
          (p.matchedAddrs st.topic).map (Effect.send msg), none⟩

/-! ## The receive path -/

/-- What happens to a sample once it is whole: the trackers hear of it, then it is dispatched. -/
def acceptSample (d : Datagram) (origin : Origin) (source : Guid) (payload : Bytes) (seq : ℕ) :
    Cmd RtpsParticipant Effect Panic :=
  (notifyReliableReaders source seq d.src).andThen
    (dispatchToReaders origin source none payload d.utc seq)

/-- A DATA submessage. -/
def handleData (d : Datagram) (guidPrefix : GuidPrefix) (raw : RawSubmessage) :
    Cmd RtpsParticipant Effect Panic :=
  match decodeDataSubmessage raw.flags raw.body with
  | .error _ => Cmd.skip
  | .ok ds =>
    match ds.payload with
    | none => Cmd.skip
    | some payload =>
      match unwrapPayload payload with
      | .error _ => Cmd.skip
      | .ok rawPayload =>
        acceptSample d .data ⟨guidPrefix, ds.writerEntityId⟩ rawPayload ds.seqNum.toU64

/-- A DATA_FRAG submessage. -/
def handleDataFrag (d : Datagram) (guidPrefix : GuidPrefix) (raw : RawSubmessage) :
    Cmd RtpsParticipant Effect Panic :=
  match decodeDataFrag raw.body with
  | .error _ => Cmd.skip
  | .ok frag => fun p =>
    let (fragAssembler, r) := p.fragAssembler.receive d.now frag
    ((Cmd.modify fun p => { p with fragAssembler }).andThen
      (match r with
      | .error e => Cmd.fail e
      | .ok none => Cmd.skip
      | .ok (some reassembled) =>
        match unwrapPayload reassembled with
        | .error _ => Cmd.skip
        | .ok rawPayload =>
          acceptSample d .dataFrag ⟨guidPrefix, frag.writerEntityId⟩ rawPayload
            frag.writerSeqNum.toU64)) p

/-- One submessage of a datagram sent under `guidPrefix`. -/
def handleSubmessage (d : Datagram) (guidPrefix : GuidPrefix) (raw : RawSubmessage) :
    Cmd RtpsParticipant Effect Panic :=
  if raw.id = submsgData then handleData d guidPrefix raw
  else if raw.id = submsgDataFrag then handleDataFrag d guidPrefix raw
  else if raw.id = submsgHeartbeat then
    match decodeHeartbeatSubmessage raw.body with
    | .error _ => Cmd.skip
    | .ok hb => handleHeartbeat ⟨guidPrefix, hb.writerEntityId⟩ hb d.src
  else if raw.id = submsgAcknack then
    match decodeAcknackSubmessage raw.body with
    | .error _ => Cmd.skip
    | .ok an => handleAcknack an d.src
  else Cmd.skip

/-- Handle one received datagram: every submessage before the first framing error. -/
def handleDataPacket (d : Datagram) : Cmd RtpsParticipant Effect Panic := fun p =>
  match Header.decode d.data with
  | .error _ => Cmd.skip p
  | .ok header =>
    if header.guidPrefix = p.guidPrefix then Cmd.skip p
    else Cmd.forEach (handleSubmessage d header.guidPrefix) (submessages (d.data.drop 20)) p

/-- The receive loop over a run of datagrams. -/
def receiveAll (ds : List Datagram) : Cmd RtpsParticipant Effect Panic :=
  Cmd.calls handleDataPacket ds

end RtpsParticipant

/-! ## Writing -/

/-- The wire messages of a sample: one DATA, or one DATA_FRAG for each fragment of a sample that
is too large for one. -/
def wireMessages (header : Header) (eid : EntityId) (seq : ℕ) (payload : Bytes) :
    Except Panic (List Bytes) :=
  let wrapped := wrapPayload payload
  if wrapped.length > maxFragmentPayload then
    (splitIntoFragments eid (.fromU64 seq) wrapped).map fun frags =>
      frags.map fun frag => wrapInRtpsMessage header (encodeDataFrag frag)
  else
    .ok [wrapInRtpsMessage header
      (encodeDataSubmessage eid entityIdUnknown (.fromU64 seq) wrapped)]

/-- The handle of a local writer. -/
structure RtpsWriter where
  eid : EntityId
  topic : String

namespace RtpsWriter

open RtpsParticipant

/-- Send every message to every matched reader: once to the multicast group where there is one,
or else to each matched locator in turn. -/
def sendRemote (p : RtpsParticipant) (topic : String) (msgs : List Bytes) : List Effect :=
  let locators := p.sedp.matchedReaderLocators topic
  if locators.isEmpty then []
  else match p.userDataMulticastAddr with
    | some dst => msgs.map fun msg => .send msg dst
    | none => locators.flatMap fun locator =>
      match locator.udpAddr with
      | some addr => msgs.map fun msg => .send msg addr
      | none => []

/-- What a write does once its messages are built: the sample is retained, cached, persisted,
dispatched to local readers, sent to remote ones, and a reliable writer follows with a
HEARTBEAT. -/
def publish (w : RtpsWriter) (utc : ℤ) (reliable : Bool) (seq : ℕ) (payload : Bytes)
    (msgs : List Bytes) : Cmd RtpsParticipant Effect Panic := fun p =>
  let source : Guid := ⟨p.guidPrefix, w.eid⟩
  let store (st : WriterState) : WriterState :=
    match msgs.head? with
    | some first => { st with history := st.history.map fun h => h.store seq first }
    | none => st
  ((Cmd.modify fun p => { p with
      writers := p.writers.adjust w.eid store
      lastSample :=
        p.lastSample.insert w.topic ⟨w.topic, payload, utc, seq, source.toBytes⟩ }).andThen
    ((Cmd.emit (match p.persistDir with
      | some dir => [.persistFlush dir w.topic payload]
      | none => [])).andThen
      ((dispatchToReaders .write source (some w.topic) payload utc seq).andThen
        ((Cmd.emit (sendRemote p w.topic msgs)).andThen
          (if reliable then sendHeartbeat w.eid else Cmd.skip))))) p

/-- Write a sample. -/
def write (w : RtpsWriter) (utc : ℤ) (payload : Bytes) : Cmd RtpsParticipant Effect Panic :=
  fun p =>
    match p.writers.lookup w.eid with
    | none => Cmd.skip p
    | some st =>
      -- the counter itself wraps
      let p := { p with
        writers := p.writers.adjust w.eid ({ · with seq := wrappingAdd 64 st.seq 1 }) }
      match checkedAdd 64 st.seq 1 with
      | .error e => Cmd.fail e p
      | .ok seq =>
        let p := countTopic w.topic (fun c => { c with
          writes := c.writes + 1
          bytesWritten := c.bytesWritten + UInt64.ofNat payload.length }) p
        match wireMessages p.header w.eid seq payload with
        | .error e => Cmd.fail e p
        | .ok msgs => w.publish utc st.reliable seq payload msgs p

end RtpsWriter

end RustDds
