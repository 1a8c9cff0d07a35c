import RustDds.Rtps.Guid

/-!
# RTPS messages

An RTPS message is a 20-byte `Header` followed by submessages, each a 4-byte
`SubmessageHeader` and a body.  This file holds the framing and the body codecs of DATA,
HEARTBEAT, ACKNACK and GAP (GAP has an encoder only).  DATA_FRAG is in `Rtps/Fragment.lean`.

A body is a right-nested concatenation of fields of known widths, so each decoder is read
against its encoder by skipping fields (`Bytes.readU32_append_right` and its kin).  The framing
result is `submessages_frame`: an encoded submessage followed by `rest` is read back as itself,
then `rest`.
-/

namespace RustDds

/-! ## Protocol version, vendor id -/

/-- RTPS protocol version. -/
structure ProtocolVersion where
  major : UInt8
  minor : UInt8
  deriving DecidableEq

/-- RTPS 2.3. -/
def protocolVersion23 : ProtocolVersion := ⟨2, 3⟩

namespace ProtocolVersion

/-- The 2-byte wire encoding. -/
def encode (v : ProtocolVersion) : Bytes := [v.major, v.minor]

/-- Decode the first 2 bytes of `buf`. -/
def decode (buf : Bytes) : Except RtpsDecodeError ProtocolVersion :=
  if buf.length < 2 then .error (.truncated 2 buf.length)
  else .ok { major := Bytes.readU8 buf 0, minor := Bytes.readU8 buf 1 }

@[simp] lemma length_encode (v : ProtocolVersion) : v.encode.length = 2 := by simp [encode]

@[simp] lemma decode_encode (v : ProtocolVersion) : decode v.encode = .ok v := rfl

end ProtocolVersion

/-- 2-byte RTPS vendor identifier. -/
abbrev VendorId := FixedBytes 2

/-- This implementation's vendor id. -/
def vendorIdRustDds : VendorId := ⟨[0x01, 0x28], rfl⟩

/-! ## Sequence numbers -/

/-- 8-byte writer sequence number, packed as `high : low`. -/
@[ext] structure SequenceNumber where
  high : Int32
  low : UInt32
  deriving DecidableEq

namespace SequenceNumber

/-- The 8-byte wire encoding: `high`, then `low`, each little-endian. -/
def encode (sn : SequenceNumber) : Bytes :=
  Bytes.ofU32 sn.high.toUInt32 ++ Bytes.ofU32 sn.low

/-- Decode the first 8 bytes of `buf`. -/
def decode (buf : Bytes) : Except RtpsDecodeError SequenceNumber :=
  if buf.length < 8 then .error (.truncated 8 buf.length)
  else .ok { high := (Bytes.readU32 buf 0).toInt32, low := Bytes.readU32 buf 4 }

/-- The packed 64-bit value. -/
def toU64 (sn : SequenceNumber) : ℕ := sn.high.toUInt32.toNat <<< 32 ||| sn.low.toNat

/-- The inverse of `toU64`. -/
def fromU64 (v : ℕ) : SequenceNumber :=
  { high := (UInt32.ofNat (v >>> 32)).toInt32, low := UInt32.ofNat v }

lemma toU64_eq (sn : SequenceNumber) :
    sn.toU64 = sn.high.toUInt32.toNat * 2 ^ 32 + sn.low.toNat := by
  rw [toU64, ← Nat.shiftLeft_add_eq_or_of_lt sn.low.toNat_lt, Nat.shiftLeft_eq]

lemma toU64_lt (sn : SequenceNumber) : sn.toU64 < 2 ^ 64 := by
  have hhigh := sn.high.toUInt32.toNat_lt
  have hlow := sn.low.toNat_lt
  rw [toU64_eq]
  omega

lemma toU64_fromU64 {v : ℕ} (h : v < 2 ^ 64) : (fromU64 v).toU64 = v := by
  have hhigh : (UInt32.ofNat (v >>> 32)).toNat = v / 2 ^ 32 := by
    rw [UInt32.toNat_ofNat', Nat.shiftRight_eq_div_pow]
    exact Nat.mod_eq_of_lt (by omega)
  have hlow : (UInt32.ofNat v).toNat = v % 2 ^ 32 := UInt32.toNat_ofNat'
  rw [toU64_eq]
  simp only [fromU64, UInt32.toUInt32_toInt32, hhigh, hlow]
  omega

lemma fromU64_toU64 (sn : SequenceNumber) : fromU64 sn.toU64 = sn := by
  have hlow := sn.low.toNat_lt
  have hshift : sn.toU64 >>> 32 = sn.high.toUInt32.toNat := by
    rw [toU64_eq, Nat.shiftRight_eq_div_pow]
    omega
  have hl : UInt32.ofNat sn.toU64 = sn.low := by
    apply UInt32.toNat_inj.mp
    rw [UInt32.toNat_ofNat', toU64_eq]
    omega
  ext1
  · simp only [fromU64, hshift, UInt32.ofNat_toNat, Int32.toInt32_toUInt32]
  · exact hl

@[simp] lemma length_encode (sn : SequenceNumber) : sn.encode.length = 8 := by
  simp [encode]

@[simp] lemma decode_encode (sn : SequenceNumber) : decode sn.encode = .ok sn := by
  have hlow : Bytes.readU32 sn.encode 4 = sn.low := by
    simp [encode, Bytes.readU32_append_right]
  rw [decode, if_neg (by simp), hlow]
  simp [encode]

end SequenceNumber

/-! ## Headers -/

/-- The magic bytes `"RTPS"`. -/
def rtpsMagic : Bytes := [0x52, 0x54, 0x50, 0x53]

@[simp] lemma length_rtpsMagic : rtpsMagic.length = 4 := by simp [rtpsMagic]

/-- Fixed 20-byte RTPS message header. -/
structure Header where
  protocolVersion : ProtocolVersion
  vendorId : VendorId
  guidPrefix : GuidPrefix
  deriving DecidableEq

namespace Header

/-- The 20-byte wire encoding. -/
def encode (h : Header) : Bytes :=
  rtpsMagic ++ (h.protocolVersion.encode ++ (h.vendorId.bytes ++ h.guidPrefix.encode))

/-- Decode the first 20 bytes of `buf`. -/
def decode (buf : Bytes) : Except RtpsDecodeError Header :=
  if buf.length < 20 then .error (.truncated 20 buf.length)
  else if Bytes.slice buf 0 4 ≠ rtpsMagic then .error .badMagic
  else do
    let protocolVersion ← ProtocolVersion.decode (Bytes.slice buf 4 6)
    let vendorId ← decodeFixed 2 (Bytes.slice buf 6 8)
    let guidPrefix ← GuidPrefix.decode (Bytes.slice buf 8 20)
    return { protocolVersion, vendorId, guidPrefix }

@[simp] lemma length_encode (h : Header) : h.encode.length = 20 := by
  simp [encode, GuidPrefix.encode]

/-- A header survives the wire, whatever follows it. -/
lemma decode_encode_append (h : Header) (rest : Bytes) :
    decode (h.encode ++ rest) = .ok h := by
  have hmagic : Bytes.slice (h.encode ++ rest) 0 4 = rtpsMagic := by
    rw [encode, List.append_assoc]
    exact Bytes.slice_append_left rfl
  have hversion : Bytes.slice (h.encode ++ rest) 4 6 = h.protocolVersion.encode := by
    simp [encode, Bytes.slice_append_right, Bytes.slice_append_left]
  have hvendor : Bytes.slice (h.encode ++ rest) 6 8 = h.vendorId.bytes := by
    simp [encode, Bytes.slice_append_right, Bytes.slice_append_left]
  have hguid : Bytes.slice (h.encode ++ rest) 8 20 = h.guidPrefix.bytes := by
    simp [encode, GuidPrefix.encode, Bytes.slice_append_right, Bytes.slice_append_left]
  rw [decode, if_neg (by simp), if_neg (by simp [hmagic]), hversion, hvendor, hguid,
    GuidPrefix.decode, decodeFixed_bytes, decodeFixed_bytes, ProtocolVersion.decode_encode]
  rfl

end Header

/-! ## Submessage framing -/

/-- Submessage id of DATA. -/
def submsgData : UInt8 := 0x15

/-- Submessage id of DATA_FRAG. -/
def submsgDataFrag : UInt8 := 0x16

/-- Submessage id of GAP. -/
def submsgGap : UInt8 := 0x08

/-- Submessage id of HEARTBEAT. -/
def submsgHeartbeat : UInt8 := 0x07

/-- Submessage id of ACKNACK. -/
def submsgAcknack : UInt8 := 0x06

/-- Submessage id of INFO_TS. -/
def submsgInfoTs : UInt8 := 0x09

/-- Submessage id of PAD. -/
def submsgPad : UInt8 := 0x01

/-- Flag bit E: little-endian. -/
def flagEndianness : UInt8 := 0x01

/-- Flag bit Q: inline QoS present. -/
def flagInlineQos : UInt8 := 0x02

/-- Flag bit D: serialised payload present. -/
def flagData : UInt8 := 0x04

/-- 4-byte submessage header. -/
structure SubmessageHeader where
  submessageId : UInt8
  flags : UInt8
  octetsToNextHeader : UInt16
  deriving DecidableEq

/-- The 4-byte wire encoding. -/
def SubmessageHeader.encode (h : SubmessageHeader) : Bytes :=
  h.submessageId :: h.flags :: Bytes.ofU16 h.octetsToNextHeader

@[simp] lemma SubmessageHeader.length_encode (h : SubmessageHeader) : h.encode.length = 4 := by
  simp [encode]

/-- The framing every encoder ends with: a submessage header carrying the length of the body,
truncated to 16 bits, then the body. -/
def frame (id flags : UInt8) (body : Bytes) : Bytes :=
  SubmessageHeader.encode ⟨id, flags, UInt16.ofNat body.length⟩ ++ body

/-- One uninterpreted submessage. -/
structure RawSubmessage where
  id : UInt8
  flags : UInt8
  body : Bytes
  deriving DecidableEq

/-- Iterates over the submessages of a message body. -/
structure SubmessageIter where
  body : Bytes
  errored : Bool

namespace SubmessageIter

/-- The iterator over `body`. -/
def new (body : Bytes) : SubmessageIter := ⟨body, false⟩

/-- The length of the next submessage's body: the declared one, where zero means the rest of
the message except for PAD and INFO_TS. -/
def bodyLength (it : SubmessageIter) : ℕ :=
  let id := Bytes.readU8 it.body 0
  let length := (Bytes.readU16 it.body 2).toNat
  if length = 0 ∧ id ≠ submsgPad ∧ id ≠ submsgInfoTs then (it.body.drop 4).length else length

/-- One step: the next submessage, or one error if its length runs past the end. -/
def next (it : SubmessageIter) :
    Option (Except RtpsDecodeError RawSubmessage) × SubmessageIter :=
  if it.errored || it.body.length < 4 then (none, it)
  else
    let id := Bytes.readU8 it.body 0
    let flags := Bytes.readU8 it.body 1
    let rest := it.body.drop 4
    if rest.length < it.bodyLength then
      (some (.error (.truncated it.bodyLength rest.length)), { it with errored := true })
    else
      (some (.ok ⟨id, flags, rest.take it.bodyLength⟩),
        { it with body := rest.drop it.bodyLength })

/-- The items before the first error or the end, over at most `fuel` steps. -/
def run : ℕ → SubmessageIter → List RawSubmessage
  | 0, _ => []
  | fuel + 1, it =>
    match it.next with
    | (some (.ok raw), it') => raw :: run fuel it'
    | _ => []

lemma length_body_next {it it' : SubmessageIter} {raw : RawSubmessage}
    (h : it.next = (some (.ok raw), it')) : it'.body.length + 4 ≤ it.body.length := by
  unfold next at h
  split at h
  · simp at h
  · rename_i hlen
    simp only [Bool.or_eq_true, decide_eq_true_eq, not_or, not_lt] at hlen
    dsimp only at h
    split at h
    · simp at h
    · simp only [Prod.mk.injEq] at h
      rw [← h.2, List.length_drop, List.length_drop]
      omega

/-- Each step consumes four bytes at least, so any fuel beyond the length changes nothing. -/
lemma run_eq_run_length {fuel : ℕ} {it : SubmessageIter} (h : it.body.length ≤ fuel) :
    run fuel it = run it.body.length it := by
  induction fuel using Nat.strong_induction_on generalizing it with
  | _ fuel ih =>
    rcases fuel with _ | fuel
    · rw [Nat.le_zero.mp h]
    · rcases Nat.eq_or_lt_of_le h with heq | hlt
      · rw [heq]
      · rcases hlen : it.body.length with _ | n
        · have hnone : it.next = (none, it) := by simp [next, hlen]
          simp [run, hnone]
        · rw [run, run]
          split
          · rename_i raw it' hnext
            have hshort := length_body_next hnext
            rw [ih fuel (by omega) (by omega), ih n (by omega) (by omega)]
          · rfl

end SubmessageIter

/-- The submessages a handler sees: those before the first framing error. -/
def submessages (body : Bytes) : List RawSubmessage :=
  SubmessageIter.run body.length (.new body)

lemma submessages_of_next {body : Bytes} {raw : RawSubmessage} {it : SubmessageIter}
    (h : (SubmessageIter.new body).next = (some (.ok raw), it)) :
    submessages body = raw :: SubmessageIter.run it.body.length it := by
  have hshort := SubmessageIter.length_body_next h
  obtain ⟨n, hn⟩ : ∃ n, body.length = n + 1 :=
    ⟨body.length - 1, by simp only [SubmessageIter.new] at hshort; omega⟩
  rw [submessages, hn, SubmessageIter.run, h]
  simp only [SubmessageIter.new] at hshort
  simp only [SubmessageIter.run_eq_run_length (show it.body.length ≤ n by omega)]

/-- Nothing is left to iterate over in fewer than four bytes. -/
lemma submessages_of_length_lt {body : Bytes} (h : body.length < 4) : submessages body = [] := by
  have hnone : (SubmessageIter.new body).next = (none, .new body) := by
    simp [SubmessageIter.next, SubmessageIter.new, h]
  rw [submessages]
  cases body.length with
  | zero => rfl
  | succ n => rw [SubmessageIter.run, hnone]

/-- The iterator reads a framed submessage back as itself, and goes on behind it. -/
lemma SubmessageIter.next_frame {id flags : UInt8} {body : Bytes} (rest : Bytes)
    (hpos : 0 < body.length) (hlen : body.length < 2 ^ 16) :
    (SubmessageIter.new (frame id flags body ++ rest)).next =
      (some (.ok ⟨id, flags, body⟩), .new rest) := by
  have hdeclared : (UInt16.ofNat body.length).toNat = body.length := by
    rw [UInt16.toNat_ofNat']
    exact Nat.mod_eq_of_lt hlen
  have hdrop : (frame id flags body ++ rest).drop 4 = body ++ rest := by
    rw [frame, List.append_assoc, Bytes.drop_append_right (by simp)]
    simp
  have hread : (Bytes.readU16 (frame id flags body ++ rest) 2).toNat = body.length := by
    have hhead : frame id flags body ++ rest =
        [id, flags] ++ (Bytes.ofU16 (UInt16.ofNat body.length) ++ (body ++ rest)) := by
      simp [frame, SubmessageHeader.encode]
    rw [hhead, Bytes.readU16_append_right (by simp)]
    simpa using hdeclared
  have hlong : ¬ (frame id flags body ++ rest).length < 4 := by simp [frame]
  have hlength : (SubmessageIter.new (frame id flags body ++ rest)).bodyLength = body.length := by
    have hzero : ¬ body.length = 0 := by omega
    simp only [SubmessageIter.bodyLength, SubmessageIter.new, hread, hzero, false_and, if_false]
  rw [SubmessageIter.next, hlength]
  simp only [SubmessageIter.new, hlong, hdrop, Bool.false_or, decide_false,
    Bool.false_eq_true, if_false]
  rw [if_neg (by simp)]
  simp [frame, SubmessageHeader.encode, Bytes.readU8]

/-- A framed submessage is read back as itself, and then what follows it. -/
lemma submessages_frame {id flags : UInt8} {body : Bytes} (rest : Bytes)
    (hpos : 0 < body.length) (hlen : body.length < 2 ^ 16) :
    submessages (frame id flags body ++ rest) = ⟨id, flags, body⟩ :: submessages rest := by
  rw [submessages_of_next (SubmessageIter.next_frame rest hpos hlen), submessages]
  rfl

/-! ## DATA -/

/-- Parsed fields of a DATA submessage. -/
structure DataSubmessage where
  readerEntityId : EntityId
  writerEntityId : EntityId
  seqNum : SequenceNumber
  /-- `none` without the D flag, or with nothing behind the fixed fields. -/
  payload : Option Bytes
  deriving DecidableEq

/-- The body of a DATA submessage: extra flags, the offset of the inline QoS (always 16),
reader, writer, sequence number, payload. -/
def dataBody (writer reader : EntityId) (seqNum : SequenceNumber) (payload : Bytes) : Bytes :=
  Bytes.ofU16 0 ++ (Bytes.ofU16 16 ++
    (reader.encode ++ (writer.encode ++ (seqNum.encode ++ payload))))

/-- A full DATA submessage. -/
def encodeDataSubmessage (writer reader : EntityId) (seqNum : SequenceNumber)
    (serialisedPayload : Bytes) : Bytes :=
  frame submsgData (flagEndianness ||| flagData) (dataBody writer reader seqNum serialisedPayload)

/-- Decode the body of a DATA submessage. -/
def decodeDataSubmessage (flags : UInt8) (body : Bytes) :
    Except RtpsDecodeError DataSubmessage :=
  if body.length < 20 then .error (.truncated 20 body.length)
  else do
    let readerEntityId ← EntityId.decode (Bytes.slice body 4 8)
    let writerEntityId ← EntityId.decode (Bytes.slice body 8 12)
    let seqNum ← SequenceNumber.decode (Bytes.slice body 12 20)
    let payload := if flags &&& flagData ≠ 0 ∧ body.length > 20 then some (body.drop 20) else none
    return { readerEntityId, writerEntityId, seqNum, payload }

@[simp] lemma length_dataBody (writer reader : EntityId) (sn : SequenceNumber) (p : Bytes) :
    (dataBody writer reader sn p).length = 20 + p.length := by
  simp [dataBody]
  omega

/-- What the decoder makes of a DATA body under any flags: with the D flag, all that follows the
fixed fields is the payload. -/
lemma decodeDataSubmessage_flags (flags : UInt8) (writer reader : EntityId) (sn : SequenceNumber)
    (p : Bytes) : decodeDataSubmessage flags (dataBody writer reader sn p) =
      .ok ⟨reader, writer, sn, if flags &&& flagData ≠ 0 ∧ p ≠ [] then some p else none⟩ := by
  have hr : Bytes.slice (dataBody writer reader sn p) 4 8 = reader.encode := by
    simp [dataBody, Bytes.slice_append_right, Bytes.slice_append_left]
  have hw : Bytes.slice (dataBody writer reader sn p) 8 12 = writer.encode := by
    simp [dataBody, Bytes.slice_append_right, Bytes.slice_append_left]
  have hs : Bytes.slice (dataBody writer reader sn p) 12 20 = sn.encode := by
    simp [dataBody, Bytes.slice_append_right, Bytes.slice_append_left]
  have hp : (dataBody writer reader sn p).drop 20 = p := by
    simp [dataBody, Bytes.drop_append_right]
  have hlong : (dataBody writer reader sn p).length > 20 ↔ p ≠ [] := by
    rw [length_dataBody, ← List.length_pos_iff]
    omega
  rw [decodeDataSubmessage, if_neg (by simp), hr, hw, hs, hp, EntityId.decode_encode,
    EntityId.decode_encode, SequenceNumber.decode_encode]
  simp only [hlong]
  rfl

/-- A DATA body with a payload decodes to what it was built from. -/
lemma decodeDataSubmessage_dataBody {writer reader : EntityId} {sn : SequenceNumber} {p : Bytes}
    (h : p ≠ []) :
    decodeDataSubmessage (flagEndianness ||| flagData) (dataBody writer reader sn p) =
      .ok ⟨reader, writer, sn, some p⟩ := by
  rw [decodeDataSubmessage_flags, if_pos ⟨by decide, h⟩]

/-! ## HEARTBEAT -/

/-- Parsed fields of a HEARTBEAT submessage. -/
structure Heartbeat where
  readerEntityId : EntityId
  writerEntityId : EntityId
  /-- Lowest sequence number still in the writer's history. -/
  firstSn : SequenceNumber
  /-- Highest sequence number sent so far. -/
  lastSn : SequenceNumber
  count : Int32
  deriving DecidableEq

/-- The body of a HEARTBEAT submessage. -/
def heartbeatBody (hb : Heartbeat) : Bytes :=
  hb.readerEntityId.encode ++ (hb.writerEntityId.encode ++
    (hb.firstSn.encode ++ (hb.lastSn.encode ++ Bytes.ofU32 hb.count.toUInt32)))

/-- A full HEARTBEAT submessage. -/
def encodeHeartbeatSubmessage (hb : Heartbeat) : Bytes :=
  frame submsgHeartbeat flagEndianness (heartbeatBody hb)

/-- Decode the body of a HEARTBEAT submessage. -/
def decodeHeartbeatSubmessage (body : Bytes) : Except RtpsDecodeError Heartbeat :=
  if body.length < 28 then .error (.truncated 28 body.length)
  else do
    let readerEntityId ← EntityId.decode (Bytes.slice body 0 4)
    let writerEntityId ← EntityId.decode (Bytes.slice body 4 8)
    let firstSn ← SequenceNumber.decode (Bytes.slice body 8 16)
    let lastSn ← SequenceNumber.decode (Bytes.slice body 16 24)
    return { readerEntityId, writerEntityId, firstSn, lastSn,
             count := (Bytes.readU32 body 24).toInt32 }

@[simp] lemma length_heartbeatBody (hb : Heartbeat) : (heartbeatBody hb).length = 28 := by
  simp [heartbeatBody]

/-- A HEARTBEAT body decodes to what it was built from. -/
lemma decodeHeartbeatSubmessage_heartbeatBody (hb : Heartbeat) :
    decodeHeartbeatSubmessage (heartbeatBody hb) = .ok hb := by
  have hr : Bytes.slice (heartbeatBody hb) 0 4 = hb.readerEntityId.encode := by
    simp [heartbeatBody, Bytes.slice_append_left]
  have hw : Bytes.slice (heartbeatBody hb) 4 8 = hb.writerEntityId.encode := by
    simp [heartbeatBody, Bytes.slice_append_right, Bytes.slice_append_left]
  have hf : Bytes.slice (heartbeatBody hb) 8 16 = hb.firstSn.encode := by
    simp [heartbeatBody, Bytes.slice_append_right, Bytes.slice_append_left]
  have hl : Bytes.slice (heartbeatBody hb) 16 24 = hb.lastSn.encode := by
    simp [heartbeatBody, Bytes.slice_append_right, Bytes.slice_append_left]
  have hc : Bytes.readU32 (heartbeatBody hb) 24 = hb.count.toUInt32 := by
    simp [heartbeatBody, Bytes.readU32_append_right]
  rw [decodeHeartbeatSubmessage, if_neg (by simp), hr, hw, hf, hl, hc, EntityId.decode_encode,
    EntityId.decode_encode, SequenceNumber.decode_encode, SequenceNumber.decode_encode,
    Int32.toInt32_toUInt32]
  rfl

/-! ## ACKNACK -/

/-- Parsed fields of an ACKNACK submessage, with a bitmap of exactly 32 bits. -/
structure AckNack where
  readerEntityId : EntityId
  writerEntityId : EntityId
  /-- The cumulative-ACK watermark. -/
  base : SequenceNumber
  /-- Bit `n` set means `base + n` is missing. -/
  bitmap : UInt32
  count : Int32
  deriving DecidableEq

/-- The body of an ACKNACK submessage; `numBits` is always 32. -/
def acknackBody (an : AckNack) : Bytes :=
  an.readerEntityId.encode ++ (an.writerEntityId.encode ++ (an.base.encode ++
    (Bytes.ofU32 32 ++ (Bytes.ofU32 an.bitmap ++ Bytes.ofU32 an.count.toUInt32))))

/-- A full ACKNACK submessage. -/
def encodeAcknackSubmessage (an : AckNack) : Bytes :=
  frame submsgAcknack flagEndianness (acknackBody an)

/-- Decode the body of an ACKNACK submessage; `numBits` is ignored. -/
def decodeAcknackSubmessage (body : Bytes) : Except RtpsDecodeError AckNack :=
  if body.length < 28 then .error (.truncated 28 body.length)
  else do
    let readerEntityId ← EntityId.decode (Bytes.slice body 0 4)
    let writerEntityId ← EntityId.decode (Bytes.slice body 4 8)
    let base ← SequenceNumber.decode (Bytes.slice body 8 16)
    return { readerEntityId, writerEntityId, base, bitmap := Bytes.readU32 body 20,
             count := (Bytes.readU32 body 24).toInt32 }

@[simp] lemma length_acknackBody (an : AckNack) : (acknackBody an).length = 28 := by
  simp [acknackBody]

/-- An ACKNACK body decodes to what it was built from. -/
lemma decodeAcknackSubmessage_acknackBody (an : AckNack) :
    decodeAcknackSubmessage (acknackBody an) = .ok an := by
  have hr : Bytes.slice (acknackBody an) 0 4 = an.readerEntityId.encode := by
    simp [acknackBody, Bytes.slice_append_left]
  have hw : Bytes.slice (acknackBody an) 4 8 = an.writerEntityId.encode := by
    simp [acknackBody, Bytes.slice_append_right, Bytes.slice_append_left]
  have hb : Bytes.slice (acknackBody an) 8 16 = an.base.encode := by
    simp [acknackBody, Bytes.slice_append_right, Bytes.slice_append_left]
  have hm : Bytes.readU32 (acknackBody an) 20 = an.bitmap := by
    simp [acknackBody, Bytes.readU32_append_right]
  have hc : Bytes.readU32 (acknackBody an) 24 = an.count.toUInt32 := by
    simp [acknackBody, Bytes.readU32_append_right]
  rw [decodeAcknackSubmessage, if_neg (by simp), hr, hw, hb, hm, hc, EntityId.decode_encode,
    EntityId.decode_encode, SequenceNumber.decode_encode, Int32.toInt32_toUInt32]
  rfl

/-! ## GAP -/

/-- A contiguous range of sequence numbers a writer can no longer provide. -/
structure Gap where
  readerEntityId : EntityId
  writerEntityId : EntityId
  /-- First irrelevant sequence number. -/
  gapStart : SequenceNumber
  /-- Last irrelevant sequence number. -/
  gapEnd : SequenceNumber
  deriving DecidableEq

/-- The body of a GAP submessage.  The low half of the bitmap base is `gapEnd.low + 1`,
wrapping, under the high half of `gapEnd`. -/
def gapBody (g : Gap) : Bytes :=
  g.readerEntityId.encode ++ (g.writerEntityId.encode ++ (g.gapStart.encode ++
    (Bytes.ofU32 g.gapEnd.high.toUInt32 ++ (Bytes.ofU32 (g.gapEnd.low + 1) ++ Bytes.ofU32 0))))

/-- A full GAP submessage.  There is no decoder. -/
def encodeGapSubmessage (g : Gap) : Bytes := frame submsgGap flagEndianness (gapBody g)

@[simp] lemma length_gapBody (g : Gap) : (gapBody g).length = 28 := by
  simp [gapBody]

/-- The range that the body of a GAP declares, as a reader of the wire format finds it: the
`gapStart`, and the `bitmapBase` and `numBits` of the `gapList`. -/
def readGap (body : Bytes) : Except RtpsDecodeError (SequenceNumber × SequenceNumber × UInt32) := do
  let gapStart ← SequenceNumber.decode (Bytes.slice body 8 16)
  let bitmapBase ← SequenceNumber.decode (Bytes.slice body 16 24)
  .ok (gapStart, bitmapBase, Bytes.readU32 body 24)

/-- The base has the high half of `gapEnd`. -/
lemma readGap_gapBody (g : Gap) :
    readGap (gapBody g) = .ok (g.gapStart, ⟨g.gapEnd.high, g.gapEnd.low + 1⟩, 0) := by
  have hbody : gapBody g = g.readerEntityId.encode ++ (g.writerEntityId.encode ++
      (g.gapStart.encode ++
        (SequenceNumber.encode ⟨g.gapEnd.high, g.gapEnd.low + 1⟩ ++ Bytes.ofU32 0))) := by
    simp [gapBody, SequenceNumber.encode]
  have hstart : Bytes.slice (gapBody g) 8 16 = g.gapStart.encode := by
    simpa [hbody, Bytes.slice_append_right] using Bytes.slice_append_left (by simp)
  have hbase : Bytes.slice (gapBody g) 16 24 =
      SequenceNumber.encode ⟨g.gapEnd.high, g.gapEnd.low + 1⟩ := by
    simpa [hbody, Bytes.slice_append_right] using Bytes.slice_append_left (by simp)
  have hbits : Bytes.readU32 (gapBody g) 24 = 0 := by
    simp [gapBody, Bytes.readU32_append_right]
  rw [readGap, hstart, hbase, hbits, SequenceNumber.decode_encode, SequenceNumber.decode_encode]
  rfl

/-- The increment does not reach the high half. -/
lemma SequenceNumber.toU64_succ_low_iff (sn : SequenceNumber) :
    SequenceNumber.toU64 ⟨sn.high, sn.low + 1⟩ = sn.toU64 + 1 ↔ sn.low ≠ 0xFFFFFFFF := by
  have hlow := sn.low.toNat_lt
  have hmax : sn.low = 0xFFFFFFFF ↔ sn.low.toNat = 2 ^ 32 - 1 := by
    rw [← UInt32.toNat_inj]
    rfl
  have hsucc : (sn.low + 1).toNat = (sn.low.toNat + 1) % 2 ^ 32 := UInt32.toNat_add ..
  rw [toU64_eq, toU64_eq, Ne, hmax]
  dsimp only
  omega

/-- **A GAP names its gap** exactly if the low half of the end of the gap can be incremented. -/
theorem gap_named_iff (g : Gap) :
    (∃ gapStart bitmapBase,
      readGap ((encodeGapSubmessage g).drop 4) = .ok (gapStart, bitmapBase, 0) ∧
      gapStart.toU64 = g.gapStart.toU64 ∧ bitmapBase.toU64 = g.gapEnd.toU64 + 1) ↔
    g.gapEnd.low ≠ 0xFFFFFFFF := by
  have hbody : (encodeGapSubmessage g).drop 4 = gapBody g := by
    rw [encodeGapSubmessage, frame, Bytes.drop_append_right (by simp)]
    simp
  rw [hbody, readGap_gapBody, ← SequenceNumber.toU64_succ_low_iff]
  constructor
  · rintro ⟨gapStart, bitmapBase, h, -, hbase⟩
    cases h
    exact hbase
  · exact fun h => ⟨_, _, rfl, rfl, h⟩

/-- The gap that is the number `2 ^ 32 - 1` alone is declared as one that ends before it starts. -/
theorem gap_not_named :
    let g : Gap := ⟨entityIdUnknown, entityIdUnknown, .fromU64 (2 ^ 32 - 1), .fromU64 (2 ^ 32 - 1)⟩
    g.gapStart.toU64 = 2 ^ 32 - 1 ∧ g.gapEnd.toU64 = 2 ^ 32 - 1 ∧
      ∃ gapStart bitmapBase, readGap ((encodeGapSubmessage g).drop 4) =
          .ok (gapStart, bitmapBase, 0) ∧ bitmapBase.toU64 = 0 := by
  refine ⟨by decide +kernel, by decide +kernel, .fromU64 (2 ^ 32 - 1), ⟨0, 0⟩, ?_, ?_⟩ <;>
    decide +kernel

/-! ## Whole messages -/

/-- An RTPS message: the header, then encoded submessages. -/
def wrapInRtpsMessage (header : Header) (submsgs : Bytes) : Bytes := header.encode ++ submsgs

/-- The header of a wrapped message is read back. -/
@[simp] lemma decode_wrapInRtpsMessage (header : Header) (submsgs : Bytes) :
    Header.decode (wrapInRtpsMessage header submsgs) = .ok header :=
  Header.decode_encode_append header submsgs

/-- Behind the header of a wrapped message are its submessages. -/
@[simp] lemma drop_wrapInRtpsMessage (header : Header) (submsgs : Bytes) :
    (wrapInRtpsMessage header submsgs).drop 20 = submsgs := by
  rw [wrapInRtpsMessage, Bytes.drop_append_right (by simp)]
  simp

end RustDds
