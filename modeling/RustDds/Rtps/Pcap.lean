import RustDds.Lib.Checked

/-!
# Capture files

A capture file is a global header and then one record for each packet: a header with the times and
the length of what was captured, and the captured datagram, that is an IPv4 header, a UDP header
and the payload.  Three lengths nest in it: that of the record in 32 bits, and those of the IP and
the UDP datagram in 16 bits each, of which the reader goes by the first and the last.

`decodePcapFile` reads a file whose accesses have all been checked; `decodePcapFileChecked` is the
source with each index, slice, conversion and addition one that can fault, and never does
(`decodePcapFileChecked_eq`).  A file is read back as it was written
(`decodePcapFile_encodePcapFile`), and what is read of any file lies in records that follow each
other in it (`decodePcapFile_ok`).
-/

namespace RustDds

/-- Why a file was refused. -/
inductive PcapError
  | truncated (expected got : ℕ)
  | badMagic (got : UInt32)
  | unsupportedLinkType (got : UInt32)
  | notIpv4Udp (index : ℕ)
  deriving DecidableEq, Repr

/-- Little-endian, with microseconds. -/
def pcapMagicMicrosLe : UInt32 := 0xa1b2c3d4

/-- Raw IP, without a link layer. -/
def linktypeRaw : UInt32 := 101

/-- The number of UDP among the IP protocols. -/
def ipprotoUdp : UInt8 := 17

/-- A recorded message. -/
structure PcapPacket where
  tsSec : UInt32
  tsUsec : UInt32
  srcAddr : FixedBytes 4
  srcPort : UInt16
  dstAddr : FixedBytes 4
  dstPort : UInt16
  payload : Bytes
  deriving DecidableEq

/-! ## Writing -/

/-- The header of the file: the magic number, the version, the zone, the accuracy, the longest
packet, and the link type. -/
def pcapGlobalHeader : Bytes :=
  Bytes.ofU32 pcapMagicMicrosLe ++ (Bytes.ofU16 2 ++ (Bytes.ofU16 4 ++ (Bytes.ofU32 0 ++
    (Bytes.ofU32 0 ++ (Bytes.ofU32 65535 ++ Bytes.ofU32 linktypeRaw)))))

namespace PcapPacket

/-- `udp_len`, which is cut to 16 bits when it is written. -/
def udpLen (pkt : PcapPacket) : ℕ := 8 + pkt.payload.length

/-- The IPv4 header, without options. -/
def ipv4Header (pkt : PcapPacket) : Bytes :=
  [0x45, 0x00] ++ (Bytes.ofU16BE (UInt16.ofNat (20 + pkt.udpLen)) ++ (Bytes.ofU16BE 0 ++
    (Bytes.ofU16BE 0 ++ ([64, ipprotoUdp] ++ (Bytes.ofU16BE 0 ++
      (pkt.srcAddr.bytes ++ pkt.dstAddr.bytes))))))

/-- The UDP header. -/
def udpHeader (pkt : PcapPacket) : Bytes :=
  Bytes.ofU16BE pkt.srcPort ++ (Bytes.ofU16BE pkt.dstPort ++
    (Bytes.ofU16BE (UInt16.ofNat pkt.udpLen) ++ Bytes.ofU16BE 0))

/-- The datagram. -/
def datagram (pkt : PcapPacket) : Bytes := pkt.ipv4Header ++ (pkt.udpHeader ++ pkt.payload)

/-- The header of the record.  The length that was captured is the original one. -/
def recordHeader (pkt : PcapPacket) : Bytes :=
  Bytes.ofU32 pkt.tsSec ++ (Bytes.ofU32 pkt.tsUsec ++
    (Bytes.ofU32 (UInt32.ofNat pkt.datagram.length) ++
      Bytes.ofU32 (UInt32.ofNat pkt.datagram.length)))

/-- The record. -/
def record (pkt : PcapPacket) : Bytes := pkt.recordHeader ++ pkt.datagram

end PcapPacket

/-- `encode_pcap_file`. -/
def encodePcapFile (packets : List PcapPacket) : Bytes :=
  pcapGlobalHeader ++ packets.flatMap PcapPacket.record

/-! ## Reading -/

/-- `Ipv4Addr::new` of the four bytes at `i`. -/
def addrAt (data : Bytes) (i : ℕ) : FixedBytes 4 :=
  ⟨[Bytes.readU8 data i, Bytes.readU8 data (i + 1), Bytes.readU8 data (i + 2),
    Bytes.readU8 data (i + 3)], rfl⟩

/-- `decode_ipv4_udp_record`. -/
def decodeIpv4UdpRecord (data : Bytes) (tsSec tsUsec : UInt32) (index : ℕ) :
    Except PcapError PcapPacket :=
  if data.length < 20 + 8 then .error (.notIpv4Udp index)
  else
    let versionIhl := Bytes.readU8 data 0
    let ihlBytes := (versionIhl &&& 0x0f).toNat * 4
    if versionIhl >>> 4 ≠ 4 ∨ ihlBytes < 20 ∨ data.length < ihlBytes then
      .error (.notIpv4Udp index)
    else if Bytes.readU8 data 9 ≠ ipprotoUdp then .error (.notIpv4Udp index)
    else match Bytes.getRange data ihlBytes (ihlBytes + 8) with
      | none => .error (.notIpv4Udp index)
      | some udp =>
        let udpLen := (Bytes.readU16BE udp 4).toNat
        if udpLen < 8 then .error (.notIpv4Udp index)
        else
          match Bytes.getRange data (ihlBytes + 8) (ihlBytes + 8 + (udpLen - 8)) with
          | none => .error (.notIpv4Udp index)
          | some payload => .ok {
              tsSec
              tsUsec
              srcAddr := addrAt data 12
              srcPort := Bytes.readU16BE udp 0
              dstAddr := addrAt data 16
              dstPort := Bytes.readU16BE udp 2
              payload }

/-- The loop of `decode_pcap_file`, at a record. -/
def decodeRecords (bytes : Bytes) (pos index : ℕ) (packets : List PcapPacket) :
    Except PcapError (List PcapPacket) :=
  if pos < bytes.length then
    match Bytes.getRange bytes pos (pos + 16) with
    | none => .error (.truncated (pos + 16) bytes.length)
    | some header =>
      let inclLen := (Bytes.readU32 header 8).toNat
      match Bytes.getRange bytes (pos + 16) (pos + 16 + inclLen) with
      | none => .error (.truncated (pos + 16 + inclLen) bytes.length)
      | some data =>
        match decodeIpv4UdpRecord data (Bytes.readU32 header 0) (Bytes.readU32 header 4) index with
        | .error e => .error e
        | .ok packet =>
          decodeRecords bytes (pos + 16 + inclLen) (index + 1) (packets ++ [packet])
  else .ok packets
termination_by bytes.length - pos
decreasing_by omega

/-- `decode_pcap_file`. -/
def decodePcapFile (bytes : Bytes) : Except PcapError (List PcapPacket) :=
  if bytes.length < 24 then .error (.truncated 24 bytes.length)
  else if Bytes.readU32 bytes 0 ≠ pcapMagicMicrosLe then
    .error (.badMagic (Bytes.readU32 bytes 0))
  else if Bytes.readU32 bytes 20 ≠ linktypeRaw then
    .error (.unsupportedLinkType (Bytes.readU32 bytes 20))
  else decodeRecords bytes 24 0 []

/-! ## The round trip -/

namespace PcapPacket

variable (pkt : PcapPacket)

@[simp] lemma length_ipv4Header : pkt.ipv4Header.length = 20 := by
  simp [ipv4Header]

@[simp] lemma length_udpHeader : pkt.udpHeader.length = 8 := by
  simp [udpHeader]

@[simp] lemma length_datagram : pkt.datagram.length = 28 + pkt.payload.length := by
  simp only [datagram, List.length_append, length_ipv4Header, length_udpHeader]
  omega

@[simp] lemma length_recordHeader : pkt.recordHeader.length = 16 := by
  simp [recordHeader]

lemma readU16BE_udpHeader : Bytes.readU16BE pkt.udpHeader 0 = pkt.srcPort ∧
    Bytes.readU16BE pkt.udpHeader 2 = pkt.dstPort ∧
    Bytes.readU16BE pkt.udpHeader 4 = UInt16.ofNat pkt.udpLen := by
  refine ⟨Bytes.readU16BE_ofU16BE_append _ _, ?_, ?_⟩
  · rw [udpHeader, Bytes.readU16BE_append_right (by simp)]
    exact Bytes.readU16BE_ofU16BE_append _ _
  · rw [udpHeader, Bytes.readU16BE_append_right (by simp), Bytes.readU16BE_append_right (by simp)]
    exact Bytes.readU16BE_ofU16BE_append _ _

lemma readU32_recordHeader : Bytes.readU32 pkt.recordHeader 0 = pkt.tsSec ∧
    Bytes.readU32 pkt.recordHeader 4 = pkt.tsUsec ∧
    Bytes.readU32 pkt.recordHeader 8 = UInt32.ofNat pkt.datagram.length := by
  refine ⟨Bytes.readU32_ofU32_append _ _, ?_, ?_⟩
  · rw [recordHeader, Bytes.readU32_append_right (by simp)]
    exact Bytes.readU32_ofU32_append _ _
  · rw [recordHeader, Bytes.readU32_append_right (by simp), Bytes.readU32_append_right (by simp)]
    exact Bytes.readU32_ofU32_append _ _

lemma addrAt_datagram :
    addrAt pkt.datagram 12 = pkt.srcAddr ∧ addrAt pkt.datagram 16 = pkt.dstAddr := by
  obtain ⟨tsSec, tsUsec, ⟨src, hsrc⟩, srcPort, ⟨dst, hdst⟩, dstPort, payload⟩ := pkt
  obtain ⟨s₀, s₁, s₂, s₃, rfl⟩ := List.length_eq_four.mp hsrc
  obtain ⟨d₀, d₁, d₂, d₃, rfl⟩ := List.length_eq_four.mp hdst
  exact ⟨rfl, rfl⟩

end PcapPacket

/-- The longest payload whose lengths fit their 16 bits. -/
def maxPcapPayload : ℕ := 65507

variable {pkt : PcapPacket}

lemma decodeIpv4UdpRecord_datagram (h : pkt.payload.length ≤ maxPcapPayload) (n : ℕ) :
    decodeIpv4UdpRecord pkt.datagram pkt.tsSec pkt.tsUsec n = .ok pkt := by
  have hversion : Bytes.readU8 pkt.datagram 0 = 0x45 := rfl
  have hprotocol : Bytes.readU8 pkt.datagram 9 = ipprotoUdp := rfl
  have hudp : Bytes.getRange pkt.datagram 20 28 = some pkt.udpHeader :=
    Bytes.getRange_append pkt.length_ipv4Header (by rw [pkt.length_udpHeader])
  have hudpLen : (UInt16.ofNat pkt.udpLen).toNat = 8 + pkt.payload.length := by
    rw [maxPcapPayload] at h
    rw [UInt16.toNat_ofNat', PcapPacket.udpLen, Nat.mod_eq_of_lt (by omega)]
  have hpayload : Bytes.getRange pkt.datagram 28 (28 + pkt.payload.length) =
      some pkt.payload := by
    have happend : pkt.datagram = (pkt.ipv4Header ++ pkt.udpHeader) ++ (pkt.payload ++ []) := by
      rw [List.append_nil, List.append_assoc, PcapPacket.datagram]
    rw [happend]
    exact Bytes.getRange_append (by simp) rfl
  obtain ⟨hsrcPort, hdstPort, hlen⟩ := pkt.readU16BE_udpHeader
  obtain ⟨hsrc, hdst⟩ := pkt.addrAt_datagram
  rw [decodeIpv4UdpRecord, if_neg (by simp)]
  dsimp only
  rw [hversion, show ((0x45 : UInt8) &&& 0x0f).toNat * 4 = 20 from rfl,
    show (0x45 : UInt8) >>> 4 = 4 from rfl, if_neg (by simp; omega), hprotocol, if_neg (by simp),
    hudp]
  dsimp only
  rw [hlen, hudpLen, if_neg (by omega), Nat.add_sub_cancel_left, hpayload]
  dsimp only
  rw [hsrc, hdst, hsrcPort, hdstPort]

/-- The records behind `pre` are read back, in their order. -/
lemma decodeRecords_append (packets : List PcapPacket)
    (h : ∀ pkt ∈ packets, pkt.payload.length ≤ maxPcapPayload) (pre : Bytes) (n : ℕ)
    (acc : List PcapPacket) :
    decodeRecords (pre ++ packets.flatMap PcapPacket.record) pre.length n acc =
      .ok (acc ++ packets) := by
  induction packets generalizing pre n acc with
  | nil =>
    rw [List.flatMap_nil, List.append_nil, List.append_nil, decodeRecords,
      if_neg (lt_irrefl _)]
  | cons pkt packets ih =>
    have hpkt := h pkt (.head _)
    rw [maxPcapPayload] at hpkt
    have hinclLen : (UInt32.ofNat pkt.datagram.length).toNat = pkt.datagram.length := by
      rw [UInt32.toNat_ofNat', pkt.length_datagram, Nat.mod_eq_of_lt (by omega)]
    have hfile : pre ++ (pkt :: packets).flatMap PcapPacket.record =
        pre ++ (pkt.recordHeader ++ (pkt.datagram ++ packets.flatMap PcapPacket.record)) := by
      rw [List.flatMap_cons, PcapPacket.record, List.append_assoc]
    have hheader : Bytes.getRange (pre ++ (pkt.recordHeader ++
        (pkt.datagram ++ packets.flatMap PcapPacket.record))) pre.length (pre.length + 16) =
        some pkt.recordHeader :=
      Bytes.getRange_append rfl (by rw [pkt.length_recordHeader])
    have hrest : pre ++ (pkt.recordHeader ++ (pkt.datagram ++
        packets.flatMap PcapPacket.record)) = (pre ++ pkt.recordHeader) ++
          (pkt.datagram ++ packets.flatMap PcapPacket.record) := by
      rw [List.append_assoc]
    have hdata : Bytes.getRange (pre ++ (pkt.recordHeader ++
        (pkt.datagram ++ packets.flatMap PcapPacket.record))) (pre.length + 16)
        (pre.length + 16 + pkt.datagram.length) = some pkt.datagram := by
      rw [hrest]
      exact Bytes.getRange_append (by simp) rfl
    obtain ⟨hsec, husec, hlen⟩ := pkt.readU32_recordHeader
    rw [hfile, decodeRecords, if_pos (by simp), hheader]
    dsimp only
    rw [hlen, hinclLen, hdata]
    dsimp only
    rw [hsec, husec, decodeIpv4UdpRecord_datagram (h pkt (.head _))]
    dsimp only
    have hnext := ih (fun p hp => h p (.tail _ hp)) (pre ++ (pkt.recordHeader ++ pkt.datagram))
      (n + 1) (acc ++ [pkt])
    simp only [List.length_append, PcapPacket.length_recordHeader, List.append_assoc] at hnext ⊢
    rw [Nat.add_assoc, hnext]
    rfl

/-- **The round trip.** -/
lemma decodePcapFile_encodePcapFile {packets : List PcapPacket}
    (h : ∀ pkt ∈ packets, pkt.payload.length ≤ maxPcapPayload) :
    decodePcapFile (encodePcapFile packets) = .ok packets := by
  have hmagic : Bytes.readU32 (encodePcapFile packets) 0 = pcapMagicMicrosLe :=
    Bytes.readU32_ofU32_append _ _
  have hnetwork : Bytes.readU32 (encodePcapFile packets) 20 = linktypeRaw := rfl
  have hlen : ¬(encodePcapFile packets).length < 24 := by
    simp only [encodePcapFile, pcapGlobalHeader, List.length_append, Bytes.length_ofU32,
      Bytes.length_ofU16]
    omega
  rw [decodePcapFile, if_neg hlen, hmagic, if_neg (by simp), hnetwork, if_neg (by simp)]
  exact decodeRecords_append packets h pcapGlobalHeader 0 []

/-! ## Where the payloads lie -/

/-- The place of a record in a file, and that of the payload in it. -/
structure RecordSpan where
  start : ℕ
  payloadStart : ℕ
  payloadEnd : ℕ
  stop : ℕ

/-- The record is one of the file, as long as its header says, and the payload of the packet is
what lies at its place in the record. -/
structure RecordSpan.Holds (bytes : Bytes) (r : RecordSpan) (pkt : PcapPacket) : Prop where
  stop_eq : r.stop = r.start + 16 + (Bytes.readU32 bytes (r.start + 8)).toNat
  stop_le : r.stop ≤ bytes.length
  le_payloadStart : r.start + 16 ≤ r.payloadStart
  payloadStart_le : r.payloadStart ≤ r.payloadEnd
  payloadEnd_le : r.payloadEnd ≤ r.stop
  payload_eq : pkt.payload = Bytes.slice bytes r.payloadStart r.payloadEnd

lemma decodeIpv4UdpRecord_ok {data : Bytes} {tsSec tsUsec : UInt32} {n : ℕ}
    (h : decodeIpv4UdpRecord data tsSec tsUsec n = .ok pkt) :
    ∃ i j, i ≤ j ∧ j ≤ data.length ∧ pkt.payload = Bytes.slice data i j := by
  rw [decodeIpv4UdpRecord] at h
  dsimp only at h
  split_ifs at h
  split at h
  · cases h
  split_ifs at h
  split at h
  · cases h
  · next payload hpayload =>
    obtain ⟨hij, hj, hslice⟩ := Bytes.getRange_eq_some.mp hpayload
    cases h
    exact ⟨_, _, hij, hj, hslice.symm⟩

/-- What is read from `pos` on comes from records behind `pos`, in their order. -/
lemma decodeRecords_ok {bytes : Bytes} {pos n : ℕ} {acc packets : List PcapPacket}
    (h : decodeRecords bytes pos n acc = .ok packets) :
    ∃ (spans : List RecordSpan) (new : List PcapPacket), packets = acc ++ new ∧
      List.Forall₂ (RecordSpan.Holds bytes) spans new ∧ (∀ r ∈ spans, pos ≤ r.start) ∧
      spans.Pairwise fun r r' => r.stop ≤ r'.start := by
  induction pos, n, acc using decodeRecords.induct bytes with
  | case1 pos n acc hpos hheader =>
    rw [decodeRecords, if_pos hpos, hheader] at h
    cases h
  | case2 pos n acc hpos header hheader inclLen hdata =>
    rw [decodeRecords, if_pos hpos, hheader] at h
    dsimp only at h
    rw [hdata] at h
    cases h
  | case3 pos n acc hpos header hheader inclLen data hdata e hrecord =>
    rw [decodeRecords, if_pos hpos, hheader] at h
    dsimp only at h
    rw [hdata] at h
    dsimp only at h
    rw [hrecord] at h
    cases h
  | case4 pos n acc hpos header hheader inclLen data hdata pkt hrecord ih =>
    rw [decodeRecords, if_pos hpos, hheader] at h
    dsimp only at h
    rw [hdata] at h
    dsimp only at h
    rw [hrecord] at h
    obtain ⟨spans, new, rfl, hspans, hstart, horder⟩ := ih h
    obtain ⟨-, hstop, hslice⟩ := Bytes.getRange_eq_some.mp hdata
    obtain ⟨i, j, hij, hj, hpayload⟩ := decodeIpv4UdpRecord_ok hrecord
    have hlength : data.length = inclLen := by
      rw [← hslice, Bytes.length_slice]
      omega
    have hfield : (Bytes.readU32 bytes (pos + 8)).toNat = inclLen := by
      obtain ⟨-, -, hheaderSlice⟩ := Bytes.getRange_eq_some.mp hheader
      rw [← Bytes.readU32_slice (show pos + (8 + 4) ≤ pos + 16 by omega), hheaderSlice]
    let span : RecordSpan := ⟨pos, pos + 16 + i, pos + 16 + j, pos + 16 + inclLen⟩
    have hspan : span.Holds bytes pkt :=
      { stop_eq := by rw [hfield]
        stop_le := hstop
        le_payloadStart := Nat.le_add_right _ _
        payloadStart_le := Nat.add_le_add_left hij _
        payloadEnd_le := Nat.add_le_add_left (hj.trans_eq hlength) _
        payload_eq := by rw [hpayload, ← hslice, Bytes.slice_slice (by omega)] }
    refine ⟨span :: spans, pkt :: new, by simp, .cons hspan hspans, ?_,
      .cons (fun r hr => hstart r hr) horder⟩
    intro r hr
    rcases List.mem_cons.mp hr with rfl | hr
    · exact le_rfl
    · exact (by omega : pos ≤ pos + 16 + inclLen).trans (hstart r hr)
  | case5 pos n acc hpos =>
    rw [decodeRecords, if_neg hpos] at h
    cases h
    exact ⟨[], [], by simp, .nil, by simp, .nil⟩

/-- What is read of a file lies in its records. -/
lemma decodePcapFile_ok {bytes : Bytes} {packets : List PcapPacket}
    (h : decodePcapFile bytes = .ok packets) :
    ∃ spans : List RecordSpan, List.Forall₂ (RecordSpan.Holds bytes) spans packets ∧
      spans.Pairwise fun r r' => r.stop ≤ r'.start := by
  rw [decodePcapFile] at h
  split_ifs at h
  obtain ⟨spans, new, rfl, hspans, -, horder⟩ := decodeRecords_ok h
  exact ⟨spans, hspans, horder⟩

/-! ## With every access checked -/

open Checked

/-- `u16::from_be_bytes([b[i], b[i + 1]])`. -/
def readU16BEChecked (b : Bytes) (i : ℕ) : Checked UInt16 := do
  let b₀ ← index b i
  let b₁ ← index b (i + 1)
  return UInt16.ofNat (b₀.toNat * 256 + b₁.toNat)

lemma readU16BEChecked_eq {b : Bytes} {i : ℕ} (h : i + 2 ≤ b.length) :
    readU16BEChecked b i = .ok (Bytes.readU16BE b i) := by
  rw [readU16BEChecked, index_eq (by omega), Except.ok_bind, index_eq (by omega)]
  rfl

/-- `Ipv4Addr::new(b[i], b[i + 1], b[i + 2], b[i + 3])`. -/
def addrAtChecked (b : Bytes) (i : ℕ) : Checked (FixedBytes 4) := do
  let b₀ ← index b i
  let b₁ ← index b (i + 1)
  let b₂ ← index b (i + 2)
  let b₃ ← index b (i + 3)
  return ⟨[b₀, b₁, b₂, b₃], rfl⟩

lemma addrAtChecked_eq {b : Bytes} {i : ℕ} (h : i + 4 ≤ b.length) :
    addrAtChecked b i = .ok (addrAt b i) := by
  rw [addrAtChecked, index_eq (by omega), Except.ok_bind, index_eq (by omega), Except.ok_bind,
    index_eq (by omega), Except.ok_bind, index_eq (by omega)]
  rfl

/-- `u32::from_le_bytes(b[i..i + 4].try_into().unwrap())`. -/
def readU32Slice (b : Bytes) (i : ℕ) : Checked UInt32 := do
  let s ← slice b i (i + 4)
  let a ← copy 4 s
  return UInt32.ofNat (Bytes.toNatLE a.bytes)

lemma readU32Slice_eq {b : Bytes} {i : ℕ} (h : i + 4 ≤ b.length) :
    readU32Slice b i = .ok (Bytes.readU32 b i) := by
  rw [readU32Slice, slice_eq (by omega) h, Except.ok_bind,
    copy_eq (by rw [Bytes.length_slice]; omega)]
  rfl

/-- `decode_ipv4_udp_record`. -/
def decodeIpv4UdpRecordChecked (data : Bytes) (tsSec tsUsec : UInt32) (n : ℕ) :
    Checked (Except PcapError PcapPacket) :=
  if data.length < 20 + 8 then .ok (.error (.notIpv4Udp n))
  else do
    let versionIhl ← index data 0
    let ihlBytes := (versionIhl &&& 0x0f).toNat * 4
    if versionIhl >>> 4 ≠ 4 ∨ ihlBytes < 20 ∨ data.length < ihlBytes then
      return .error (.notIpv4Udp n)
    else do
      let protocol ← index data 9
      if protocol ≠ ipprotoUdp then return .error (.notIpv4Udp n)
      else do
        let srcAddr ← addrAtChecked data 12
        let dstAddr ← addrAtChecked data 16
        let udpEnd ← add ihlBytes 8
        match Bytes.getRange data ihlBytes udpEnd with
        | none => return .error (.notIpv4Udp n)
        | some udp => do
          let srcPort ← readU16BEChecked udp 0
          let dstPort ← readU16BEChecked udp 2
          let udpLen ← readU16BEChecked udp 4
          if udpLen.toNat < 8 then return .error (.notIpv4Udp n)
          else do
            let payloadLen ← sub udpLen.toNat 8
            let payloadStart ← add ihlBytes 8
            let payloadEnd ← add payloadStart payloadLen
            match Bytes.getRange data payloadStart payloadEnd with
            | none => return .error (.notIpv4Udp n)
            | some payload =>
              return .ok ⟨tsSec, tsUsec, srcAddr, srcPort, dstAddr, dstPort, payload⟩

lemma decodeIpv4UdpRecordChecked_eq {data : Bytes} (hlen : data.length < 2 ^ 63)
    (tsSec tsUsec : UInt32) (n : ℕ) : decodeIpv4UdpRecordChecked data tsSec tsUsec n =
      .ok (decodeIpv4UdpRecord data tsSec tsUsec n) := by
  rw [decodeIpv4UdpRecordChecked, decodeIpv4UdpRecord]
  by_cases hshort : data.length < 20 + 8
  · rw [if_pos hshort, if_pos hshort]
  rw [if_neg hshort, if_neg hshort, index_eq (by omega), Except.ok_bind]
  dsimp only
  by_cases hversion : Bytes.readU8 data 0 >>> 4 ≠ 4 ∨
      (Bytes.readU8 data 0 &&& 0x0f).toNat * 4 < 20 ∨
      data.length < (Bytes.readU8 data 0 &&& 0x0f).toNat * 4
  · rw [if_pos hversion, if_pos hversion]
    rfl
  rw [if_neg hversion, if_neg hversion, index_eq (by omega), Except.ok_bind]
  by_cases hprotocol : Bytes.readU8 data 9 ≠ ipprotoUdp
  · rw [if_pos hprotocol, if_pos hprotocol]
    rfl
  have hihl : (Bytes.readU8 data 0 &&& 0x0f).toNat * 4 ≤ data.length := by
    push Not at hversion
    exact hversion.2.2
  rw [if_neg hprotocol, if_neg hprotocol, addrAtChecked_eq (by omega), Except.ok_bind,
    addrAtChecked_eq (by omega), Except.ok_bind, add_eq (by omega), Except.ok_bind]
  cases hudp : Bytes.getRange data ((Bytes.readU8 data 0 &&& 0x0f).toNat * 4)
      ((Bytes.readU8 data 0 &&& 0x0f).toNat * 4 + 8) with
  | none => rfl
  | some udp =>
    have hudpLen : udp.length = 8 := by
      obtain ⟨-, hle, rfl⟩ := Bytes.getRange_eq_some.mp hudp
      rw [Bytes.length_slice]
      omega
    have hbound := (Bytes.readU16BE udp 4).toNat_lt
    dsimp only
    rw [readU16BEChecked_eq (by omega), Except.ok_bind, readU16BEChecked_eq (by omega),
      Except.ok_bind, readU16BEChecked_eq (by omega), Except.ok_bind]
    by_cases hudpShort : (Bytes.readU16BE udp 4).toNat < 8
    · rw [if_pos hudpShort, if_pos hudpShort]
      rfl
    rw [if_neg hudpShort, if_neg hudpShort, sub_eq (by omega), Except.ok_bind, Except.ok_bind,
      add_eq (by omega), Except.ok_bind]
    cases Bytes.getRange data ((Bytes.readU8 data 0 &&& 0x0f).toNat * 4 + 8)
      ((Bytes.readU8 data 0 &&& 0x0f).toNat * 4 + 8 + ((Bytes.readU16BE udp 4).toNat - 8)) <;> rfl

/-- Where the loop is. -/
structure PcapCursor where
  pos : ℕ
  index : ℕ
  packets : List PcapPacket

/-- One turn of the loop in `decode_pcap_file`. -/
def pcapTurn (bytes : Bytes) (c : PcapCursor) :
    Checked (Turn PcapCursor (Except PcapError (List PcapPacket))) :=
  if c.pos < bytes.length then do
    let headerEnd ← add c.pos 16
    match Bytes.getRange bytes c.pos headerEnd with
    | none => return .stop (.error (.truncated headerEnd bytes.length))
    | some header => do
      let tsSec ← readU32Slice header 0
      let tsUsec ← readU32Slice header 4
      let inclLen ← readU32Slice header 8
      let pos ← add c.pos 16
      let dataEnd ← add pos inclLen.toNat
      match Bytes.getRange bytes pos dataEnd with
      | none => return .stop (.error (.truncated dataEnd bytes.length))
      | some data => do
        match ← decodeIpv4UdpRecordChecked data tsSec tsUsec c.index with
        | .error e => return .stop (.error e)
        | .ok packet => do
          let index ← add c.index 1
          return .again ⟨dataEnd, index, c.packets ++ [packet]⟩
  else return .stop (.ok c.packets)

/-- The cursor is on the file, behind at least one byte for each packet so far. -/
structure PcapCursor.OnFile (bytes : Bytes) (c : PcapCursor) : Prop where
  pos_le : c.pos ≤ bytes.length
  index_le : c.index ≤ c.pos

lemma pcapTurn_eq {bytes : Bytes} (hlen : bytes.length < 2 ^ 63) {c : PcapCursor}
    (hc : c.OnFile bytes) :
    (∃ c' : PcapCursor, pcapTurn bytes c = .ok (.again c') ∧ c'.OnFile bytes ∧
      bytes.length - c'.pos < bytes.length - c.pos ∧
      decodeRecords bytes c'.pos c'.index c'.packets =
        decodeRecords bytes c.pos c.index c.packets) ∨
    pcapTurn bytes c = .ok (.stop (decodeRecords bytes c.pos c.index c.packets)) := by
  obtain ⟨pos, n, packets⟩ := c
  obtain ⟨hpos, hn⟩ := hc
  dsimp only at hpos hn ⊢
  rw [pcapTurn, decodeRecords]
  dsimp only
  by_cases hend : pos < bytes.length
  swap
  · rw [if_neg hend, if_neg hend]
    exact .inr rfl
  rw [if_pos hend, if_pos hend, add_eq (by omega), Except.ok_bind]
  cases hheader : Bytes.getRange bytes pos (pos + 16) with
  | none => exact .inr rfl
  | some header =>
    have hheaderLen : header.length = 16 := by
      obtain ⟨-, hle, rfl⟩ := Bytes.getRange_eq_some.mp hheader
      rw [Bytes.length_slice]
      omega
    have hinclLen := (Bytes.readU32 header 8).toNat_lt
    dsimp only
    rw [readU32Slice_eq (by omega), Except.ok_bind, readU32Slice_eq (by omega), Except.ok_bind,
      readU32Slice_eq (by omega), Except.ok_bind, Except.ok_bind, add_eq (by omega),
      Except.ok_bind]
    cases hdata : Bytes.getRange bytes (pos + 16)
        (pos + 16 + (Bytes.readU32 header 8).toNat) with
    | none => exact .inr rfl
    | some data =>
      obtain ⟨-, hstop, hslice⟩ := Bytes.getRange_eq_some.mp hdata
      have hdataLen : data.length < 2 ^ 63 := by
        rw [← hslice, Bytes.length_slice]
        omega
      dsimp only
      rw [decodeIpv4UdpRecordChecked_eq hdataLen, Except.ok_bind]
      cases decodeIpv4UdpRecord data (Bytes.readU32 header 0) (Bytes.readU32 header 4) n with
      | error e => exact .inr rfl
      | ok packet =>
        dsimp only
        rw [add_eq (by omega), Except.ok_bind]
        refine .inl ⟨⟨pos + 16 + (Bytes.readU32 header 8).toNat, n + 1, packets ++ [packet]⟩, rfl,
          ⟨hstop, ?_⟩, ?_, rfl⟩
        · dsimp only
          omega
        · dsimp only
          omega

/-- `decode_pcap_file`. -/
def decodePcapFileChecked (bytes : Bytes) : Checked (Except PcapError (List PcapPacket)) :=
  if bytes.length < 24 then .ok (.error (.truncated 24 bytes.length))
  else do
    let magic ← readU32 bytes 0
    if magic ≠ pcapMagicMicrosLe then return .error (.badMagic magic)
    else do
      let network ← readU32 bytes 20
      if network ≠ linktypeRaw then return .error (.unsupportedLinkType network)
      else loop (pcapTurn bytes) (bytes.length + 1) ⟨24, 0, []⟩

/-- No access of the reader faults, and its loop ends. -/
lemma decodePcapFileChecked_eq {bytes : Bytes} (hlen : bytes.length < 2 ^ 63) :
    decodePcapFileChecked bytes = .ok (decodePcapFile bytes) := by
  rw [decodePcapFileChecked, decodePcapFile]
  by_cases hshort : bytes.length < 24
  · rw [if_pos hshort, if_pos hshort]
  rw [if_neg hshort, if_neg hshort, readU32_eq (by omega), Except.ok_bind]
  by_cases hmagic : Bytes.readU32 bytes 0 ≠ pcapMagicMicrosLe
  · rw [if_pos hmagic, if_pos hmagic]
    rfl
  rw [if_neg hmagic, if_neg hmagic, readU32_eq (by omega), Except.ok_bind]
  by_cases hnetwork : Bytes.readU32 bytes 20 ≠ linktypeRaw
  · rw [if_pos hnetwork, if_pos hnetwork]
    rfl
  rw [if_neg hnetwork, if_neg hnetwork]
  refine loop_eq (f := fun c : PcapCursor => decodeRecords bytes c.pos c.index c.packets)
    (PcapCursor.OnFile bytes) (fun c => bytes.length - c.pos) (fun c hc => pcapTurn_eq hlen hc)
    ⟨?_, ?_⟩ ?_ <;> dsimp only <;> omega

/-- **The capture file.**  Packets whose lengths fit are read back, whatever their number.  Of any
bytes that a slice can hold the reader returns, without a fault, what `decodePcapFile` says; and
if that is a list of packets, the payload of each lies in the record of its own. -/
theorem pcap_container {packets : List PcapPacket}
    (hpackets : ∀ pkt ∈ packets, pkt.payload.length ≤ 65507) {bytes : Bytes}
    (hlen : bytes.length < 2 ^ 63) :
    decodePcapFile (encodePcapFile packets) = .ok packets ∧
    decodePcapFileChecked bytes = .ok (decodePcapFile bytes) ∧
    ∀ found, decodePcapFile bytes = .ok found →
      ∃ spans : List RecordSpan, List.Forall₂ (RecordSpan.Holds bytes) spans found ∧
        spans.Pairwise fun r r' => r.stop ≤ r'.start :=
  ⟨decodePcapFile_encodePcapFile hpackets, decodePcapFileChecked_eq hlen,
    fun _ => decodePcapFile_ok⟩

/-- A packet from a host to its neighbour, with the magic number of the protocol as its payload. -/
def neighbourPacket : PcapPacket where
  tsSec := 1700000000
  tsUsec := 0
  srcAddr := ⟨[192, 168, 1, 2], rfl⟩
  srcPort := 17410
  dstAddr := ⟨[192, 168, 1, 3], rfl⟩
  dstPort := 17411
  payload := [0x52, 0x54, 0x50, 0x53]

theorem pcap_container_neighbour :
    decodePcapFile (encodePcapFile [neighbourPacket]) = .ok [neighbourPacket] ∧
    decodePcapFileChecked (encodePcapFile [neighbourPacket]) =
      .ok (decodePcapFile (encodePcapFile [neighbourPacket])) ∧
    ∀ found, decodePcapFile (encodePcapFile [neighbourPacket]) = .ok found →
      ∃ spans : List RecordSpan,
        List.Forall₂ (RecordSpan.Holds (encodePcapFile [neighbourPacket])) spans found ∧
        spans.Pairwise fun r r' => r.stop ≤ r'.start :=
  pcap_container (by simp [neighbourPacket]) (by decide)

end RustDds
