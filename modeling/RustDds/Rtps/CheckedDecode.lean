import RustDds.Lib.Checked
import RustDds.Rtps.Spdp

/-!
# The decoders, with every access checked

The decoders of the RTPS modules cut a byte string at offsets they have checked against its
length, so there they read without a check.  Here are the same decoders as the source writes
them, where each index, slice, split, copy and addition is one that can fault.  Each comes with
the lemma that it never does, and returns what its plain counterpart does.

A byte string has less than `2 ^ 63` bytes, as a slice has; that is all that keeps the cursor
arithmetic of the parameter lists within a `usize`.
-/

namespace RustDds

open Checked

/-! ## Fixed fields -/

/-- `decode` of a fixed-size byte type. -/
def decodeFixedChecked (n : ℕ) (buf : Bytes) :
    Checked (Except RtpsDecodeError (FixedBytes n)) :=
  if buf.length < n then .ok (.error (.truncated n buf.length))
  else do
    let b ← slice buf 0 n
    let a ← copy n b
    return .ok a

lemma decodeFixedChecked_eq (n : ℕ) (buf : Bytes) :
    decodeFixedChecked n buf = .ok (decodeFixed n buf) := by
  unfold decodeFixedChecked decodeFixed
  split
  · rfl
  · rename_i hlen
    have htake : Bytes.slice buf 0 n = buf.take n := by simp [Bytes.slice]
    rw [slice_eq (Nat.zero_le n) (by omega), Except.ok_bind,
      copy_eq (by rw [Bytes.length_slice]; omega), Except.ok_bind]
    simp only [htake]
    rfl

/-- `SequenceNumber::decode`. -/
def SequenceNumber.decodeChecked (buf : Bytes) :
    Checked (Except RtpsDecodeError SequenceNumber) :=
  if buf.length < 8 then .ok (.error (.truncated 8 buf.length))
  else do
    let high ← readU32 buf 0
    let low ← readU32 buf 4
    return .ok { high := high.toInt32, low }

lemma SequenceNumber.decodeChecked_eq (buf : Bytes) :
    decodeChecked buf = .ok (decode buf) := by
  unfold decodeChecked decode
  split
  · rfl
  · rw [readU32_eq (by omega), Except.ok_bind, readU32_eq (by omega)]
    rfl

/-- `ProtocolVersion::decode`. -/
def ProtocolVersion.decodeChecked (buf : Bytes) :
    Checked (Except RtpsDecodeError ProtocolVersion) :=
  if buf.length < 2 then .ok (.error (.truncated 2 buf.length))
  else do
    let major ← index buf 0
    let minor ← index buf 1
    return .ok { major, minor }

lemma ProtocolVersion.decodeChecked_eq (buf : Bytes) :
    decodeChecked buf = .ok (decode buf) := by
  unfold decodeChecked decode
  split
  · rfl
  · rw [index_eq (by omega), Except.ok_bind, index_eq (by omega)]
    rfl

/-- `Guid::decode`. -/
def Guid.decodeChecked (buf : Bytes) : Checked (Except RtpsDecodeError Guid) :=
  if buf.length < 16 then .ok (.error (.truncated 16 buf.length))
  else do
    let b ← slice buf 0 12
    question (decodeFixedChecked 12 b) fun guidPrefix => do
      let b ← slice buf 12 16
      question (decodeFixedChecked 4 b) fun entity => .ok (.ok { guidPrefix, entity })

lemma Guid.decodeChecked_eq (buf : Bytes) : decodeChecked buf = .ok (decode buf) := by
  unfold decodeChecked decode
  split
  · rfl
  · rw [slice_eq (by omega) (by omega), Except.ok_bind]
    refine question_eq (decodeFixedChecked_eq 12 _) fun guidPrefix _ => ?_
    rw [slice_eq (by omega) (by omega), Except.ok_bind]
    exact question_eq (decodeFixedChecked_eq 4 _) fun entity _ => rfl

/-- `Locator::decode`. -/
def Locator.decodeChecked (buf : Bytes) : Checked (Except RtpsDecodeError Locator) :=
  if buf.length < 24 then .ok (.error (.truncated 24 buf.length))
  else do
    let kind ← readU32 buf 0
    let port ← readU32 buf 4
    let b ← slice buf 8 24
    let address ← copy 16 b
    return .ok { kind := kind.toInt32, port, address }

lemma Locator.decodeChecked_eq (buf : Bytes) : decodeChecked buf = .ok (decode buf) := by
  unfold decodeChecked decode
  split
  · rfl
  · have hlen : (Bytes.slice buf 8 24).length = 16 := by
      rw [Bytes.length_slice]
      omega
    have haddress : decodeFixed 16 (Bytes.slice buf 8 24) = .ok ⟨Bytes.slice buf 8 24, hlen⟩ :=
      decodeFixed_bytes ⟨Bytes.slice buf 8 24, hlen⟩
    rw [readU32_eq (by omega), Except.ok_bind, readU32_eq (by omega), Except.ok_bind,
      slice_eq (by omega) (by omega), Except.ok_bind, copy_eq hlen, haddress]
    rfl

/-- `fill_in_zero_address`. -/
def Locator.fillInZeroAddressChecked (l : Locator) (src : SocketAddr) : Checked Locator :=
  if l.address ≠ FixedBytes.zero 16 then .ok l
  else match src with
    | .v4 ip _ =>
      if l.kind = locatorKindUdpv4 then do
        let dst ← slice l.address.bytes 12 16
        let _ ← copy dst.length ip.bytes
        return { l with address := ⟨l.address.bytes.take 12 ++ ip.bytes, l.length_fillIn ip⟩ }
      else .ok l
    | .v6 ip _ =>
      if l.kind = locatorKindUdpv6 then do
        let address ← copy 16 ip.bytes
        return { l with address }
      else .ok l

lemma Locator.fillInZeroAddressChecked_eq (l : Locator) (src : SocketAddr) :
    l.fillInZeroAddressChecked src = .ok (l.fillInZeroAddress src) := by
  unfold fillInZeroAddressChecked fillInZeroAddress
  split
  · rfl
  cases src with
  | v4 ip port =>
    dsimp only
    split
    · have hdst : (Bytes.slice l.address.bytes 12 16).length = 4 := by simp
      rw [slice_eq (by omega) (by simp), Except.ok_bind, copy_eq (by simp)]
      rfl
    · rfl
  | v6 ip port =>
    dsimp only
    split
    · rw [copy_eq ip.length_eq]
      rfl
    · rfl

/-! ## Messages -/

/-- `Header::decode`. -/
def Header.decodeChecked (buf : Bytes) : Checked (Except RtpsDecodeError Header) :=
  if buf.length < 20 then .ok (.error (.truncated 20 buf.length))
  else do
    let magic ← slice buf 0 4
    if magic ≠ rtpsMagic then return .error .badMagic
    else do
      let b ← slice buf 4 6
      question (ProtocolVersion.decodeChecked b) fun protocolVersion => do
        let b ← slice buf 6 8
        question (decodeFixedChecked 2 b) fun vendorId => do
          let b ← slice buf 8 20
          question (decodeFixedChecked 12 b) fun guidPrefix =>
            .ok (.ok { protocolVersion, vendorId, guidPrefix })

lemma Header.decodeChecked_eq (buf : Bytes) : decodeChecked buf = .ok (decode buf) := by
  unfold decodeChecked decode
  split
  · rfl
  · rw [slice_eq (by omega) (by omega), Except.ok_bind]
    split
    · rfl
    · rw [slice_eq (by omega) (by omega), Except.ok_bind]
      refine question_eq (ProtocolVersion.decodeChecked_eq _) fun protocolVersion _ => ?_
      rw [slice_eq (by omega) (by omega), Except.ok_bind]
      refine question_eq (decodeFixedChecked_eq 2 _) fun vendorId _ => ?_
      rw [slice_eq (by omega) (by omega), Except.ok_bind]
      exact question_eq (decodeFixedChecked_eq 12 _) fun guidPrefix _ => rfl

/-- `SubmessageIter::next`. -/
def SubmessageIter.nextChecked (it : SubmessageIter) :
    Checked (Option (Except RtpsDecodeError RawSubmessage) × SubmessageIter) :=
  if it.errored || it.body.length < 4 then .ok (none, it)
  else do
    let id ← index it.body 0
    let flags ← index it.body 1
    let declared ← readU16 it.body 2 3
    let rest ← sliceFrom it.body 4
    let length :=
      if declared.toNat = 0 ∧ id ≠ submsgPad ∧ id ≠ submsgInfoTs then rest.length
      else declared.toNat
    if rest.length < length then
      return (some (.error (.truncated length rest.length)), { it with errored := true })
    else do
      let (body, remainder) ← splitAt rest length
      return (some (.ok ⟨id, flags, body⟩), { it with body := remainder })

lemma SubmessageIter.nextChecked_eq (it : SubmessageIter) : it.nextChecked = .ok it.next := by
  unfold nextChecked next
  split
  · rfl
  · rename_i hgo
    simp only [Bool.or_eq_true, decide_eq_true_eq, not_or, not_lt] at hgo
    rw [index_eq (by omega), Except.ok_bind, index_eq (by omega), Except.ok_bind,
      readU16_eq (by omega), Except.ok_bind, sliceFrom_eq (by omega), Except.ok_bind]
    unfold bodyLength
    dsimp only
    generalize (if (Bytes.readU16 it.body 2).toNat = 0 ∧ Bytes.readU8 it.body 0 ≠ submsgPad ∧
      Bytes.readU8 it.body 0 ≠ submsgInfoTs then (it.body.drop 4).length
        else (Bytes.readU16 it.body 2).toNat) = length
    split
    · rfl
    · rename_i hfits
      rw [splitAt_eq (not_lt.mp hfits)]
      rfl

/-- `decode_data_submessage`. -/
def decodeDataSubmessageChecked (flags : UInt8) (body : Bytes) :
    Checked (Except RtpsDecodeError DataSubmessage) :=
  if body.length < 20 then .ok (.error (.truncated 20 body.length))
  else do
    let b ← slice body 4 8
    question (decodeFixedChecked 4 b) fun readerEntityId => do
      let b ← slice body 8 12
      question (decodeFixedChecked 4 b) fun writerEntityId => do
        let b ← slice body 12 20
        question (SequenceNumber.decodeChecked b) fun seqNum => do
          if flags &&& flagData ≠ 0 ∧ body.length > 20 then do
            let payload ← sliceFrom body 20
            return .ok { readerEntityId, writerEntityId, seqNum, payload := some payload }
          else return .ok { readerEntityId, writerEntityId, seqNum, payload := none }

lemma decodeDataSubmessageChecked_eq (flags : UInt8) (body : Bytes) :
    decodeDataSubmessageChecked flags body = .ok (decodeDataSubmessage flags body) := by
  unfold decodeDataSubmessageChecked decodeDataSubmessage
  split
  · rfl
  · rw [slice_eq (by omega) (by omega), Except.ok_bind]
    refine question_eq (decodeFixedChecked_eq 4 _) fun readerEntityId _ => ?_
    rw [slice_eq (by omega) (by omega), Except.ok_bind]
    refine question_eq (decodeFixedChecked_eq 4 _) fun writerEntityId _ => ?_
    rw [slice_eq (by omega) (by omega), Except.ok_bind]
    refine question_eq (SequenceNumber.decodeChecked_eq _) fun seqNum _ => ?_
    split
    · rw [sliceFrom_eq (by omega)]
      rfl
    · rfl

/-! ## Parameter lists -/

namespace PlCdrDecoder

/-- `PlCdrDecoder::new`. -/
def newChecked (buf : Bytes) : Checked (Except RtpsDecodeError PlCdrDecoder) :=
  if buf.length < 4 then .ok (.error (.truncated 4 buf.length))
  else do
    let scheme ← readU16 buf 0 1
    if scheme ≠ plCdrLe then return .error (.invalidCdrScheme scheme) else return .ok ⟨buf, 4⟩

lemma newChecked_eq (buf : Bytes) : newChecked buf = .ok (new buf) := by
  unfold newChecked new
  split
  · rfl
  · rw [readU16_eq (by omega), Except.ok_bind]
    dsimp only
    split <;> rfl

/-- One turn of the loop in `next`. -/
def nextTurn (d : PlCdrDecoder) : Checked (Turn PlCdrDecoder (Option Param × PlCdrDecoder)) := do
  let header ← add d.pos 4
  if header > d.buf.length then return .stop (none, d)
  else do
    let p₁ ← add d.pos 1
    let pid ← readU16 d.buf d.pos p₁
    let p₂ ← add d.pos 2
    let p₃ ← add d.pos 3
    let length ← readU16 d.buf p₂ p₃
    let pos ← add d.pos 4
    if pid = pidSentinel then return .stop (none, { d with pos })
    else if pid = pidPad then return .again { d with pos }
    else do
      let limit ← add pos length.toNat
      if limit > d.buf.length then return .stop (none, { d with pos })
      else do
        let value ← slice d.buf pos limit
        return .stop (some ⟨pid, value⟩, { d with pos := limit })

/-- `PlCdrDecoder::next`. -/
def nextChecked (d : PlCdrDecoder) : Checked (Option Param × PlCdrDecoder) :=
  loop nextTurn (d.buf.length + 1) d

/-- The cursor is on the buffer, which is no longer than a slice can be. -/
structure OnBuffer (d : PlCdrDecoder) : Prop where
  pos_le : d.pos ≤ d.buf.length
  length_lt : d.buf.length < 2 ^ 63

lemma nextChecked_eq {d : PlCdrDecoder} (h : d.OnBuffer) :
    d.nextChecked = .ok (d.next d.buf.length) := by
  apply loop_eq OnBuffer fun d => d.buf.length - d.pos
  · rintro ⟨buf, pos⟩ ⟨hpos, hlen⟩
    dsimp only at hpos hlen
    have hnext : next buf.length ⟨buf, pos⟩ = next (buf.length + 1) ⟨buf, pos⟩ :=
      next_of_le (by dsimp only; omega) (by dsimp only; omega)
    rw [nextTurn, add_eq (by dsimp only; omega), Except.ok_bind]
    dsimp only
    rw [hnext, next]
    dsimp only
    by_cases hend : pos + 4 > buf.length
    · rw [if_pos hend, if_pos hend]
      exact .inr rfl
    rw [if_neg hend, if_neg hend, add_eq (by omega), Except.ok_bind,
      readU16_eq (by omega), Except.ok_bind, add_eq (by omega), Except.ok_bind,
      add_eq (by omega), Except.ok_bind, readU16_eq (by omega), Except.ok_bind,
      Except.ok_bind]
    have hlength := (Bytes.readU16 buf (pos + 2)).toNat_lt
    by_cases hsentinel : Bytes.readU16 buf pos = pidSentinel
    · rw [if_pos hsentinel, if_pos hsentinel]
      exact .inr rfl
    rw [if_neg hsentinel, if_neg hsentinel]
    by_cases hpad : Bytes.readU16 buf pos = pidPad
    · rw [if_pos hpad, if_pos hpad]
      refine .inl ⟨⟨buf, pos + 4⟩, rfl, ⟨by dsimp only; omega, hlen⟩, by dsimp only; omega, rfl⟩
    rw [if_neg hpad, if_neg hpad, add_eq (by omega), Except.ok_bind]
    by_cases hover : pos + 4 + (Bytes.readU16 buf (pos + 2)).toNat > buf.length
    · rw [if_pos hover, if_pos hover]
      exact .inr rfl
    · rw [if_neg hover, if_neg hover, slice_eq (by omega) (by omega)]
      exact .inr rfl
  · exact h
  · omega

/-- `for param in decoder { .. }`, over a state. -/
def forParams {σ : Type} (f : σ → Param → Checked σ) (s : σ) (d : PlCdrDecoder) : Checked σ :=
  loop (fun (d, s) => do
    match ← d.nextChecked with
    | (none, _) => return .stop s
    | (some param, d) => do
      let s ← f s param
      return .again (d, s)) (d.buf.length + 1) (d, s)

lemma OnBuffer.next {d d' : PlCdrDecoder} {param : Param} (h : d.OnBuffer)
    (hnext : d.next d.buf.length = (some param, d')) : d'.OnBuffer := by
  obtain ⟨hbuf, -, hle⟩ := next_some hnext
  exact ⟨hbuf ▸ hle, hbuf ▸ h.length_lt⟩

/-- A loop over the decoder is one over the list of its parameters. -/
lemma forParams_eq {σ : Type} {f : σ → Param → Checked σ} {g : σ → Param → σ}
    (hf : ∀ s param, f s param = .ok (g s param)) {d : PlCdrDecoder} (h : d.OnBuffer) (s : σ) :
    forParams f s d = .ok ((d.toList d.buf.length).foldl g s) := by
  refine loop_eq (f := fun ds : PlCdrDecoder × σ => (ds.1.toList ds.1.buf.length).foldl g ds.2)
    (fun ds => ds.1.OnBuffer) (fun ds => ds.1.buf.length - ds.1.pos) ?_ h (by dsimp only; omega)
  rintro ⟨d, s⟩ hd
  dsimp only at hd ⊢
  have hlist : d.toList d.buf.length = d.toList (d.buf.length + 1) :=
    toList_of_le (by omega) (by omega)
  rw [nextChecked_eq hd, Except.ok_bind, hlist, toList]
  rcases hnext : d.next d.buf.length with ⟨_ | param, d'⟩
  · exact .inr rfl
  · obtain ⟨hbuf, hpos, hle⟩ := next_some hnext
    dsimp only
    rw [hf, Except.ok_bind]
    refine .inl ⟨(d', g s param), rfl, hd.next hnext, ?_, ?_⟩
    · dsimp only
      rw [hbuf]
      omega
    · dsimp only
      rw [List.foldl_cons, hbuf]

end PlCdrDecoder

/-- `decode_string`. -/
def decodeStringChecked (b : Bytes) : Checked (Except RtpsDecodeError String) :=
  if b.length < 4 then .ok (.error (.truncated 4 b.length))
  else do
    let n ← readU32 b 0
    let limit ← add 4 n.toNat
    if b.length < limit then return .error (.truncated limit b.length)
    else do
      let s ← slice b 4 limit
      return .ok (Utf8.lossy (if s.getLast? = some 0 then s.dropLast else s))

lemma decodeStringChecked_eq (b : Bytes) : decodeStringChecked b = .ok (decodeString b) := by
  unfold decodeStringChecked decodeString
  split
  · rfl
  · have hn := (Bytes.readU32 b 0).toNat_lt
    rw [readU32_eq (by omega), Except.ok_bind, add_eq (by omega), Except.ok_bind]
    dsimp only
    split
    · rfl
    · rw [slice_eq (by omega) (by omega)]
      rfl

end RustDds
