import RustDds.Lib.Utf8
import RustDds.Rtps.Locator

/-!
# CDR encapsulation and parameter lists

A DATA payload starts with a four-byte encapsulation header naming its scheme.  `wrapPayload`
and `unwrapPayload` add and strip the header of plain user data; `PlCdrEncoder` and
`PlCdrDecoder` write and read the parameter lists of discovery announcements, sequences of
`(pid, length, value)` closed by a sentinel.

The decoder is an iterator.  `PlCdrDecoder.toList` is what a `for` loop over it sees; each of
its two loops takes a step budget, and `toList_of_le` shows that the length of the buffer is
budget enough.
-/

namespace RustDds

/-! ## Schemes and parameter ids -/

/-- CDR, little-endian. -/
def cdrLe : UInt16 := 0x0001

/-- Parameter-list CDR, little-endian. -/
def plCdrLe : UInt16 := 0x0003

/-- Padding, skipped on decode. -/
def pidPad : UInt16 := 0x0000

/-- Terminates a parameter list. -/
def pidSentinel : UInt16 := 0x0001

/-- `PID_PARTICIPANT_LEASE_DURATION`. -/
def pidParticipantLeaseDuration : UInt16 := 0x0002

/-- `PID_TOPIC_NAME`. -/
def pidTopicName : UInt16 := 0x0005

/-- `PID_TYPE_NAME`. -/
def pidTypeName : UInt16 := 0x0007

/-- `PID_PROTOCOL_VERSION`. -/
def pidProtocolVersion : UInt16 := 0x0015

/-- `PID_VENDOR_ID`. -/
def pidVendorId : UInt16 := 0x0016

/-- `PID_DEFAULT_UNICAST_LOCATOR`. -/
def pidDefaultUnicastLocator : UInt16 := 0x002F

/-- `PID_METATRAFFIC_UNICAST_LOCATOR`. -/
def pidMetatrafficUnicastLocator : UInt16 := 0x0032

/-- `PID_PARTICIPANT_GUID`. -/
def pidParticipantGuid : UInt16 := 0x0050

/-- `PID_BUILTIN_ENDPOINT_SET`. -/
def pidBuiltinEndpointSet : UInt16 := 0x0058

/-- `PID_ENDPOINT_GUID`. -/
def pidEndpointGuid : UInt16 := 0x005A

/-- Carries the authentication tag of a discovery plugin. -/
def pidDiscoveryToken : UInt16 := 0x8001

/-! ## Plain payloads -/

/-- Prepend the `CDR_LE` encapsulation header. -/
def wrapPayload (payload : Bytes) : Bytes := Bytes.ofU16 cdrLe ++ ([0x00, 0x00] ++ payload)

/-- Strip an encapsulation header of either scheme. -/
def unwrapPayload (b : Bytes) : Except RtpsDecodeError Bytes :=
  if b.length < 4 then .error (.truncated 4 b.length)
  else
    let scheme := Bytes.readU16 b 0
    if scheme ≠ cdrLe ∧ scheme ≠ plCdrLe then .error (.invalidCdrScheme scheme)
    else .ok (b.drop 4)

@[simp] lemma length_wrapPayload (payload : Bytes) :
    (wrapPayload payload).length = payload.length + 4 := by
  simp [wrapPayload]
  omega

lemma wrapPayload_ne_nil (payload : Bytes) : wrapPayload payload ≠ [] := by
  intro h
  simpa [h] using length_wrapPayload payload

/-- Unwrapping undoes wrapping. -/
@[simp] lemma unwrapPayload_wrapPayload (payload : Bytes) :
    unwrapPayload (wrapPayload payload) = .ok payload := by
  have hscheme : Bytes.readU16 (wrapPayload payload) 0 = cdrLe :=
    Bytes.readU16_ofU16_append cdrLe _
  have hdrop : (wrapPayload payload).drop 4 = payload := by
    rw [wrapPayload, Bytes.drop_append_right (by simp)]
    simp
  rw [unwrapPayload, if_neg (by simp), hscheme, hdrop]
  simp

/-- Read a string parameter, and drop its terminator if it has one. -/
def decodeString (b : Bytes) : Except RtpsDecodeError String :=
  if b.length < 4 then .error (.truncated 4 b.length)
  else
    let n := (Bytes.readU32 b 0).toNat
    if b.length < 4 + n then .error (.truncated (4 + n) b.length)
    else
      let s := Bytes.slice b 4 (4 + n)
      .ok (Utf8.lossy (if s.getLast? = some 0 then s.dropLast else s))

/-! ## Encoding a parameter list -/

/-- Builds a `PL_CDR_LE`-encoded parameter list. -/
structure PlCdrEncoder where
  buf : Bytes

namespace PlCdrEncoder

/-- An encoder holding the encapsulation header. -/
def new : PlCdrEncoder := ⟨Bytes.ofU16 plCdrLe ++ [0x00, 0x00]⟩

/-- Append `(pid, length, value)`, with `value` zero-padded to a multiple of four. -/
def addParam (enc : PlCdrEncoder) (pid : UInt16) (value : Bytes) : PlCdrEncoder :=
  let padded := (value.length + 3) / 4 * 4
  ⟨enc.buf ++ Bytes.ofU16 pid ++ Bytes.ofU16 (UInt16.ofNat padded) ++ value ++
    List.replicate (padded - value.length) 0⟩

/-- Append a `u32` parameter. -/
def addU32 (enc : PlCdrEncoder) (pid : UInt16) (v : UInt32) : PlCdrEncoder :=
  enc.addParam pid (Bytes.ofU32 v)

/-- Append a locator parameter. -/
def addLocator (enc : PlCdrEncoder) (pid : UInt16) (loc : Locator) : PlCdrEncoder :=
  enc.addParam pid loc.encode

/-- Append a guid parameter. -/
def addGuid (enc : PlCdrEncoder) (pid : UInt16) (guid : Guid) : PlCdrEncoder :=
  enc.addParam pid guid.encode

/-- Append a string parameter: its length, its bytes and a terminator. -/
def addString (enc : PlCdrEncoder) (pid : UInt16) (s : String) : PlCdrEncoder :=
  enc.addParam pid
    (Bytes.ofU32 (UInt32.ofNat ((Utf8.encode s).length + 1)) ++ Utf8.encode s ++ [0x00])

/-- Append a byte-string parameter. -/
def addBytes (enc : PlCdrEncoder) (pid : UInt16) (v : Bytes) : PlCdrEncoder :=
  enc.addParam pid v

/-- Append the sentinel and return the list. -/
def finish (enc : PlCdrEncoder) : Bytes := enc.buf ++ Bytes.ofU16 pidSentinel ++ [0x00, 0x00]

end PlCdrEncoder

/-! ## Decoding a parameter list -/

/-- A decoded parameter. -/
structure Param where
  pid : UInt16
  value : Bytes
  deriving DecidableEq

/-- Iterates over a parameter list. -/
structure PlCdrDecoder where
  buf : Bytes
  pos : ℕ

namespace PlCdrDecoder

/-- A decoder over `buf`, which must start with a `PL_CDR_LE` encapsulation header. -/
def new (buf : Bytes) : Except RtpsDecodeError PlCdrDecoder :=
  if buf.length < 4 then .error (.truncated 4 buf.length)
  else
    let scheme := Bytes.readU16 buf 0
    if scheme ≠ plCdrLe then .error (.invalidCdrScheme scheme) else .ok ⟨buf, 4⟩

/-- The next parameter, within `fuel` turns of the loop that skips padding.  There is none at
the sentinel, at the end of the input, or where a length would run past it. -/
def next : ℕ → PlCdrDecoder → Option Param × PlCdrDecoder
  | 0, d => (none, d)
  | fuel + 1, d =>
    if d.pos + 4 > d.buf.length then (none, d)
    else
      let pid := Bytes.readU16 d.buf d.pos
      let length := (Bytes.readU16 d.buf (d.pos + 2)).toNat
      let pos := d.pos + 4
      if pid = pidSentinel then (none, { d with pos })
      else if pid = pidPad then next fuel { d with pos }
      else if pos + length > d.buf.length then (none, { d with pos })
      else (some ⟨pid, Bytes.slice d.buf pos (pos + length)⟩, { d with pos := pos + length })

/-- What a loop over the decoder sees, within `fuel` turns. -/
def toList : ℕ → PlCdrDecoder → List Param
  | 0, _ => []
  | fuel + 1, d =>
    match d.next d.buf.length with
    | (some param, d') => param :: toList fuel d'
    | (none, _) => []

/-- A decoder stays on its buffer, and every parameter takes four bytes at least. -/
lemma next_some {fuel : ℕ} {d d' : PlCdrDecoder} {param : Param}
    (h : d.next fuel = (some param, d')) :
    d'.buf = d.buf ∧ d.pos + 4 ≤ d'.pos ∧ d'.pos ≤ d.buf.length := by
  induction fuel generalizing d with
  | zero => simp [next] at h
  | succ fuel ih =>
    rw [next] at h
    dsimp only at h
    split_ifs at h
    · simp at h
    · simp at h
    · obtain ⟨hbuf, hpos, hlen⟩ := ih h
      exact ⟨hbuf, by dsimp only at hpos; omega, hlen⟩
    · simp at h
    · simp only [Prod.mk.injEq] at h
      rw [← h.2]
      exact ⟨rfl, by dsimp only; omega, by dsimp only; omega⟩

/-- The turns of the padding loop are bounded by what is left of the buffer. -/
lemma next_of_le {f g : ℕ} {d : PlCdrDecoder} (hf : d.buf.length ≤ d.pos + f)
    (hg : d.buf.length ≤ d.pos + g) : d.next f = d.next g := by
  induction f generalizing d g with
  | zero =>
    cases g with
    | zero => rfl
    | succ g => rw [next, next, if_pos (by omega)]
  | succ f ih =>
    cases g with
    | zero => rw [next, next, if_pos (by omega)]
    | succ g =>
      have hrec : next f { d with pos := d.pos + 4 } = next g { d with pos := d.pos + 4 } :=
        ih (by dsimp only; omega) (by dsimp only; omega)
      rw [next, next]
      dsimp only
      rw [hrec]

/-- The turns of a loop over the decoder are bounded by what is left of the buffer. -/
lemma toList_of_le {f g : ℕ} {d : PlCdrDecoder} (hf : d.buf.length ≤ d.pos + f)
    (hg : d.buf.length ≤ d.pos + g) : d.toList f = d.toList g := by
  -- with nothing left, the decoder stops at once
  have hstop : ∀ {n : ℕ} {e : PlCdrDecoder}, e.buf.length ≤ e.pos → e.toList n = [] := by
    intro n e he
    cases n with
    | zero => rfl
    | succ n =>
      rw [toList]
      rcases hnext : e.next e.buf.length with ⟨_ | param, e'⟩
      · rfl
      · have := next_some hnext
        omega
  induction f generalizing d g with
  | zero => rw [hstop (by omega), hstop (by omega)]
  | succ f ih =>
    cases g with
    | zero => rw [hstop (by omega), hstop (by omega)]
    | succ g =>
      rw [toList, toList]
      rcases hnext : d.next d.buf.length with ⟨_ | param, d'⟩
      · rfl
      · obtain ⟨hbuf, hpos, -⟩ := next_some hnext
        dsimp only
        rw [ih (g := g) (by rw [hbuf]; omega) (by rw [hbuf]; omega)]

/-- The parameters of a payload, or `none` without a `PL_CDR_LE` header. -/
def decodeParams (payload : Bytes) : Option (List Param) :=
  match new payload with
  | .ok d => some (d.toList d.buf.length)
  | .error _ => none

end PlCdrDecoder

/-! ## Reading back what was encoded

An encoded parameter is read back padded: its length field counts the padding. -/

namespace Param

/-- The zeros that fill a value up to a multiple of four bytes. -/
def padding (value : Bytes) : Bytes :=
  List.replicate ((value.length + 3) / 4 * 4 - value.length) 0

/-- The parameter with its padding. -/
def pad (param : Param) : Param := { param with value := param.value ++ padding param.value }

/-- The parameter on the wire. -/
def encode (param : Param) : Bytes :=
  Bytes.ofU16 param.pid ++
    (Bytes.ofU16 (UInt16.ofNat param.pad.value.length) ++ param.pad.value)

/-- A parameter the decoder reads as one: neither padding nor the sentinel, and with a length
that fits its field. -/
structure Plain (param : Param) : Prop where
  ne_sentinel : param.pid ≠ pidSentinel
  ne_pad : param.pid ≠ pidPad
  length_lt : param.pad.value.length < 2 ^ 16

lemma length_pad (param : Param) :
    param.pad.value.length = (param.value.length + 3) / 4 * 4 := by
  rw [pad, padding, List.length_append, List.length_replicate]
  omega

/-- A value of a multiple of four bytes is not padded. -/
lemma pad_of_mod {param : Param} (h : param.value.length % 4 = 0) : param.pad = param := by
  have hzero : (param.value.length + 3) / 4 * 4 - param.value.length = 0 := by omega
  rw [pad, padding, hzero, List.replicate_zero, List.append_nil]

/-- A parameter is read as one unless its id or its length says otherwise. -/
lemma plain_of_length {pid : UInt16} {value : Bytes} (hs : pid ≠ pidSentinel) (hp : pid ≠ pidPad)
    (hlen : value.length < 65533) : Plain ⟨pid, value⟩ := by
  refine ⟨hs, hp, ?_⟩
  rw [length_pad]
  dsimp only
  omega

lemma length_encode (param : Param) : param.encode.length = 4 + param.pad.value.length := by
  rw [encode, List.length_append, List.length_append, Bytes.length_ofU16, Bytes.length_ofU16]
  omega

end Param

/-- The sentinel that closes a list, and its empty length. -/
def sentinelBytes : Bytes := Bytes.ofU16 pidSentinel ++ [0x00, 0x00]

@[simp] lemma length_sentinelBytes : sentinelBytes.length = 4 := by
  rw [sentinelBytes, List.length_append, Bytes.length_ofU16]
  rfl

/-- A parameter list on the wire. -/
def Param.encodeList (params : List Param) : Bytes :=
  PlCdrEncoder.new.buf ++ (params.flatMap Param.encode ++ sentinelBytes)

@[simp] lemma PlCdrEncoder.length_buf_new : PlCdrEncoder.new.buf.length = 4 := by
  rw [new, List.length_append, Bytes.length_ofU16]
  rfl

lemma Param.encodeList_ne_nil (params : List Param) : Param.encodeList params ≠ [] := by
  intro hnil
  have hlen := congrArg List.length hnil
  rw [encodeList, List.length_append, PlCdrEncoder.length_buf_new, List.length_nil] at hlen
  omega

lemma PlCdrEncoder.buf_addParam (enc : PlCdrEncoder) (pid : UInt16) (value : Bytes) :
    (enc.addParam pid value).buf = enc.buf ++ Param.encode ⟨pid, value⟩ := by
  rw [Param.encode, Param.length_pad, Param.pad, Param.padding, addParam]
  simp only [List.append_assoc]

namespace PlCdrDecoder

/-- The decoder at an encoded parameter: it yields it, padded, and goes on behind it. -/
lemma next_encode {param : Param} (h : param.Plain) (fuel : ℕ) (before after : Bytes) :
    next (fuel + 1) ⟨before ++ (param.encode ++ after), before.length⟩ =
      (some param.pad,
        ⟨before ++ (param.encode ++ after), (before ++ param.encode).length⟩) := by
  have hlen := param.length_encode
  have hbound : before.length + param.encode.length + after.length =
      (before ++ (param.encode ++ after)).length := by
    rw [List.length_append, List.length_append]
    omega
  have hpid : Bytes.readU16 (before ++ (param.encode ++ after)) before.length = param.pid := by
    rw [Bytes.readU16_append_right le_rfl, Nat.sub_self, Param.encode, List.append_assoc,
      Bytes.readU16_ofU16_append]
  have hcount : (Bytes.readU16 (before ++ (param.encode ++ after)) (before.length + 2)).toNat =
      param.pad.value.length := by
    rw [Bytes.readU16_append_right (by omega), Nat.add_sub_cancel_left, Param.encode,
      List.append_assoc, Bytes.readU16_append_right (by simp), Bytes.length_ofU16, Nat.sub_self,
      List.append_assoc, Bytes.readU16_ofU16_append, UInt16.toNat_ofNat']
    exact Nat.mod_eq_of_lt h.length_lt
  have hvalue : Bytes.slice (before ++ (param.encode ++ after)) (before.length + 4)
      (before.length + 4 + param.pad.value.length) = param.pad.value := by
    rw [Bytes.slice_append_right (by omega), Param.encode, List.append_assoc,
      Bytes.slice_append_right (by rw [Bytes.length_ofU16]; omega), List.append_assoc,
      Bytes.slice_append_right (by simp only [Bytes.length_ofU16]; omega)]
    simp only [Bytes.length_ofU16, Nat.add_sub_cancel_left]
    rw [show before.length + 4 + param.pad.value.length - before.length - 2 - 2 =
      param.pad.value.length by omega]
    exact Bytes.slice_append_left rfl
  rw [next]
  dsimp only
  rw [if_neg (by omega), hpid, if_neg h.ne_sentinel, if_neg h.ne_pad, hcount,
    if_neg (by omega), hvalue, List.length_append, hlen, Nat.add_assoc]
  rfl

/-- The decoder at the sentinel yields nothing more. -/
lemma next_sentinel (fuel : ℕ) (before : Bytes) :
    ∃ d, next (fuel + 1) ⟨before ++ sentinelBytes, before.length⟩ = (none, d) := by
  have hpid : Bytes.readU16 (before ++ sentinelBytes) before.length = pidSentinel := by
    rw [Bytes.readU16_append_right le_rfl, Nat.sub_self, sentinelBytes,
      Bytes.readU16_ofU16_append]
  rw [next]
  dsimp only
  rw [hpid, if_pos rfl]
  split <;> exact ⟨_, rfl⟩

/-- A loop over the decoder sees the encoded parameter at its cursor, then what follows. -/
lemma toList_encode_append {param : Param} (h : param.Plain) (fuel : ℕ) (before after : Bytes) :
    toList (fuel + 1) ⟨before ++ (param.encode ++ after), before.length⟩ =
      param.pad ::
        toList fuel ⟨before ++ (param.encode ++ after), (before ++ param.encode).length⟩ := by
  have hlen := param.length_encode
  obtain ⟨n, hn⟩ : ∃ n, (before ++ (param.encode ++ after)).length = n + 1 :=
    ⟨before.length + (3 + param.pad.value.length + after.length), by
      rw [List.length_append, List.length_append]
      omega⟩
  rw [toList, hn, next_encode h]

/-- A loop over the decoder ends at the sentinel. -/
lemma toList_sentinel (fuel : ℕ) (before : Bytes) :
    toList fuel ⟨before ++ sentinelBytes, before.length⟩ = [] := by
  cases fuel with
  | zero => rfl
  | succ fuel =>
    obtain ⟨n, hn⟩ : ∃ n, (before ++ sentinelBytes).length = n + 1 :=
      ⟨before.length + 3, by rw [List.length_append, length_sentinelBytes]⟩
    obtain ⟨d, hnext⟩ := next_sentinel n before
    rw [toList, hn, hnext]

/-- What a loop over the decoder sees of the encoded parameters still ahead of it. -/
lemma toList_encode {params : List Param} (h : ∀ param ∈ params, param.Plain) (before : Bytes)
    {fuel : ℕ} (hfuel : params.length < fuel) :
    toList fuel ⟨before ++ (params.flatMap Param.encode ++ sentinelBytes), before.length⟩ =
      params.map Param.pad := by
  induction params generalizing before fuel with
  | nil => exact toList_sentinel fuel before
  | cons param params ih =>
    rw [List.length_cons] at hfuel
    obtain ⟨fuel, rfl⟩ : ∃ f, fuel = f + 1 := ⟨fuel - 1, by omega⟩
    rw [List.flatMap_cons, List.append_assoc, toList_encode_append (h param List.mem_cons_self),
      ← List.append_assoc before,
      ih (fun p hp => h p (List.mem_cons_of_mem _ hp)) _ (by omega), List.map_cons]

/-- **A parameter list survives**, with every value padded. -/
lemma decodeParams_encodeList {params : List Param} (h : ∀ param ∈ params, param.Plain) :
    decodeParams (Param.encodeList params) = some (params.map Param.pad) := by
  have hscheme : Bytes.readU16 (Param.encodeList params) 0 = plCdrLe := by
    rw [Param.encodeList, PlCdrEncoder.new, List.append_assoc, Bytes.readU16_ofU16_append]
  have hlen : params.length + 4 < (Param.encodeList params).length := by
    have hle : params.length ≤ (params.flatMap Param.encode).length := by
      clear h hscheme
      induction params with
      | nil => exact le_rfl
      | cons param params ih =>
        rw [List.flatMap_cons, List.length_append, List.length_cons, Param.length_encode]
        omega
    rw [Param.encodeList, List.length_append, List.length_append, length_sentinelBytes,
      PlCdrEncoder.length_buf_new]
    omega
  have hlist := toList_encode h PlCdrEncoder.new.buf
    (show params.length < (Param.encodeList params).length by omega)
  rw [PlCdrEncoder.length_buf_new] at hlist
  rw [decodeParams, new, if_neg (by omega), hscheme, if_neg (by simp)]
  exact congrArg some hlist

end PlCdrDecoder

/-! ## Strings -/

/-- The value of a string parameter. -/
def stringValue (s : String) : Bytes :=
  Bytes.ofU32 (UInt32.ofNat ((Utf8.encode s).length + 1)) ++ Utf8.encode s ++ [0x00]

lemma length_stringValue (s : String) : (stringValue s).length = (Utf8.encode s).length + 5 := by
  simp only [stringValue, List.length_append, Bytes.length_ofU32, List.length_cons,
    List.length_nil]
  omega

/-- **A string parameter survives**, whatever pads it. -/
lemma decodeString_stringValue {s : String} (hlen : (Utf8.encode s).length + 1 < 2 ^ 32)
    (padding : Bytes) : decodeString (stringValue s ++ padding) = .ok s := by
  have hread : (Bytes.readU32 (stringValue s ++ padding) 0).toNat =
      (Utf8.encode s).length + 1 := by
    rw [stringValue, List.append_assoc, List.append_assoc, Bytes.readU32_ofU32_append,
      UInt32.toNat_ofNat']
    exact Nat.mod_eq_of_lt hlen
  have hslice : Bytes.slice (stringValue s ++ padding) 4 (4 + ((Utf8.encode s).length + 1)) =
      Utf8.encode s ++ [0x00] := by
    rw [stringValue, List.append_assoc, List.append_assoc,
      Bytes.slice_append_right (by simp), Bytes.length_ofU32, Nat.sub_self,
      Nat.add_sub_cancel_left, ← List.append_assoc]
    exact Bytes.slice_append_left (by simp)
  have hlong : ¬ (stringValue s ++ padding).length < 4 := by
    rw [List.length_append, length_stringValue]
    omega
  have hfits : ¬ (stringValue s ++ padding).length < 4 + ((Utf8.encode s).length + 1) := by
    rw [List.length_append, length_stringValue]
    omega
  rw [decodeString, if_neg hlong, hread]
  dsimp only
  rw [if_neg hfits, hslice, List.getLast?_concat, if_pos rfl, List.dropLast_concat,
    Utf8.lossy_encode]

end RustDds
