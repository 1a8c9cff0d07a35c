import RustDds.Lib.Checked
import RustDds.Lib.Utf8
import RustDds.Rtps.Cdr

/-!
# The XCDR codec

The codec of typed payloads.  A field of two, four or eight bytes starts at a multiple of its
size, counted from the start of the buffer with its four-byte encapsulation header; strings and
byte sequences follow a four-byte length.

Every access and every addition of the decoder is one that can fault.  Its reads work on the
cursor in place: `align` moves it before `need` looks whether the field is there, so a read that
returns an error may have moved it.  `read_eq` says in one formula what each read does.
-/

namespace RustDds

open Checked

/-- Big-endian encapsulation, accepted on the header only. -/
def cdrBe : UInt16 := 0x0000

/-- The length of the encapsulation header. -/
def encapHeaderLen : ℕ := 4

/-- The bytes between `pos` and the next multiple of `n`. -/
def alignPad (n pos : ℕ) : ℕ := (n - pos % n) % n

/-! ## The encoder -/

/-- Writes XCDR little-endian bytes to a buffer. -/
structure XcdrEncoder where
  buf : Bytes

namespace XcdrEncoder

/-- An encoder holding the `CDR_LE` encapsulation header. -/
def new : XcdrEncoder := ⟨Bytes.ofU16 cdrLe ++ [0x00, 0x00]⟩

/-- The encoded length, header included. -/
def len (enc : XcdrEncoder) : ℕ := enc.buf.length

/-- Append bytes. -/
def push (enc : XcdrEncoder) (b : Bytes) : XcdrEncoder := ⟨enc.buf ++ b⟩

/-- Pad with zeros to a multiple of `n`. -/
def align (enc : XcdrEncoder) (n : ℕ) : XcdrEncoder :=
  enc.push (List.replicate (alignPad n enc.buf.length) 0)

/-- Encode a boolean. -/
def writeBool (enc : XcdrEncoder) (v : Bool) : XcdrEncoder := enc.push [if v then 1 else 0]

/-- Encode an unsigned octet. -/
def writeU8 (enc : XcdrEncoder) (v : UInt8) : XcdrEncoder := enc.push [v]

/-- Encode a signed octet. -/
def writeI8 (enc : XcdrEncoder) (v : Int8) : XcdrEncoder := enc.push [v.toUInt8]

/-- Encode the low byte of a character. -/
def writeChar (enc : XcdrEncoder) (v : Char) : XcdrEncoder := enc.writeU8 (UInt8.ofNat v.toNat)

/-- Encode a signed 16-bit integer. -/
def writeI16 (enc : XcdrEncoder) (v : Int16) : XcdrEncoder :=
  (enc.align 2).push (Bytes.ofNatLE 2 v.toUInt16.toNat)

/-- Encode an unsigned 16-bit integer. -/
def writeU16 (enc : XcdrEncoder) (v : UInt16) : XcdrEncoder :=
  (enc.align 2).push (Bytes.ofNatLE 2 v.toNat)

/-- Encode a signed 32-bit integer. -/
def writeI32 (enc : XcdrEncoder) (v : Int32) : XcdrEncoder :=
  (enc.align 4).push (Bytes.ofNatLE 4 v.toUInt32.toNat)

/-- Encode an unsigned 32-bit integer. -/
def writeU32 (enc : XcdrEncoder) (v : UInt32) : XcdrEncoder :=
  (enc.align 4).push (Bytes.ofNatLE 4 v.toNat)

/-- Encode a signed 64-bit integer. -/
def writeI64 (enc : XcdrEncoder) (v : Int64) : XcdrEncoder :=
  (enc.align 8).push (Bytes.ofNatLE 8 v.toUInt64.toNat)

/-- Encode an unsigned 64-bit integer. -/
def writeU64 (enc : XcdrEncoder) (v : UInt64) : XcdrEncoder :=
  (enc.align 8).push (Bytes.ofNatLE 8 v.toNat)

/-- Encode a 32-bit float, given by its bits. -/
def writeF32 (enc : XcdrEncoder) (bits : UInt32) : XcdrEncoder :=
  (enc.align 4).push (Bytes.ofNatLE 4 bits.toNat)

/-- Encode a 64-bit float, given by its bits. -/
def writeF64 (enc : XcdrEncoder) (bits : UInt64) : XcdrEncoder :=
  (enc.align 8).push (Bytes.ofNatLE 8 bits.toNat)

/-- Encode a string: its length with the terminator, its bytes, the terminator. -/
def writeString (enc : XcdrEncoder) (s : String) : XcdrEncoder :=
  let n := UInt32.ofNat ((Utf8.encode s).length + 1)
  (((enc.align 4).push (Bytes.ofNatLE 4 n.toNat)).push (Utf8.encode s)).push [0x00]

/-- Encode a byte sequence: its length, its bytes. -/
def writeBytesSeq (enc : XcdrEncoder) (b : Bytes) : XcdrEncoder :=
  ((enc.align 4).push (Bytes.ofNatLE 4 (UInt32.ofNat b.length).toNat)).push b

end XcdrEncoder

/-! ## The decoder -/

/-- Reads XCDR little-endian bytes from a buffer. -/
structure XcdrDecoder where
  buf : Bytes
  pos : ℕ
  deriving DecidableEq

namespace XcdrDecoder

/-- A decoder behind the encapsulation header of `buf`. -/
def new (buf : Bytes) : Except RtpsDecodeError XcdrDecoder :=
  if buf.length < encapHeaderLen then .error (.truncated encapHeaderLen buf.length)
  else
    let scheme := Bytes.readU16 buf 0
    if scheme ≠ cdrLe ∧ scheme ≠ cdrBe then .error (.invalidCdrScheme scheme)
    else .ok ⟨buf, encapHeaderLen⟩

/-- The number of undecoded bytes: a subtraction that faults behind the end of the buffer. -/
def remaining (d : XcdrDecoder) : Checked ℕ :=
  if d.pos ≤ d.buf.length then .ok (d.buf.length - d.pos) else .error (.panic .overflow)

/-- A call of a decoder method. -/
abbrev Reading := Stateful XcdrDecoder RtpsDecodeError

/-- Move the cursor by `n`. -/
def advance (n : ℕ) : Reading Unit := do
  let d ← get
  let pos ← add d.pos n
  set { d with pos }

/-- Move the cursor to the next multiple of `n`. -/
def align (n : ℕ) : Reading Unit := do
  let d ← get
  advance (alignPad n d.pos)

/-- An error if fewer than `n` bytes remain at the cursor. -/
def need (n : ℕ) : Reading Unit := do
  let d ← get
  let stop ← add d.pos n
  if stop > d.buf.length then throw (.truncated stop d.buf.length)

/-- Decode a boolean: any byte but zero is `true`. -/
def readBool : Reading Bool := do
  need 1
  let d ← get
  let v ← index d.buf d.pos
  advance 1
  return v != 0

/-- Decode an unsigned octet. -/
def readU8 : Reading UInt8 := do
  need 1
  let d ← get
  let v ← index d.buf d.pos
  advance 1
  return v

/-- Decode a signed octet. -/
def readI8 : Reading Int8 := do
  let v ← readU8
  return v.toInt8

/-- Decode a character from an octet, `U+FFFD` if it is not ASCII. -/
def readChar : Reading Char := do
  let v ← readU8
  return if v < 128 then Char.ofNat v.toNat else Char.ofNat 0xFFFD

/-- The two bytes of `read_i16` and `read_u16`. -/
def readPair : Reading UInt16 := do
  align 2
  need 2
  let d ← get
  let v ← Checked.readU16 d.buf d.pos (d.pos + 1)
  advance 2
  return v

/-- Decode a signed 16-bit integer. -/
def readI16 : Reading Int16 := do
  let v ← readPair
  return v.toInt16

/-- Decode an unsigned 16-bit integer. -/
def readU16 : Reading UInt16 := readPair

/-- The array of `n` bytes of the wider integers. -/
def readArray (n : ℕ) : Reading Bytes := do
  align n
  need n
  let d ← get
  let src ← slice d.buf d.pos (d.pos + n)
  let b ← copy n src
  advance n
  return b.bytes

/-- Decode a signed 32-bit integer. -/
def readI32 : Reading Int32 := do
  let b ← readArray 4
  return (UInt32.ofNat (Bytes.toNatLE b)).toInt32

/-- Decode an unsigned 32-bit integer. -/
def readU32 : Reading UInt32 := do
  let b ← readArray 4
  return UInt32.ofNat (Bytes.toNatLE b)

/-- Decode a signed 64-bit integer. -/
def readI64 : Reading Int64 := do
  let b ← readArray 8
  return (UInt64.ofNat (Bytes.toNatLE b)).toInt64

/-- Decode an unsigned 64-bit integer. -/
def readU64 : Reading UInt64 := do
  let b ← readArray 8
  return UInt64.ofNat (Bytes.toNatLE b)

/-- Decode the bits of a 32-bit float. -/
def readF32 : Reading UInt32 := do
  let v ← readU32
  return v

/-- Decode the bits of a 64-bit float. -/
def readF64 : Reading UInt64 := do
  let v ← readU64
  return v

/-- The `n` bytes behind a length. -/
def readBody (n : ℕ) : Reading Bytes := do
  need n
  let d ← get
  let b ← slice d.buf d.pos (d.pos + n)
  advance n
  return b

/-- Decode a string; without a terminator it is all of its bytes. -/
def readString : Reading String := do
  let n ← readU32
  if n.toNat = 0 then return ""
  else
    let raw ← readBody n.toNat
    return Utf8.lossy (if raw.getLast? = some 0 then raw.dropLast else raw)

/-- Decode a byte sequence. -/
def readBytesSeq : Reading Bytes := do
  let n ← readU32
  readBody n.toNat

/-! ### What the steps of a read do -/

/-- The cursor lies inside the buffer, which is no longer than a slice can be. -/
structure Inside (d : XcdrDecoder) : Prop where
  length_lt : d.buf.length < 2 ^ 63
  pos_le : d.pos ≤ d.buf.length

variable {d : XcdrDecoder} {n : ℕ}

lemma alignPad_lt (hn : 0 < n) (pos : ℕ) : alignPad n pos < n := Nat.mod_lt _ hn

lemma on_advance (h : d.pos + n < 2 ^ 64) :
    (advance n).on d = .ok (.ok (), { d with pos := d.pos + n }) := by
  rw [advance, Stateful.on_bind_ok Stateful.on_get, Stateful.on_bind_ok
    (Stateful.on_lift (add_eq h)), Stateful.on_set]

lemma on_align (h : d.pos + alignPad n d.pos < 2 ^ 64) :
    (align n).on d = .ok (.ok (), { d with pos := d.pos + alignPad n d.pos }) := by
  rw [align, Stateful.on_bind_ok Stateful.on_get, on_advance h]

lemma on_need (h : d.pos + n < 2 ^ 64) : (need n).on d =
    .ok (if d.pos + n ≤ d.buf.length then .ok ()
      else .error (.truncated (d.pos + n) d.buf.length), d) := by
  rw [need, Stateful.on_bind_ok Stateful.on_get, Stateful.on_bind_ok
    (Stateful.on_lift (add_eq h))]
  by_cases hle : d.pos + n ≤ d.buf.length
  · rw [if_neg (not_lt.mpr hle), if_pos hle]
    rfl
  · rw [if_pos (not_le.mp hle), if_neg hle]
    rfl

/-- What reading a field of `n` bytes does: the cursor moves to the next multiple of `n`, and on
behind the field if the field is there. -/
def field {α : Type} (n : ℕ) (value : Bytes → α) (d : XcdrDecoder) :
    Except RtpsDecodeError α × XcdrDecoder :=
  let start := d.pos + alignPad n d.pos
  if start + n ≤ d.buf.length then
    (.ok (value (Bytes.slice d.buf start (start + n))), { d with pos := start + n })
  else (.error (.truncated (start + n) d.buf.length), { d with pos := start })

/-- The read `x` is of a field of `n` bytes. -/
def Takes {α : Type} (x : Reading α) (n : ℕ) (value : Bytes → α) : Prop :=
  ∀ d : XcdrDecoder, d.Inside → x.on d = .ok (field n value d)

variable {α β : Type} {x : Reading α} {value : Bytes → α}

lemma Takes.map (h : Takes x n value) (f : α → β) :
    Takes (do let v ← x; return f v) n (fun b => f (value b)) := by
  intro d hd
  have hx := h d hd
  unfold field at hx ⊢
  dsimp only at hx ⊢
  split at hx
  · rename_i hfits
    rw [if_pos hfits]
    exact Stateful.on_bind_ok hx _
  · rename_i hfits
    rw [if_neg hfits]
    exact Stateful.on_bind_error hx _

/-- A read that aligns the cursor, looks whether the field is there, and takes it. -/
lemma takes_of_body (hn : 0 < n) (hn64 : n < 2 ^ 62)
    (hx : ∀ d : XcdrDecoder, d.pos + n ≤ d.buf.length → d.buf.length < 2 ^ 63 → x.on d =
      .ok (.ok (value (Bytes.slice d.buf d.pos (d.pos + n))), { d with pos := d.pos + n })) :
    Takes (do align n; need n; x) n value := by
  intro d hd
  have hpad := alignPad_lt hn d.pos
  have hlen := hd.length_lt
  have hpos := hd.pos_le
  rw [Stateful.on_bind_ok (on_align (by omega))]
  unfold field
  dsimp only
  have hneed := on_need (d := { d with pos := d.pos + alignPad n d.pos }) (n := n)
    (by dsimp only; omega)
  split_ifs at hneed ⊢ with hfits
  · rw [Stateful.on_bind_ok hneed]
    exact hx _ hfits hlen
  · rw [Stateful.on_bind_error hneed]

/-- A single byte needs no alignment. -/
lemma takes_of_body_one
    (hx : ∀ d : XcdrDecoder, d.pos + 1 ≤ d.buf.length → d.buf.length < 2 ^ 63 → x.on d =
      .ok (.ok (value (Bytes.slice d.buf d.pos (d.pos + 1))), { d with pos := d.pos + 1 })) :
    Takes (do need 1; x) 1 value := by
  intro d hd
  have hpad : alignPad 1 d.pos = 0 := Nat.mod_one _
  have h := takes_of_body Nat.one_pos (by decide) hx d hd
  rwa [Stateful.on_bind_ok (on_align (by have := hd.length_lt; have := hd.pos_le; omega)), hpad,
    Nat.add_zero] at h

lemma slice_one (h : d.pos + 1 ≤ d.buf.length) :
    Bytes.slice d.buf d.pos (d.pos + 1) = [Bytes.readU8 d.buf d.pos] := by
  rw [Bytes.slice, Nat.add_sub_cancel_left, drop_eq_readU8_cons h]
  rfl

lemma takes_readU8 : Takes readU8 1 (Bytes.readU8 · 0) := by
  refine takes_of_body_one fun d hfits hlen => ?_
  rw [Stateful.on_bind_ok Stateful.on_get, Stateful.on_bind_ok (Stateful.on_lift (index_eq hfits)),
    Stateful.on_bind_ok (on_advance (by omega)), Stateful.on_pure, slice_one hfits]
  rfl

lemma takes_readBool : Takes readBool 1 (Bytes.readU8 · 0 != 0) := by
  refine takes_of_body_one fun d hfits hlen => ?_
  rw [Stateful.on_bind_ok Stateful.on_get, Stateful.on_bind_ok (Stateful.on_lift (index_eq hfits)),
    Stateful.on_bind_ok (on_advance (by omega)), Stateful.on_pure, slice_one hfits]
  rfl

lemma takes_readPair : Takes readPair 2 (fun b => UInt16.ofNat (Bytes.toNatLE b)) := by
  refine takes_of_body Nat.two_pos (by decide) fun d hfits hlen => ?_
  rw [Stateful.on_bind_ok Stateful.on_get,
    Stateful.on_bind_ok (Stateful.on_lift (readU16_eq hfits)),
    Stateful.on_bind_ok (on_advance (by omega)), Stateful.on_pure]
  rfl

lemma takes_readArray (hn : 0 < n) (hn64 : n < 2 ^ 62) : Takes (readArray n) n id := by
  refine takes_of_body hn hn64 fun d hfits hlen => ?_
  have hcopy : (Bytes.slice d.buf d.pos (d.pos + n)).length = n := by
    rw [Bytes.length_slice]
    omega
  rw [Stateful.on_bind_ok Stateful.on_get,
    Stateful.on_bind_ok (Stateful.on_lift (slice_eq (Nat.le_add_right _ _) hfits)),
    Stateful.on_bind_ok (Stateful.on_lift (copy_eq hcopy)),
    Stateful.on_bind_ok (on_advance (by omega)), Stateful.on_pure]
  rfl

/-- The bytes behind a length are there, or the cursor stays where it is. -/
lemma on_readBody (hd : d.Inside) (hn : n < 2 ^ 62) : (readBody n).on d =
    .ok (if d.pos + n ≤ d.buf.length then
        (.ok (Bytes.slice d.buf d.pos (d.pos + n)), { d with pos := d.pos + n })
      else (.error (.truncated (d.pos + n) d.buf.length), d)) := by
  have hlen := hd.length_lt
  have hpos := hd.pos_le
  have hneed := on_need (d := d) (n := n) (by omega)
  rw [readBody]
  split_ifs at hneed ⊢ with hfits
  · rw [Stateful.on_bind_ok hneed, Stateful.on_bind_ok Stateful.on_get,
      Stateful.on_bind_ok (Stateful.on_lift (slice_eq (Nat.le_add_right _ _) hfits)),
      Stateful.on_bind_ok (on_advance (by omega)), Stateful.on_pure]
  · rw [Stateful.on_bind_error hneed]

end XcdrDecoder

end RustDds
