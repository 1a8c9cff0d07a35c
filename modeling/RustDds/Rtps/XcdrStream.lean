import RustDds.Lib.Run
import RustDds.Rtps.Xcdr

/-!
# Typed XCDR streams

A stream is any sequence of writes on one encoder, and of reads on one decoder.  Where a field
lies depends on everything before it, so the two are compared step by step: the invariant is
that the decoder's cursor stands where the encoder's buffer ended (`read_write`), and
`readAll_writeAll` is the round trip of a whole stream.
-/

namespace RustDds

open Checked

/-! ## Types and values -/

/-- A type of one field, without a length. -/
inductive XField
  | bool | u8 | i8 | char | i16 | u16 | i32 | u32 | i64 | u64 | f32 | f64
  deriving DecidableEq

/-- What a read asks for. -/
inductive XType
  | field (f : XField)
  | string
  | bytesSeq
  deriving DecidableEq

/-- What a write is given; floats by their bits. -/
inductive XValue
  | bool (v : Bool)
  | u8 (v : UInt8)
  | i8 (v : Int8)
  | char (v : Char)
  | i16 (v : Int16)
  | u16 (v : UInt16)
  | i32 (v : Int32)
  | u32 (v : UInt32)
  | i64 (v : Int64)
  | u64 (v : UInt64)
  | f32 (bits : UInt32)
  | f64 (bits : UInt64)
  | string (s : String)
  | bytesSeq (b : Bytes)
  deriving DecidableEq

/-- The type under which a value is read back. -/
def XValue.type : XValue → XType
  | .bool _ => .field .bool
  | .u8 _ => .field .u8
  | .i8 _ => .field .i8
  | .char _ => .field .char
  | .i16 _ => .field .i16
  | .u16 _ => .field .u16
  | .i32 _ => .field .i32
  | .u32 _ => .field .u32
  | .i64 _ => .field .i64
  | .u64 _ => .field .u64
  | .f32 _ => .field .f32
  | .f64 _ => .field .f64
  | .string _ => .string
  | .bytesSeq _ => .bytesSeq

/-- The values a stream carries: characters are ASCII, and lengths fit their prefix. -/
def XValue.Fits : XValue → Prop
  | .char v => v.toNat < 128
  | .string s => (Utf8.encode s).length < 2 ^ 32 - 1
  | .bytesSeq b => b.length < 2 ^ 32 - 1
  | _ => True

/-- The write method of a value's type. -/
def XcdrEncoder.write (enc : XcdrEncoder) : XValue → XcdrEncoder
  | .bool v => enc.writeBool v
  | .u8 v => enc.writeU8 v
  | .i8 v => enc.writeI8 v
  | .char v => enc.writeChar v
  | .i16 v => enc.writeI16 v
  | .u16 v => enc.writeU16 v
  | .i32 v => enc.writeI32 v
  | .u32 v => enc.writeU32 v
  | .i64 v => enc.writeI64 v
  | .u64 v => enc.writeU64 v
  | .f32 bits => enc.writeF32 bits
  | .f64 bits => enc.writeF64 bits
  | .string s => enc.writeString s
  | .bytesSeq b => enc.writeBytesSeq b

namespace XField

/-- The size of a field, which is also its alignment. -/
def width : XField → ℕ
  | .bool | .u8 | .i8 | .char => 1
  | .i16 | .u16 => 2
  | .i32 | .u32 | .f32 => 4
  | .i64 | .u64 | .f64 => 8

/-- The value that the bytes of a field stand for. -/
def value : XField → Bytes → XValue
  | .bool, b => .bool (Bytes.readU8 b 0 != 0)
  | .u8, b => .u8 (Bytes.readU8 b 0)
  | .i8, b => .i8 (Bytes.readU8 b 0).toInt8
  | .char, b => .char (if Bytes.readU8 b 0 < 128 then Char.ofNat (Bytes.readU8 b 0).toNat
      else Char.ofNat 0xFFFD)
  | .i16, b => .i16 (UInt16.ofNat (Bytes.toNatLE b)).toInt16
  | .u16, b => .u16 (UInt16.ofNat (Bytes.toNatLE b))
  | .i32, b => .i32 (UInt32.ofNat (Bytes.toNatLE b)).toInt32
  | .u32, b => .u32 (UInt32.ofNat (Bytes.toNatLE b))
  | .i64, b => .i64 (UInt64.ofNat (Bytes.toNatLE b)).toInt64
  | .u64, b => .u64 (UInt64.ofNat (Bytes.toNatLE b))
  | .f32, b => .f32 (UInt32.ofNat (Bytes.toNatLE b))
  | .f64, b => .f64 (UInt64.ofNat (Bytes.toNatLE b))

end XField

namespace XcdrDecoder

/-- The read method of a type. -/
def read : XType → Reading XValue
  | .field .bool => do let v ← readBool; return .bool v
  | .field .u8 => do let v ← readU8; return .u8 v
  | .field .i8 => do let v ← readI8; return .i8 v
  | .field .char => do let v ← readChar; return .char v
  | .field .i16 => do let v ← readI16; return .i16 v
  | .field .u16 => do let v ← readU16; return .u16 v
  | .field .i32 => do let v ← readI32; return .i32 v
  | .field .u32 => do let v ← readU32; return .u32 v
  | .field .i64 => do let v ← readI64; return .i64 v
  | .field .u64 => do let v ← readU64; return .u64 v
  | .field .f32 => do let v ← readF32; return .f32 v
  | .field .f64 => do let v ← readF64; return .f64 v
  | .string => do let v ← readString; return .string v
  | .bytesSeq => do let v ← readBytesSeq; return .bytesSeq v

/-! ## What a read does -/

lemma takes_readU32 : Takes readU32 4 (fun b => UInt32.ofNat (Bytes.toNatLE b)) :=
  (takes_readArray (by decide) (by decide)).map _

lemma takes_readU64 : Takes readU64 8 (fun b => UInt64.ofNat (Bytes.toNatLE b)) :=
  (takes_readArray (by decide) (by decide)).map _

/-- Every read of a field takes the field. -/
lemma takes_read (f : XField) : Takes (read (.field f)) f.width f.value := by
  cases f with
  | bool => exact takes_readBool.map XValue.bool
  | u8 => exact takes_readU8.map XValue.u8
  | i8 => exact (takes_readU8.map UInt8.toInt8).map XValue.i8
  | char => exact (takes_readU8.map _).map XValue.char
  | i16 => exact (takes_readPair.map UInt16.toInt16).map XValue.i16
  | u16 => exact takes_readPair.map XValue.u16
  | i32 => exact ((takes_readArray (by decide) (by decide)).map _).map XValue.i32
  | u32 => exact takes_readU32.map XValue.u32
  | i64 => exact ((takes_readArray (by decide) (by decide)).map _).map XValue.i64
  | u64 => exact takes_readU64.map XValue.u64
  | f32 => exact takes_readU32.map XValue.f32
  | f64 => exact takes_readU64.map XValue.f64

/-! ## Reading back what was written -/

variable {enc : XcdrEncoder} {n : ℕ} {b rest : Bytes} {v : XValue}

/-- The encoder's buffer, followed by `rest`, with the cursor where the buffer ends. -/
def behind (enc : XcdrEncoder) (rest : Bytes) : XcdrDecoder := ⟨enc.buf ++ rest, enc.buf.length⟩

lemma inside_behind (h : (enc.buf ++ rest).length < 2 ^ 63) : (behind enc rest).Inside where
  length_lt := h
  pos_le := by
    rw [behind, List.length_append]
    exact Nat.le_add_right _ _

/-- The decoder at an aligned field takes its bytes. -/
lemma field_align_push {α : Type} (value : Bytes → α) (hb : b.length = n) :
    field n value ⟨((enc.align n).push b).buf ++ rest, enc.buf.length⟩ =
      (.ok (value b), behind ((enc.align n).push b) rest) := by
  have hstart : (enc.align n).buf.length = enc.buf.length + alignPad n enc.buf.length := by
    rw [XcdrEncoder.align, XcdrEncoder.push, List.length_append, List.length_replicate]
  have hslice : Bytes.slice (((enc.align n).push b).buf ++ rest) (enc.align n).buf.length
      ((enc.align n).buf.length + n) = b := by
    rw [XcdrEncoder.push, List.append_assoc, Bytes.slice_append_right le_rfl, Nat.sub_self,
      Nat.add_sub_cancel_left, Bytes.slice_append_left hb]
  have hend : ((enc.align n).push b).buf.length = (enc.align n).buf.length + n := by
    rw [XcdrEncoder.push, List.length_append, hb]
  unfold field
  dsimp only
  rw [← hstart, ← hend, if_pos (by rw [List.length_append]; omega), hend, hslice, behind, hend]

/-- A field of one byte needs no padding. -/
lemma align_one (enc : XcdrEncoder) : enc.align 1 = enc := by
  have hpad : alignPad 1 enc.buf.length = 0 := Nat.mod_one _
  rw [XcdrEncoder.align, hpad, XcdrEncoder.push, List.replicate_zero, List.append_nil]

/-- Every field is written as its bytes, aligned to their number. -/
lemma write_field {f : XField} (hf : v.type = .field f) (hv : v.Fits) :
    ∃ b, b.length = f.width ∧ f.value b = v ∧ enc.write v = (enc.align f.width).push b := by
  cases v with
  | bool v =>
    obtain rfl : XField.bool = f := by simpa [XValue.type] using hf
    refine ⟨[if v then 1 else 0], rfl, ?_, by rw [XField.width, align_one]; rfl⟩
    cases v <;> rfl
  | u8 v =>
    obtain rfl : XField.u8 = f := by simpa [XValue.type] using hf
    exact ⟨[v], rfl, rfl, by rw [XField.width, align_one]; rfl⟩
  | i8 v =>
    obtain rfl : XField.i8 = f := by simpa [XValue.type] using hf
    refine ⟨[v.toUInt8], rfl, ?_, by rw [XField.width, align_one]; rfl⟩
    exact congrArg XValue.i8 v.toInt8_toUInt8
  | char v =>
    obtain rfl : XField.char = f := by simpa [XValue.type] using hf
    have hlow : (UInt8.ofNat v.toNat).toNat = v.toNat := by
      rw [UInt8.toNat_ofNat']
      exact Nat.mod_eq_of_lt (lt_trans hv (by decide))
    have hascii : UInt8.ofNat v.toNat < 128 := by
      rw [UInt8.lt_iff_toNat_lt, hlow]
      exact hv
    refine ⟨[UInt8.ofNat v.toNat], rfl, ?_, by rw [XField.width, align_one]; rfl⟩
    show XValue.char (if UInt8.ofNat v.toNat < 128 then Char.ofNat (UInt8.ofNat v.toNat).toNat
      else Char.ofNat 0xFFFD) = _
    rw [if_pos hascii, hlow, Char.ofNat_toNat]
  | i16 v =>
    obtain rfl : XField.i16 = f := by simpa [XValue.type] using hf
    refine ⟨_, Bytes.length_ofNatLE 2 _, ?_, rfl⟩
    rw [XField.value, Bytes.uint16_toNatLE, Int16.toInt16_toUInt16]
  | u16 v =>
    obtain rfl : XField.u16 = f := by simpa [XValue.type] using hf
    refine ⟨_, Bytes.length_ofNatLE 2 _, ?_, rfl⟩
    rw [XField.value, Bytes.uint16_toNatLE]
  | i32 v =>
    obtain rfl : XField.i32 = f := by simpa [XValue.type] using hf
    refine ⟨_, Bytes.length_ofNatLE 4 _, ?_, rfl⟩
    rw [XField.value, Bytes.uint32_toNatLE, Int32.toInt32_toUInt32]
  | u32 v =>
    obtain rfl : XField.u32 = f := by simpa [XValue.type] using hf
    refine ⟨_, Bytes.length_ofNatLE 4 _, ?_, rfl⟩
    rw [XField.value, Bytes.uint32_toNatLE]
  | i64 v =>
    obtain rfl : XField.i64 = f := by simpa [XValue.type] using hf
    refine ⟨_, Bytes.length_ofNatLE 8 _, ?_, rfl⟩
    rw [XField.value, Bytes.uint64_toNatLE, Int64.toInt64_toUInt64]
  | u64 v =>
    obtain rfl : XField.u64 = f := by simpa [XValue.type] using hf
    refine ⟨_, Bytes.length_ofNatLE 8 _, ?_, rfl⟩
    rw [XField.value, Bytes.uint64_toNatLE]
  | f32 bits =>
    obtain rfl : XField.f32 = f := by simpa [XValue.type] using hf
    refine ⟨_, Bytes.length_ofNatLE 4 _, ?_, rfl⟩
    rw [XField.value, Bytes.uint32_toNatLE]
  | f64 bits =>
    obtain rfl : XField.f64 = f := by simpa [XValue.type] using hf
    refine ⟨_, Bytes.length_ofNatLE 8 _, ?_, rfl⟩
    rw [XField.value, Bytes.uint64_toNatLE]
  | string s => simp [XValue.type] at hf
  | bytesSeq b => simp [XValue.type] at hf

lemma push_push (b b' : Bytes) : (enc.push b).push b' = enc.push (b ++ b') := by
  rw [XcdrEncoder.push, XcdrEncoder.push, XcdrEncoder.push, List.append_assoc]

/-- The cursor before an aligned field lies inside the buffer. -/
lemma inside_align_push (hlen : (((enc.align n).push b).buf ++ rest).length < 2 ^ 63) :
    Inside ⟨((enc.align n).push b).buf ++ rest, enc.buf.length⟩ := by
  refine ⟨hlen, ?_⟩
  simp only [XcdrEncoder.align, XcdrEncoder.push, List.length_append]
  omega

/-- The decoder at a length reads it. -/
lemma on_readU32_writeU32 {k : UInt32} (hlen : ((enc.writeU32 k).buf ++ rest).length < 2 ^ 63) :
    readU32.on ⟨(enc.writeU32 k).buf ++ rest, enc.buf.length⟩ =
      .ok (.ok k, behind (enc.writeU32 k) rest) := by
  unfold XcdrEncoder.writeU32 at hlen ⊢
  rw [takes_readU32 _ (inside_align_push hlen), field_align_push _ (Bytes.length_ofNatLE 4 k.toNat),
    Bytes.uint32_toNatLE]

/-- The decoder at a body reads it. -/
lemma on_readBody_push (hlen : ((enc.push b).buf ++ rest).length < 2 ^ 63)
    (hb : b.length < 2 ^ 62) :
    (readBody b.length).on (behind enc (b ++ rest)) = .ok (.ok b, behind (enc.push b) rest) := by
  have hbuf : enc.buf ++ (b ++ rest) = (enc.push b).buf ++ rest :=
    (List.append_assoc _ _ _).symm
  have hend : (enc.push b).buf.length = enc.buf.length + b.length := List.length_append
  have hslice : Bytes.slice (enc.buf ++ (b ++ rest)) enc.buf.length
      (enc.buf.length + b.length) = b := by
    rw [Bytes.slice_append_right le_rfl, Nat.sub_self, Nat.add_sub_cancel_left,
      Bytes.slice_append_left rfl]
  rw [on_readBody (inside_behind (by rwa [hbuf])) hb, behind]
  dsimp only
  rw [if_pos (by simp only [List.length_append]; omega), hslice, behind, hbuf, hend]

/-- The decoder at a length with its body: the length is read, and then the body can be. -/
lemma on_counted {k : UInt32} (hk : k.toNat = b.length)
    (hlen : (((enc.writeU32 k).push b).buf ++ rest).length < 2 ^ 63) {α : Type}
    (f : UInt32 → Reading α) :
    (readU32 >>= f).on ⟨((enc.writeU32 k).push b).buf ++ rest, enc.buf.length⟩ =
        (f k).on (behind (enc.writeU32 k) (b ++ rest)) ∧
      (readBody k.toNat).on (behind (enc.writeU32 k) (b ++ rest)) =
        .ok (.ok b, behind ((enc.writeU32 k).push b) rest) := by
  have hbody := on_readBody_push hlen (by have := k.toNat_lt; omega)
  have hbuf : ((enc.writeU32 k).push b).buf ++ rest = (enc.writeU32 k).buf ++ (b ++ rest) :=
    List.append_assoc _ _ _
  rw [hbuf] at hlen ⊢
  rw [hk]
  exact ⟨Stateful.on_bind_ok (on_readU32_writeU32 hlen) f, hbody⟩

/-- The length of a string, with its terminator, fits the prefix. -/
lemma toNat_length_string {s : String} (hs : (Utf8.encode s).length < 2 ^ 32 - 1) :
    (UInt32.ofNat ((Utf8.encode s).length + 1)).toNat = (Utf8.encode s ++ [0x00]).length := by
  rw [UInt32.toNat_ofNat', List.length_append, List.length_singleton]
  exact Nat.mod_eq_of_lt (by omega)

/-- **A value is read back**, and leaves the cursor where its write left the buffer. -/
lemma read_write (hv : v.Fits) (hlen : ((enc.write v).buf ++ rest).length < 2 ^ 63) :
    (read v.type).on ⟨(enc.write v).buf ++ rest, enc.buf.length⟩ =
      .ok (.ok v, behind (enc.write v) rest) := by
  cases hf : v.type with
  | field f =>
    obtain ⟨b, hb, hvalue, hwrite⟩ : ∃ b, b.length = f.width ∧ f.value b = v ∧
        enc.write v = (enc.align f.width).push b := write_field hf hv
    rw [hwrite] at hlen ⊢
    rw [takes_read f _ (inside_align_push hlen), field_align_push _ hb, hvalue]
  | string =>
    obtain ⟨s, rfl⟩ : ∃ s, v = .string s := by
      cases v <;> simp [XValue.type] at hf ⊢
    have hk := toNat_length_string (s := s) hv
    have hwrite : enc.write (.string s) =
        (enc.writeU32 (UInt32.ofNat ((Utf8.encode s).length + 1))).push
          (Utf8.encode s ++ [0x00]) := push_push _ _
    rw [hwrite] at hlen ⊢
    -- the terminator makes the length positive, and is dropped again
    have hne : (UInt32.ofNat ((Utf8.encode s).length + 1)).toNat ≠ 0 := by
      rw [hk, List.length_append, List.length_singleton]
      omega
    obtain ⟨hread, hbody⟩ := on_counted hk hlen fun n => if n.toNat = 0 then pure "" else do
      let raw ← readBody n.toNat
      pure (Utf8.lossy (if raw.getLast? = some 0 then raw.dropLast else raw))
    rw [if_neg hne, Stateful.on_bind_ok hbody, Stateful.on_pure, if_pos (by simp),
      List.dropLast_concat, Utf8.lossy_encode] at hread
    exact (Stateful.on_bind_ok hread _).trans (Stateful.on_pure _)
  | bytesSeq =>
    obtain ⟨b, rfl⟩ : ∃ b, v = .bytesSeq b := by
      cases v <;> simp [XValue.type] at hf ⊢
    have hb : b.length < 2 ^ 32 - 1 := hv
    have hk : (UInt32.ofNat b.length).toNat = b.length := by
      rw [UInt32.toNat_ofNat']
      exact Nat.mod_eq_of_lt (by omega)
    have hlen' : (((enc.writeU32 (UInt32.ofNat b.length)).push b).buf ++ rest).length < 2 ^ 63 :=
      hlen
    obtain ⟨hread, hbody⟩ := on_counted hk hlen' fun n => readBody n.toNat
    exact (Stateful.on_bind_ok (hread.trans hbody) _).trans (Stateful.on_pure _)

/-! ## A whole stream -/

/-- The decoder after a read; a decoder whose read faulted stays as it was. -/
def after (d : XcdrDecoder) (t : XType) : XcdrDecoder :=
  match (read t).on d with
  | .ok (_, d') => d'
  | .error _ => d

/-- What a sequence of reads yields, each with the cursor it leaves. -/
def readAll : XcdrDecoder → List XType → List (Checked (Except RtpsDecodeError XValue) × ℕ) :=
  Run.trace after fun d t => [(((read t).on d).map Prod.fst, (d.after t).pos)]

end XcdrDecoder

/-- The values of a sequence of writes, each with the length it leaves. -/
def XcdrEncoder.writeAll : XcdrEncoder → List XValue →
    List (Checked (Except RtpsDecodeError XValue) × ℕ) :=
  Run.trace XcdrEncoder.write fun enc v => [(.ok (.ok v), (enc.write v).len)]

/-- A write only adds to the buffer. -/
lemma XcdrEncoder.prefix_write (enc : XcdrEncoder) (v : XValue) :
    enc.buf <+: (enc.write v).buf := by
  have hpush : ∀ (e : XcdrEncoder) (b : Bytes), e.buf <+: (e.push b).buf :=
    fun e b => List.prefix_append _ _
  have halign : ∀ n, enc.buf <+: (enc.align n).buf := fun n => hpush enc _
  cases v with
  | bool v => exact hpush enc _
  | u8 v => exact hpush enc _
  | i8 v => exact hpush enc _
  | char v => exact hpush enc _
  | string s => exact (((halign 4).trans (hpush _ _)).trans (hpush _ _)).trans (hpush _ _)
  | bytesSeq b => exact ((halign 4).trans (hpush _ _)).trans (hpush _ _)
  | _ => exact (halign _).trans (hpush _ _)

lemma XcdrEncoder.prefix_foldl_write (vs : List XValue) (enc : XcdrEncoder) :
    enc.buf <+: (vs.foldl XcdrEncoder.write enc).buf := by
  induction vs generalizing enc with
  | nil => exact List.prefix_rfl
  | cons v vs ih => exact (enc.prefix_write v).trans (ih _)

/-- A decoder keeps step with an encoder that has `vs` ahead of it: its buffer is the one the
encoder will end with, and its cursor stands at the end of what is written so far. -/
structure InStep (vs : List XValue) (enc : XcdrEncoder) (d : XcdrDecoder) : Prop where
  fits : ∀ v ∈ vs, v.Fits
  buf_eq : d.buf = (vs.foldl XcdrEncoder.write enc).buf
  pos_eq : d.pos = enc.len
  length_lt : d.buf.length < 2 ^ 63

/-- One write and one read keep step. -/
lemma InStep.step {v : XValue} {vs : List XValue} {enc : XcdrEncoder} {d : XcdrDecoder}
    (h : InStep (v :: vs) enc d) :
    (XcdrDecoder.read v.type).on d = .ok (.ok v, d.after v.type) ∧
      InStep vs (enc.write v) (d.after v.type) := by
  obtain ⟨rest, hrest⟩ := XcdrEncoder.prefix_foldl_write vs (enc.write v)
  have hbuf : d.buf = (enc.write v).buf ++ rest := h.buf_eq.trans hrest.symm
  have hd : d = ⟨(enc.write v).buf ++ rest, enc.buf.length⟩ := by
    rw [← hbuf]
    exact congrArg (XcdrDecoder.mk d.buf) h.pos_eq
  have hlen : ((enc.write v).buf ++ rest).length < 2 ^ 63 := by
    rw [← hbuf]
    exact h.length_lt
  have hread := XcdrDecoder.read_write (h.fits v List.mem_cons_self) hlen
  rw [← hd] at hread
  have hafter : d.after v.type = XcdrDecoder.behind (enc.write v) rest := by
    rw [XcdrDecoder.after, hread]
  rw [hafter]
  exact ⟨hread, fun u hu => h.fits u (List.mem_cons_of_mem _ hu), hrest, rfl,
    (congrArg List.length hbuf.symm).trans_lt h.length_lt⟩

/-- **The round trip of a stream.**  A decoder over the buffer of any sequence of writes reads
the same values back under their types; after every read its cursor is the length the encoder
had after the write, and at the end no byte remains. -/
theorem XcdrDecoder.readAll_writeAll {vs : List XValue} (hfits : ∀ v ∈ vs, v.Fits)
    (hlen : (vs.foldl XcdrEncoder.write .new).len < 2 ^ 63) :
    ∃ d, XcdrDecoder.new (vs.foldl XcdrEncoder.write .new).buf = .ok d ∧
      d.pos = XcdrEncoder.new.len ∧
      d.readAll (vs.map XValue.type) = XcdrEncoder.new.writeAll vs ∧
      ((vs.map XValue.type).foldl XcdrDecoder.after d).remaining = .ok 0 := by
  obtain ⟨rest, hrest⟩ := XcdrEncoder.prefix_foldl_write vs .new
  have hhead : XcdrEncoder.new.buf.length = 4 := rfl
  have hnew : XcdrDecoder.new (vs.foldl XcdrEncoder.write .new).buf =
      .ok ⟨(vs.foldl XcdrEncoder.write .new).buf, XcdrEncoder.new.len⟩ := by
    have hscheme : Bytes.readU16 (XcdrEncoder.new.buf ++ rest) 0 = cdrLe := by
      rw [XcdrEncoder.new, List.append_assoc, Bytes.readU16_ofU16_append]
    rw [← hrest, XcdrDecoder.new, hscheme,
      if_neg (by rw [List.length_append, hhead, encapHeaderLen]; omega), if_neg (by simp)]
    rfl
  refine ⟨_, hnew, rfl, ?_⟩
  have hstart : InStep vs .new
      ⟨(vs.foldl XcdrEncoder.write .new).buf, XcdrEncoder.new.len⟩ := ⟨hfits, rfl, rfl, hlen⟩
  obtain ⟨htrace, hend⟩ := Run.trace_eq_of_rel (R := InStep)
    (g := fun d t => [(((XcdrDecoder.read t).on d).map Prod.fst, (d.after t).pos)])
    (fun v vs enc d h => by
      obtain ⟨hread, hnext⟩ := h.step
      refine ⟨?_, hnext⟩
      show [((.ok (.ok v), (enc.write v).len) : Checked (Except RtpsDecodeError XValue) × ℕ)] = _
      rw [hread, hnext.pos_eq]
      rfl) hstart
  refine ⟨htrace.symm, ?_⟩
  have hpos : _ = List.length _ := hend.pos_eq.trans (congrArg List.length hend.buf_eq.symm)
  rw [XcdrDecoder.remaining, if_pos hpos.le, hpos, Nat.sub_self]

/-- The theorem on a stream with an odd string before an eight-byte field. -/
theorem XcdrDecoder.readAll_writeAll_mixed :
    (∀ v ∈ [XValue.bool true, .string "odd", .u64 7, .char 'x', .i16 (-2), .bytesSeq [1, 2, 3]],
      v.Fits) ∧
    ∃ d, XcdrDecoder.new ([XValue.bool true, .string "odd", .u64 7, .char 'x', .i16 (-2),
        .bytesSeq [1, 2, 3]].foldl XcdrEncoder.write .new).buf = .ok d ∧
      d.pos = 4 ∧
      d.readAll [.field .bool, .string, .field .u64, .field .char, .field .i16, .bytesSeq] =
        [(.ok (.ok (.bool true)), 5), (.ok (.ok (.string "odd")), 16), (.ok (.ok (.u64 7)), 24),
          (.ok (.ok (.char 'x')), 25), (.ok (.ok (.i16 (-2))), 28),
          (.ok (.ok (.bytesSeq [1, 2, 3])), 35)] := by
  have hfits : ∀ v ∈ [XValue.bool true, .string "odd", .u64 7, .char 'x', .i16 (-2),
      .bytesSeq [1, 2, 3]], v.Fits := by
    simp [XValue.Fits]
    decide
  obtain ⟨d, hnew, hpos, hread, -⟩ := XcdrDecoder.readAll_writeAll hfits (by decide +kernel)
  refine ⟨hfits, d, hnew, hpos, hread.trans ?_⟩
  rfl

end RustDds
