import RustDds.Rtps.Arrival

/-!
# DATA with inline QoS

A DATA submessage may carry, between its fixed fields and its payload, a parameter list that its
Q flag announces.  The decoder looks at the D flag alone: what it takes for the payload starts
with the inline list, if there is one.

Unwrapping the payload then reads the first parameter id as an encapsulation scheme.  Nearly
every id is refused there, and the sample is dropped.  `honoured_iff` says for every submessage
when the flags are honoured: unless the id happens to be the number of a scheme, as that of the
sentinel is, which an empty list starts with.
-/

namespace RustDds

/-- A DATA submessage as it is laid out: fixed fields, then with the Q flag an inline parameter
list, then with the D flag a payload behind its encapsulation header. -/
structure DataLayout where
  flags : UInt8
  writer : EntityId
  reader : EntityId
  seqNum : SequenceNumber
  inlineQos : List Param
  scheme : UInt16
  options : UInt16
  content : Bytes
  /-- Only the end of the list reads as its sentinel. -/
  ne_sentinel : ∀ param ∈ inlineQos, param.pid ≠ pidSentinel

namespace DataLayout

/-- The Q flag is set. -/
def HasInlineQos (l : DataLayout) : Prop := l.flags &&& flagInlineQos ≠ 0

/-- The D flag is set. -/
def HasData (l : DataLayout) : Prop := l.flags &&& flagData ≠ 0

instance (l : DataLayout) : Decidable l.HasInlineQos := inferInstanceAs (Decidable (_ ≠ _))

instance (l : DataLayout) : Decidable l.HasData := inferInstanceAs (Decidable (_ ≠ _))

/-- The inline parameter list, closed by its sentinel. -/
def inlineBytes (l : DataLayout) : Bytes :=
  if l.HasInlineQos then l.inlineQos.flatMap Param.encode ++ sentinelBytes else []

/-- The serialised payload. -/
def payloadBytes (l : DataLayout) : Bytes :=
  if l.HasData then Bytes.ofU16 l.scheme ++ (Bytes.ofU16 l.options ++ l.content) else []

/-- The submessage. -/
def raw (l : DataLayout) : RawSubmessage :=
  ⟨submsgData, l.flags, dataBody l.writer l.reader l.seqNum (l.inlineBytes ++ l.payloadBytes)⟩

/-- The flags are honoured: a sample that the submessage brings is what stands behind the
encapsulation header of its payload. -/
def Honoured (l : DataLayout) : Prop :=
  ∀ guidPrefix x, dataSample guidPrefix l.raw = some x → l.HasData ∧ x.payload = l.content

/-- The inline list of a submessage with both flags starts with the number of a scheme: with
its sentinel, which has that of `CDR_LE`, or with the id that `PL_CDR_LE` has. -/
def ReadsAsScheme (l : DataLayout) : Prop :=
  l.HasInlineQos ∧ l.HasData ∧ ∀ param ∈ l.inlineQos.head?, param.pid = plCdrLe

variable {l : DataLayout} {guidPrefix : GuidPrefix}

/-- Without the D flag there is no sample. -/
lemma dataSample_of_not_hasData (h : ¬ l.HasData) : dataSample guidPrefix l.raw = none := by
  rw [dataSample, raw, decodeDataSubmessage_flags, if_neg (fun hand => h hand.1)]

/-- With it, the sample is what unwraps from all that follows the fixed fields. -/
lemma dataSample_of_hasData (h : l.HasData) : dataSample guidPrefix l.raw =
    (unwrapPayload (l.inlineBytes ++ l.payloadBytes)).toOption.map fun b =>
      ⟨.data, ⟨guidPrefix, l.writer⟩, b, l.seqNum.toU64⟩ := by
  have hne : l.inlineBytes ++ l.payloadBytes ≠ [] := by
    intro hnil
    have hlen := congrArg List.length hnil
    rw [payloadBytes, if_pos h] at hlen
    simp at hlen
  rw [dataSample, raw, decodeDataSubmessage_flags, if_pos ⟨h, hne⟩]
  dsimp only
  cases unwrapPayload (l.inlineBytes ++ l.payloadBytes) <;> rfl

/-- Unwrapping goes by the first two bytes. -/
lemma unwrapPayload_ofU16 (scheme : UInt16) {b : Bytes} (hb : 2 ≤ b.length) :
    unwrapPayload (Bytes.ofU16 scheme ++ b) =
      if scheme ≠ cdrLe ∧ scheme ≠ plCdrLe then .error (.invalidCdrScheme scheme)
      else .ok (b.drop 2) := by
  rw [unwrapPayload, if_neg (by rw [List.length_append, Bytes.length_ofU16]; omega),
    Bytes.readU16_ofU16_append, Bytes.drop_append_right (by simp), Bytes.length_ofU16]

/-- The inline list starts with the id of its first parameter, or with the sentinel. -/
lemma inlineBytes_eq (h : l.HasInlineQos) :
    ∃ b, 2 ≤ b.length ∧ l.inlineBytes =
      Bytes.ofU16 ((l.inlineQos.head?.map Param.pid).getD pidSentinel) ++ b := by
  rw [inlineBytes, if_pos h]
  cases l.inlineQos with
  | nil => exact ⟨[0x00, 0x00], le_rfl, rfl⟩
  | cons param params =>
    refine ⟨Bytes.ofU16 (UInt16.ofNat param.pad.value.length) ++ param.pad.value ++
      (params.flatMap Param.encode ++ sentinelBytes), ?_, ?_⟩
    · simp only [List.length_append, Bytes.length_ofU16]
      omega
    · rw [List.flatMap_cons, Param.encode, List.append_assoc, List.append_assoc]
      rfl

/-- Among the ids a list can start with, those of `ReadsAsScheme` are the schemes. -/
lemma readsAsScheme_iff (hq : l.HasInlineQos) (hd : l.HasData) : l.ReadsAsScheme ↔
    ¬ ((l.inlineQos.head?.map Param.pid).getD pidSentinel ≠ cdrLe ∧
      (l.inlineQos.head?.map Param.pid).getD pidSentinel ≠ plCdrLe) := by
  rw [ReadsAsScheme, and_iff_right hq, and_iff_right hd]
  cases hlist : l.inlineQos with
  | nil => simp [pidSentinel, cdrLe]
  | cons param params =>
    have hne : param.pid ≠ cdrLe := l.ne_sentinel param (by rw [hlist]; exact List.mem_cons_self)
    simp [hne]

/-- **When the flags are honoured**: exactly when the inline list, if there is one before a
payload, does not start with the number of a scheme. -/
theorem honoured_iff (l : DataLayout) : l.Honoured ↔ ¬ l.ReadsAsScheme := by
  by_cases hd : l.HasData
  swap
  · refine iff_of_true (fun guidPrefix x hx => ?_) fun h => hd h.2.1
    rw [dataSample_of_not_hasData hd] at hx
    exact absurd hx (by simp)
  have hpayload : l.payloadBytes = Bytes.ofU16 l.scheme ++ (Bytes.ofU16 l.options ++ l.content) :=
    if_pos hd
  by_cases hq : l.HasInlineQos
  · obtain ⟨b, hb, hinline⟩ := inlineBytes_eq hq
    rw [readsAsScheme_iff hq hd, not_not]
    have hsample : ∀ guidPrefix, dataSample guidPrefix l.raw = _ :=
      fun _ => dataSample_of_hasData hd
    rw [hinline, List.append_assoc,
      unwrapPayload_ofU16 _ (by rw [List.length_append]; omega)] at hsample
    constructor
    · -- an accepted scheme brings the rest of the list, which is longer than the content
      intro h
      by_contra hscheme
      rw [if_neg hscheme] at hsample
      have hcontent := (h (.zero 12) _ (hsample _)).2
      have hlen := congrArg List.length hcontent
      rw [List.length_drop, List.length_append, hpayload, List.length_append,
        List.length_append, Bytes.length_ofU16, Bytes.length_ofU16] at hlen
      omega
    · intro hscheme guidPrefix x hx
      rw [hsample, if_pos hscheme] at hx
      exact absurd hx (by simp [Except.toOption])
  · refine iff_of_true (fun guidPrefix x hx => ⟨hd, ?_⟩) fun h => hq h.1
    have hinline : l.inlineBytes = [] := if_neg hq
    rw [dataSample_of_hasData hd, hinline, List.nil_append, hpayload,
      unwrapPayload_ofU16 _ (by simp)] at hx
    split_ifs at hx
    · exact absurd hx (by simp [Except.toOption])
    · rw [Bytes.drop_append_right (by simp), Bytes.length_ofU16] at hx
      obtain rfl : _ = x := Option.some.inj hx
      rfl

/-- An empty inline list before the payload `AB`: the reader is given the payload with its
encapsulation header. -/
theorem exists_not_honoured :
    ∃ l : DataLayout, l.flags = 0x07 ∧ l.inlineQos = [] ∧ l.content = [0x41, 0x42] ∧
      dataSample (.zero 12) l.raw = some ⟨.data, ⟨.zero 12, entityIdForWriter 1⟩,
        [0x01, 0x00, 0x00, 0x00, 0x41, 0x42], 1⟩ ∧ ¬ l.Honoured := by
  let l : DataLayout :=
    { flags := 0x07, writer := entityIdForWriter 1, reader := entityIdUnknown, seqNum := ⟨0, 1⟩,
      inlineQos := [], scheme := cdrLe, options := 0, content := [0x41, 0x42],
      ne_sentinel := by simp }
  have hsample : dataSample (.zero 12) l.raw = some ⟨.data, ⟨.zero 12, entityIdForWriter 1⟩,
      [0x01, 0x00, 0x00, 0x00, 0x41, 0x42], 1⟩ := by decide +kernel
  refine ⟨l, rfl, rfl, rfl, hsample, fun h => ?_⟩
  exact absurd (h _ _ hsample).2 (by decide)

end DataLayout

end RustDds
