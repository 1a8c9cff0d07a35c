import RustDds.Rtps.Cdr
import Mathlib.Data.List.Forall2

/-!
# Any parameter list

What a decoder makes of a parameter list that any sequence of `add` calls built, and of one with
padding parameters in it.

The length field of a parameter has 16 bits, and the encoder writes into it whatever fits: a
value of 65533 bytes or more is announced as shorter than it is.  `roundTrips_iff` is that this
is the only obstacle.

A padding parameter is skipped by its header alone, so that its content is read as parameters.
`transparent_iff` says which contents do no harm, in whatever list they stand: those whose every
word reads as the header of another padding parameter.
-/

namespace RustDds

/-- Read a guid parameter. -/
def decodeGuid (b : Bytes) : Except RtpsDecodeError Guid := Guid.decode b

/-! ## Lists that were built -/

/-- A call that adds a parameter. -/
inductive Addition
  | bytes (pid : UInt16) (v : Bytes)
  | u32 (pid : UInt16) (v : UInt32)
  | guid (pid : UInt16) (g : Guid)
  | locator (pid : UInt16) (loc : Locator)
  | string (pid : UInt16) (s : String)

namespace Addition

/-- The parameter id of the call. -/
def pid : Addition → UInt16
  | .bytes pid _ | .u32 pid _ | .guid pid _ | .locator pid _ | .string pid _ => pid

/-- The bytes that the call encodes its value as. -/
def value : Addition → Bytes
  | .bytes _ v => v
  | .u32 _ v => Bytes.ofU32 v
  | .guid _ g => g.encode
  | .locator _ loc => loc.encode
  | .string _ s => stringValue s

/-- The decoder of the value's type gives back the value that was added. -/
def ReadBack (v : Bytes) : Addition → Prop
  | .bytes _ _ | .u32 _ _ => True
  | .guid _ g => decodeGuid v = .ok g
  | .locator _ loc => Locator.decode v = .ok loc
  | .string _ s => decodeString v = .ok s

end Addition

/-- Make the call. -/
def PlCdrEncoder.add (enc : PlCdrEncoder) : Addition → PlCdrEncoder
  | .bytes pid v => enc.addBytes pid v
  | .u32 pid v => enc.addU32 pid v
  | .guid pid g => enc.addGuid pid g
  | .locator pid loc => enc.addLocator pid loc
  | .string pid s => enc.addString pid s

/-- The decoder yields the parameters that were added, in order, each with its padding, and the
decoders of their types read them back. -/
def RoundTrips (adds : List Addition) : Prop :=
  ∃ params, PlCdrDecoder.decodeParams (adds.foldl PlCdrEncoder.add .new).finish = some params ∧
    List.Forall₂ (fun a param => param.pid = a.pid ∧
      param.value = a.value ++ Param.padding a.value ∧ a.ReadBack param.value) adds params

/-- Every call adds one parameter to the list. -/
lemma finish_foldl_add (adds : List Addition) :
    (adds.foldl PlCdrEncoder.add .new).finish =
      Param.encodeList (adds.map fun a => ⟨a.pid, a.value⟩) := by
  have hadd : ∀ (enc : PlCdrEncoder) (a : Addition),
      (enc.add a).buf = enc.buf ++ Param.encode ⟨a.pid, a.value⟩ := by
    intro enc a
    cases a <;> exact enc.buf_addParam _ _
  have hfold : ∀ enc : PlCdrEncoder, (adds.foldl PlCdrEncoder.add enc).buf =
      enc.buf ++ (adds.map fun a => (⟨a.pid, a.value⟩ : Param)).flatMap Param.encode := by
    induction adds with
    | nil => exact fun enc => (List.append_nil _).symm
    | cons a adds ih =>
      intro enc
      rw [List.foldl_cons, ih, hadd, List.map_cons, List.flatMap_cons, List.append_assoc]
  rw [PlCdrEncoder.finish, hfold, Param.encodeList, sentinelBytes, List.append_assoc,
    List.append_assoc]

/-- Padding does not disturb the decoder of a value's type. -/
lemma Addition.readBack_pad {a : Addition} (hlen : a.value.length < 65533) :
    a.ReadBack (a.value ++ Param.padding a.value) := by
  -- guids and locators have a multiple of four bytes
  have hmul : a.value.length % 4 = 0 → a.value ++ Param.padding a.value = a.value := fun h =>
    congrArg Param.value (show Param.pad ⟨a.pid, a.value⟩ = _ from Param.pad_of_mod h)
  cases a with
  | bytes pid v => trivial
  | u32 pid v => trivial
  | guid pid g =>
    rw [hmul (by simp [Addition.value])]
    exact g.decode_encode
  | locator pid loc =>
    rw [hmul (by simp [Addition.value])]
    exact loc.decode_encode
  | string pid s =>
    have hs : (stringValue s).length < 65533 := hlen
    rw [length_stringValue] at hs
    exact decodeString_stringValue (by omega) _

/-- A decoder yields no value that is longer than the length field can say. -/
lemma PlCdrDecoder.length_lt_of_mem_toList {fuel : ℕ} {d : PlCdrDecoder} {param : Param}
    (h : param ∈ d.toList fuel) : param.value.length < 2 ^ 16 := by
  have hnext : ∀ {fuel : ℕ} {d d' : PlCdrDecoder} {p : Param},
      d.next fuel = (some p, d') → p.value.length < 2 ^ 16 := by
    intro fuel
    induction fuel with
    | zero => intro d d' p h; simp [next] at h
    | succ fuel ih =>
      intro d d' p h
      rw [next] at h
      dsimp only at h
      split_ifs at h
      · simp at h
      · simp at h
      · exact ih h
      · simp at h
      · simp only [Prod.mk.injEq, Option.some.injEq] at h
        have hlt := (Bytes.readU16 d.buf (d.pos + 2)).toNat_lt
        rw [← h.1, Bytes.length_slice]
        omega
  induction fuel generalizing d with
  | zero => simp [toList] at h
  | succ fuel ih =>
    rw [toList] at h
    split at h
    · rename_i p d' hp
      rcases List.mem_cons.mp h with rfl | htail
      · exact hnext hp
      · exact ih htail
    · simp at h

/-- What is read back fits the length field. -/
lemma RoundTrips.length_le {adds : List Addition} (h : RoundTrips adds) {a : Addition}
    (ha : a ∈ adds) : a.value.length ≤ 65532 := by
  obtain ⟨params, hdecode, hall⟩ := h
  obtain ⟨i, hi, rfl⟩ := List.getElem_of_mem ha
  have hi' : i < params.length := hall.length_eq ▸ hi
  obtain ⟨-, hvalue, -⟩ := hall.get hi hi'
  have hlist : params[i].value.length < 2 ^ 16 := by
    rw [PlCdrDecoder.decodeParams] at hdecode
    split at hdecode
    · cases hdecode
      exact PlCdrDecoder.length_lt_of_mem_toList (List.getElem_mem _)
    · simp at hdecode
  have hpad := Param.length_pad ⟨adds[i].pid, adds[i].value⟩
  rw [Param.pad] at hpad
  simp only [List.get_eq_getElem] at hvalue
  rw [hvalue] at hlist
  dsimp only at hpad
  omega

/-- **When a built list is read back**: exactly when every value fits the length field. -/
theorem roundTrips_iff {adds : List Addition}
    (hpids : ∀ a ∈ adds, a.pid ≠ pidPad ∧ a.pid ≠ pidSentinel) :
    RoundTrips adds ↔ ∀ a ∈ adds, a.value.length ≤ 65532 := by
  refine ⟨fun h a ha => h.length_le ha, fun hlen => ?_⟩
  have hplain : ∀ param ∈ adds.map fun a => (⟨a.pid, a.value⟩ : Param), param.Plain := by
    intro param hparam
    obtain ⟨a, ha, rfl⟩ := List.mem_map.mp hparam
    exact Param.plain_of_length (hpids a ha).2 (hpids a ha).1 (Nat.lt_succ_of_le (hlen a ha))
  refine ⟨(adds.map fun a => (⟨a.pid, a.value⟩ : Param)).map Param.pad, ?_, ?_⟩
  · rw [finish_foldl_add]
    exact PlCdrDecoder.decodeParams_encodeList hplain
  · rw [List.map_map, List.forall₂_map_right_iff, List.forall₂_same]
    intro a ha
    exact ⟨rfl, rfl, a.readBack_pad (Nat.lt_succ_of_le (hlen a ha))⟩

/-- The theorem on a list that holds a parameter of every kind. -/
theorem roundTrips_kinds :
    RoundTrips [.string 0x0005 "Square", .bytes 0x002C [1, 2, 3, 4, 5], .u32 0x0058 63,
      .guid 0x0050 ⟨.zero 12, entityIdParticipant⟩, .locator 0x0032 (.udpV4 (.zero 4) 7410)] :=
  (roundTrips_iff (by decide)).mpr (by decide +kernel)

/-- A value of 65536 bytes is announced with the length zero, and is not read back. -/
theorem exists_not_roundTrips :
    ∃ v : Bytes, v = List.replicate 65536 0xFF ∧
      UInt16.ofNat (Param.pad ⟨0x002C, v⟩).value.length = 0 ∧
      (∀ a ∈ [Addition.bytes 0x002C v], a.pid ≠ pidPad ∧ a.pid ≠ pidSentinel) ∧
      ¬ RoundTrips [.bytes 0x002C v] := by
  obtain ⟨v, hv⟩ : ∃ v : Bytes, v = List.replicate 65536 0xFF := ⟨_, rfl⟩
  have hlen : v.length = 65536 := by rw [hv, List.length_replicate]
  refine ⟨v, hv, ?_, ?_, fun h => ?_⟩
  · rw [Param.length_pad]
    dsimp only
    rw [hlen]
    decide
  · intro a ha
    rw [List.mem_singleton.mp ha]
    constructor
    · show (0x002C : UInt16) ≠ pidPad
      decide
    · show (0x002C : UInt16) ≠ pidSentinel
      decide
  · have hle : v.length ≤ 65532 := h.length_le List.mem_cons_self
    omega

/-! ## Padding parameters -/

/-- The content of a padding parameter: whole words, as many as its length field can say. -/
structure PadContent where
  bytes : Bytes
  length_mod : bytes.length % 4 = 0
  length_lt : bytes.length < 2 ^ 16

/-- What a parameter list consists of. -/
inductive Item
  | param (p : Param)
  | pad (content : PadContent)

namespace Item

/-- The item on the wire: a padding parameter is a header with the length of its content. -/
def encode : Item → Bytes
  | .param p => p.encode
  | .pad content => Bytes.ofU16 pidPad ++
      (Bytes.ofU16 (UInt16.ofNat content.bytes.length) ++ content.bytes)

/-- The parameter, if it is not padding. -/
def param? : Item → Option Param
  | .param p => some p
  | .pad _ => none

/-- A parameter list with padding on the wire. -/
def encodeList (items : List Item) : Bytes :=
  PlCdrEncoder.new.buf ++ (items.flatMap encode ++ sentinelBytes)

end Item

/-- The id of the first word that is not the header of a padding parameter, if there is one. -/
def firstPid : Bytes → Option UInt16
  | b₀ :: b₁ :: _ :: _ :: rest =>
    if Bytes.readU16 [b₀, b₁] 0 = pidPad then firstPid rest else some (Bytes.readU16 [b₀, b₁] 0)
  | _ => none

/-- Every word of the content reads as the header of a padding parameter. -/
def PadContent.Blank (content : PadContent) : Prop := firstPid content.bytes = none

namespace PlCdrDecoder

/-- A loop over the decoder does not see the header of a padding parameter. -/
lemma toList_pad_word (fuel : ℕ) {buf : Bytes} {pos : ℕ} (hlen : pos + 4 ≤ buf.length)
    (hpid : Bytes.readU16 buf pos = pidPad) :
    toList fuel ⟨buf, pos⟩ = toList fuel ⟨buf, pos + 4⟩ := by
  obtain ⟨n, hn⟩ : ∃ n, buf.length = n + 1 := ⟨buf.length - 1, by omega⟩
  have hnext : next (n + 1) ⟨buf, pos⟩ = next (n + 1) ⟨buf, pos + 4⟩ := by
    rw [next]
    dsimp only
    rw [if_neg (by omega), hpid, if_neg (by decide), if_pos rfl]
    exact next_of_le (by dsimp only; omega) (by dsimp only; omega)
  cases fuel with
  | zero => rfl
  | succ fuel =>
    rw [toList, toList]
    dsimp only
    rw [hn, hnext]

/-- What a loop over the decoder sees first has the id of the word at its cursor. -/
lemma pid_of_head?_toList {fuel : ℕ} {buf : Bytes} {pos : ℕ} {param : Param}
    (hpid : Bytes.readU16 buf pos ≠ pidPad)
    (h : (toList fuel ⟨buf, pos⟩).head? = some param) : param.pid = Bytes.readU16 buf pos := by
  cases fuel with
  | zero => simp [toList] at h
  | succ fuel =>
    rw [toList] at h
    rcases hlen : buf.length with _ | n
    · simp [hlen, next] at h
    · dsimp only at h
      rw [hlen, next] at h
      dsimp only at h
      rw [if_neg hpid] at h
      split_ifs at h
      · simp at h
      · simp at h
      · simp at h
      · rw [List.head?_cons, Option.some.injEq] at h
        rw [← h]

/-- The word at the start of a content. -/
lemma readU16_content (before rest after : Bytes) (b₀ b₁ b₂ b₃ : UInt8) :
    Bytes.readU16 (before ++ ((b₀ :: b₁ :: b₂ :: b₃ :: rest) ++ after)) before.length =
      Bytes.readU16 [b₀, b₁] 0 := by
  rw [Bytes.readU16_append_right le_rfl, Nat.sub_self]
  rfl

/-- A loop over the decoder does not see a blank content. -/
lemma toList_blank (fuel : ℕ) {c : Bytes} (hmod : c.length % 4 = 0) (hblank : firstPid c = none)
    (before after : Bytes) : toList fuel ⟨before ++ (c ++ after), before.length⟩ =
      toList fuel ⟨before ++ (c ++ after), (before ++ c).length⟩ := by
  fun_induction firstPid c generalizing before with
  | case1 b₀ b₁ b₂ b₃ rest hpid ih =>
    have hlen : before.length + 4 ≤
        (before ++ ((b₀ :: b₁ :: b₂ :: b₃ :: rest) ++ after)).length := by
      simp only [List.length_append, List.length_cons]
      omega
    have hword := toList_pad_word fuel hlen ((readU16_content before rest after b₀ b₁ b₂ b₃).trans
      hpid)
    have hrest := ih (by simp only [List.length_cons] at hmod; omega) hblank
      (before ++ [b₀, b₁, b₂, b₃])
    have hbuf : before ++ [b₀, b₁, b₂, b₃] ++ (rest ++ after) =
        before ++ ((b₀ :: b₁ :: b₂ :: b₃ :: rest) ++ after) := by simp
    have hend : before ++ [b₀, b₁, b₂, b₃] ++ rest = before ++ (b₀ :: b₁ :: b₂ :: b₃ :: rest) := by
      simp
    rw [hbuf, hend, List.length_append] at hrest
    exact hword.trans hrest
  | case2 => simp at hblank
  | case3 c hshort =>
    -- fewer than four bytes and a multiple of four
    have hnil : c = [] := by
      match c, hshort, hmod with
      | [], _, _ => rfl
      | [_], _, hmod => simp at hmod
      | [_, _], _, hmod => simp at hmod
      | [_, _, _], _, hmod => simp at hmod
      | b₀ :: b₁ :: b₂ :: b₃ :: rest, hshort, _ => exact absurd rfl (hshort b₀ b₁ b₂ b₃ rest)
    rw [hnil, List.append_nil]

/-- At a content that is not blank, a loop over the decoder sees a parameter with the id of its
first other word, or nothing more. -/
lemma pid_of_firstPid {fuel : ℕ} {c : Bytes} {q : UInt16} (hq : firstPid c = some q)
    (before after : Bytes) {param : Param}
    (h : (toList fuel ⟨before ++ (c ++ after), before.length⟩).head? = some param) :
    param.pid = q := by
  fun_induction firstPid c generalizing before with
  | case1 b₀ b₁ b₂ b₃ rest hpid ih =>
    have hlen : before.length + 4 ≤
        (before ++ ((b₀ :: b₁ :: b₂ :: b₃ :: rest) ++ after)).length := by
      simp only [List.length_append, List.length_cons]
      omega
    rw [toList_pad_word fuel hlen ((readU16_content before rest after b₀ b₁ b₂ b₃).trans hpid)] at h
    apply ih hq (before ++ [b₀, b₁, b₂, b₃])
    rw [List.length_append]
    simpa using h
  | case2 b₀ b₁ b₂ b₃ rest hpid =>
    have hword := readU16_content before rest after b₀ b₁ b₂ b₃
    rw [pid_of_head?_toList (by rw [hword]; exact hpid) h, hword]
    exact Option.some.inj hq
  | case3 => simp at hq

/-- A loop over the decoder does not see the header of a padding parameter, whatever its
length. -/
lemma toList_pad_header (fuel : ℕ) (content : PadContent) (before after : Bytes) :
    toList fuel ⟨before ++ ((Item.pad content).encode ++ after), before.length⟩ =
      toList fuel ⟨(before ++ (Bytes.ofU16 pidPad ++
        Bytes.ofU16 (UInt16.ofNat content.bytes.length))) ++ (content.bytes ++ after),
        (before ++ (Bytes.ofU16 pidPad ++
          Bytes.ofU16 (UInt16.ofNat content.bytes.length))).length⟩ := by
  have hbuf : before ++ ((Item.pad content).encode ++ after) = (before ++ (Bytes.ofU16 pidPad ++
      Bytes.ofU16 (UInt16.ofNat content.bytes.length))) ++ (content.bytes ++ after) := by
    simp only [Item.encode, List.append_assoc]
  have hpid : Bytes.readU16 (before ++ ((Item.pad content).encode ++ after)) before.length =
      pidPad := by
    rw [Bytes.readU16_append_right le_rfl, Nat.sub_self, Item.encode, List.append_assoc,
      Bytes.readU16_ofU16_append]
  have hend : (before ++ (Bytes.ofU16 pidPad ++
      Bytes.ofU16 (UInt16.ofNat content.bytes.length))).length = before.length + 4 := by
    simp only [List.length_append, Bytes.length_ofU16]
  rw [toList_pad_word fuel (by rw [hbuf, List.length_append, hend]; omega) hpid, hbuf, hend]

/-- What a loop over the decoder sees of a list with padding still ahead of it, if all of the
padding is blank. -/
lemma toList_items {items : List Item} (hplain : ∀ p, .param p ∈ items → p.Plain)
    (hblank : ∀ c, .pad c ∈ items → c.Blank) (before : Bytes) {fuel : ℕ}
    (hfuel : items.length < fuel) :
    toList fuel ⟨before ++ (items.flatMap Item.encode ++ sentinelBytes), before.length⟩ =
      (items.filterMap Item.param?).map Param.pad := by
  induction items generalizing before fuel with
  | nil => exact toList_sentinel fuel before
  | cons item items ih =>
    rw [List.length_cons] at hfuel
    obtain ⟨fuel, rfl⟩ : ∃ f, fuel = f + 1 := ⟨fuel - 1, by omega⟩
    have ih := fun before {fuel} => @ih (fun p hp => hplain p (List.mem_cons_of_mem _ hp))
      (fun c hc => hblank c (List.mem_cons_of_mem _ hc)) before fuel
    rw [List.flatMap_cons, List.append_assoc]
    cases item with
    | param p =>
      show toList (fuel + 1) ⟨before ++ (p.encode ++ _), before.length⟩ = p.pad :: _
      rw [toList_encode_append (hplain p List.mem_cons_self), ← List.append_assoc before,
        ih _ (by omega)]
    | pad content =>
      show _ = (items.filterMap Item.param?).map Param.pad
      rw [toList_pad_header, toList_blank _ content.length_mod (hblank content List.mem_cons_self),
        ← List.append_assoc _ content.bytes, ih _ (by omega)]

end PlCdrDecoder

/-- The parameters of a list with padding, as a decoder yields them. -/
lemma Item.decodeParams_encodeList (items : List Item) :
    ∃ fuel, items.length < fuel ∧ PlCdrDecoder.decodeParams (encodeList items) =
      some (PlCdrDecoder.toList fuel ⟨PlCdrEncoder.new.buf ++
        (items.flatMap encode ++ sentinelBytes), PlCdrEncoder.new.buf.length⟩) := by
  have hscheme : Bytes.readU16 (encodeList items) 0 = plCdrLe := by
    rw [encodeList, PlCdrEncoder.new, List.append_assoc, Bytes.readU16_ofU16_append]
  have hlen : items.length + 4 < (encodeList items).length := by
    have hle : items.length ≤ (items.flatMap encode).length := by
      clear hscheme
      induction items with
      | nil => exact le_rfl
      | cons item items ih =>
        have hone : 1 ≤ item.encode.length := by
          cases item with
          | param p =>
            show 1 ≤ p.encode.length
            rw [Param.length_encode]
            omega
          | pad content =>
            simp only [encode, List.length_append, Bytes.length_ofU16]
            omega
        rw [List.flatMap_cons, List.length_append, List.length_cons]
        omega
    rw [encodeList, List.length_append, List.length_append, length_sentinelBytes,
      PlCdrEncoder.length_buf_new]
    omega
  refine ⟨(encodeList items).length, by omega, ?_⟩
  rw [PlCdrDecoder.decodeParams, PlCdrDecoder.new, if_neg (by omega), hscheme, if_neg (by simp)]
  rfl

/-- A parameter list with padding yields what it yields without. -/
def Transparent (items : List Item) : Prop :=
  PlCdrDecoder.decodeParams (Item.encodeList items) =
    PlCdrDecoder.decodeParams (Param.encodeList (items.filterMap Item.param?))

/-- **When padding is transparent.**  Padding with contents of some kind is transparent in every
well-formed list and at every place of it exactly when all contents of the kind are blank. -/
theorem transparent_iff (kind : PadContent → Prop) :
    (∀ items : List Item, (∀ p, .param p ∈ items → p.Plain) → (∀ c, .pad c ∈ items → kind c) →
      Transparent items) ↔ ∀ c, kind c → c.Blank := by
  constructor
  · intro h c hkind
    by_contra hblank
    obtain ⟨q, hq⟩ := Option.ne_none_iff_exists'.mp hblank
    -- a parameter of another id behind the content is hidden by it
    let p : Param := ⟨if q = 2 then 3 else 2, []⟩
    have hpid : p.pid ≠ q := by
      show (if q = 2 then 3 else 2) ≠ q
      split_ifs with hq2
      · rw [hq2]
        decide
      · exact Ne.symm hq2
    have hplain : p.Plain := by
      refine Param.plain_of_length ?_ ?_ (by decide)
      · show (if q = 2 then 3 else 2) ≠ pidSentinel
        split_ifs <;> decide
      · show (if q = 2 then 3 else 2) ≠ pidPad
        split_ifs <;> decide
    have htransparent := h [.pad c, .param p] (by simpa using hplain) (by simpa using hkind)
    obtain ⟨fuel, -, hdecode⟩ := Item.decodeParams_encodeList [.pad c, .param p]
    have hwithout : PlCdrDecoder.decodeParams (Param.encodeList
        ([Item.pad c, .param p].filterMap Item.param?)) = some [p.pad] :=
      PlCdrDecoder.decodeParams_encodeList
        (show ∀ param ∈ [p], param.Plain by simpa using hplain)
    rw [Transparent, hdecode, hwithout, Option.some.injEq, List.flatMap_cons, List.append_assoc,
      PlCdrDecoder.toList_pad_header] at htransparent
    have hhead : p.pad.pid = q :=
      PlCdrDecoder.pid_of_firstPid hq _ _ (congrArg List.head? htransparent)
    exact hpid hhead
  · intro hkind items hplain hpads
    obtain ⟨fuel, hfuel, hdecode⟩ := Item.decodeParams_encodeList items
    have hparams : ∀ p ∈ items.filterMap Item.param?, p.Plain := by
      intro p hp
      obtain ⟨item, hmem, hitem⟩ := List.mem_filterMap.mp hp
      cases item with
      | param p' =>
        cases hitem
        exact hplain p hmem
      | pad c => simp [Item.param?] at hitem
    rw [Transparent, hdecode, PlCdrDecoder.decodeParams_encodeList hparams,
      PlCdrDecoder.toList_items hplain (fun c hc => hkind c (hpads c hc)) _ hfuel]

/-- A padding parameter whose content reads as a sentinel hides the parameter behind it. -/
theorem exists_not_transparent :
    (∀ p, .param p ∈ [Item.pad ⟨[0x01, 0x00, 0x00, 0x00], rfl, by decide⟩,
        .param ⟨pidTopicName, [0x41, 0x42, 0x43, 0x44]⟩] → p.Plain) ∧
      PlCdrDecoder.decodeParams (Item.encodeList
        [.pad ⟨[0x01, 0x00, 0x00, 0x00], rfl, by decide⟩,
          .param ⟨pidTopicName, [0x41, 0x42, 0x43, 0x44]⟩]) = some [] ∧
      ¬ Transparent [.pad ⟨[0x01, 0x00, 0x00, 0x00], rfl, by decide⟩,
        .param ⟨pidTopicName, [0x41, 0x42, 0x43, 0x44]⟩] := by
  have hplain : (⟨pidTopicName, [0x41, 0x42, 0x43, 0x44]⟩ : Param).Plain :=
    Param.plain_of_length (by decide) (by decide) (by decide)
  refine ⟨by simpa using hplain, by decide +kernel, ?_⟩
  rw [Transparent]
  decide +kernel

end RustDds
