import RustDds.Lib.Bytes

/-!
# Identifiers

`GuidPrefix` names a participant, `EntityId` an endpoint within it, and `Guid` is the pair:
twelve bytes, four bytes, and their concatenation on the wire.  The three fixed-size byte
types of the protocol share one decoder, `decodeFixed`, which rejects short input and ignores
what follows.

`RtpsDecodeError` is the error of every decoder in the RTPS modules.
-/

namespace RustDds

/-- Decode error for RTPS wire types. -/
inductive RtpsDecodeError
  /-- Input shorter than the fixed wire size of the type. -/
  | truncated (expected got : ℕ)
  /-- The message did not start with `"RTPS"`. -/
  | badMagic
  /-- Unrecognised CDR encapsulation scheme. -/
  | invalidCdrScheme (got : UInt16)
  deriving DecidableEq, Repr

/-! ## Fixed-size byte types -/

/-- The decoder the fixed-size byte types share: the first `n` bytes of `buf`. -/
def decodeFixed (n : ℕ) (buf : Bytes) : Except RtpsDecodeError (FixedBytes n) :=
  if h : buf.length < n then .error (.truncated n buf.length)
  else .ok ⟨buf.take n, by rw [List.length_take]; omega⟩

@[simp] lemma decodeFixed_bytes {n : ℕ} (a : FixedBytes n) : decodeFixed n a.bytes = .ok a := by
  have hlen : ¬ a.bytes.length < n := by simp
  rw [decodeFixed, dif_neg hlen]
  congr 1
  ext1
  exact List.take_of_length_le (le_of_eq a.length_eq)

/-- 12-byte participant identifier. -/
abbrev GuidPrefix := FixedBytes 12

namespace GuidPrefix

/-- The 12-byte wire encoding. -/
def encode (p : GuidPrefix) : Bytes := p.bytes

/-- The first 12 bytes of `buf`. -/
def decode (buf : Bytes) : Except RtpsDecodeError GuidPrefix := decodeFixed 12 buf

lemma length_replicate (n : UInt8) : (List.replicate 12 n).length = 12 := List.length_replicate

end GuidPrefix

/-- Identifies an endpoint within a participant. -/
abbrev EntityId := FixedBytes 4

namespace EntityId

/-- The 4-byte wire encoding. -/
def encode (e : EntityId) : Bytes := e.bytes

/-- The first 4 bytes of `buf`. -/
def decode (buf : Bytes) : Except RtpsDecodeError EntityId := decodeFixed 4 buf

@[simp] lemma length_encode (e : EntityId) : e.encode.length = 4 := e.length_eq

@[simp] lemma decode_encode (e : EntityId) : decode e.encode = .ok e := decodeFixed_bytes e

end EntityId

/-! ## Well-known entities -/

/-- `ENTITYID_PARTICIPANT`. -/
def entityIdParticipant : EntityId := ⟨[0x00, 0x00, 0x01, 0xC1], rfl⟩

/-- `ENTITYID_SPDP_WRITER`. -/
def entityIdSpdpWriter : EntityId := ⟨[0x00, 0x01, 0x00, 0xC2], rfl⟩

/-- The builtin SPDP reader. -/
def entityIdSpdpReader : EntityId := ⟨[0x00, 0x01, 0x00, 0xC7], rfl⟩

/-- The builtin SEDP publications writer. -/
def entityIdSedpPubWriter : EntityId := ⟨[0x00, 0x00, 0x03, 0xC2], rfl⟩

/-- The builtin SEDP publications reader. -/
def entityIdSedpPubReader : EntityId := ⟨[0x00, 0x00, 0x03, 0xC7], rfl⟩

/-- The builtin SEDP subscriptions writer. -/
def entityIdSedpSubWriter : EntityId := ⟨[0x00, 0x00, 0x04, 0xC2], rfl⟩

/-- The builtin SEDP subscriptions reader. -/
def entityIdSedpSubReader : EntityId := ⟨[0x00, 0x00, 0x04, 0xC7], rfl⟩

/-- `ENTITYID_UNKNOWN`. -/
def entityIdUnknown : EntityId := ⟨[0x00, 0x00, 0x00, 0x00], rfl⟩

/-- The entity id of the `n`-th user-defined writer. -/
def entityIdForWriter (n : UInt32) : EntityId :=
  ⟨[(n >>> 16).toUInt8, (n >>> 8).toUInt8, n.toUInt8, 0x03], rfl⟩

/-- The entity id of the `n`-th user-defined reader. -/
def entityIdForReader (n : UInt32) : EntityId :=
  ⟨[(n >>> 16).toUInt8, (n >>> 8).toUInt8, n.toUInt8, 0x04], rfl⟩

/-! ## Guids -/

/-- Globally identifies a DDS entity: participant and endpoint. -/
@[ext] structure Guid where
  guidPrefix : GuidPrefix
  entity : EntityId
  deriving DecidableEq

namespace Guid

/-- The 16-byte wire encoding: the prefix, then the entity. -/
def encode (g : Guid) : Bytes := g.guidPrefix.encode ++ g.entity.encode

/-- Decode the first 16 bytes of `buf`. -/
def decode (buf : Bytes) : Except RtpsDecodeError Guid :=
  if buf.length < 16 then .error (.truncated 16 buf.length)
  else do
    let guidPrefix ← GuidPrefix.decode (Bytes.slice buf 0 12)
    let entity ← EntityId.decode (Bytes.slice buf 12 16)
    return { guidPrefix, entity }

/-- The guid as the 16-byte array that samples carry. -/
def toBytes (g : Guid) : FixedBytes 16 :=
  ⟨g.guidPrefix.bytes ++ g.entity.bytes, by simp⟩

lemma toBytes_injective : Function.Injective toBytes := by
  intro g h hgh
  have hbytes : g.guidPrefix.bytes ++ g.entity.bytes = h.guidPrefix.bytes ++ h.entity.bytes :=
    congrArg FixedBytes.bytes hgh
  have hparts := List.append_inj hbytes (by simp)
  exact Guid.ext (FixedBytes.ext hparts.1) (FixedBytes.ext hparts.2)

@[simp] lemma length_encode (g : Guid) : g.encode.length = 16 := by
  simp [encode, GuidPrefix.encode, EntityId.encode]

/-- A guid survives the wire. -/
lemma decode_encode (g : Guid) : decode g.encode = .ok g := by
  have hp : Bytes.slice g.encode 0 12 = g.guidPrefix.bytes :=
    Bytes.slice_append_left g.guidPrefix.length_eq
  have he : Bytes.slice g.encode 12 16 = g.entity.bytes := by
    rw [encode, Bytes.slice_append_right (by simp [GuidPrefix.encode])]
    simpa [GuidPrefix.encode, EntityId.encode] using
      Bytes.slice_append_left (b := []) g.entity.length_eq
  rw [decode, if_neg (by simp), hp, he, GuidPrefix.decode, EntityId.decode, decodeFixed_bytes,
    decodeFixed_bytes]
  rfl

end Guid

end RustDds
