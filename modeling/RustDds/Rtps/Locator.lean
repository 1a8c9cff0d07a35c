import RustDds.Rtps.Guid

/-!
# Transport endpoint addresses

A `Locator` is what a participant announces: a kind, a port and sixteen address bytes, of
which an IPv4 address occupies the last four.  `udpAddr` turns one into a socket address where
the kind and the port allow it.
-/

namespace RustDds

/-- An IP socket address. -/
inductive SocketAddr
  | v4 (ip : FixedBytes 4) (port : UInt16)
  | v6 (ip : FixedBytes 16) (port : UInt16)
  deriving DecidableEq

/-- 24-byte transport endpoint address. -/
@[ext] structure Locator where
  kind : Int32
  port : UInt32
  address : FixedBytes 16
  deriving DecidableEq

/-- Sentinel kind: locator not set. -/
def locatorKindInvalid : Int32 := -1

/-- UDPv4 transport. -/
def locatorKindUdpv4 : Int32 := 1

/-- UDPv6 transport. -/
def locatorKindUdpv6 : Int32 := 2

namespace Locator

/-- The locator of a participant that announced none. -/
def default : Locator := ⟨locatorKindInvalid, 0, FixedBytes.zero 16⟩

/-- The 24-byte wire encoding. -/
def encode (l : Locator) : Bytes :=
  Bytes.ofU32 l.kind.toUInt32 ++ (Bytes.ofU32 l.port ++ l.address.bytes)

/-- Decode the first 24 bytes of `buf`. -/
def decode (buf : Bytes) : Except RtpsDecodeError Locator :=
  if buf.length < 24 then .error (.truncated 24 buf.length)
  else do
    let address ← decodeFixed 16 (Bytes.slice buf 8 24)
    return { kind := (Bytes.readU32 buf 0).toInt32, port := Bytes.readU32 buf 4, address }

/-- The UDPv4 locator of a 4-byte address, placed in the last four bytes of the field. -/
def udpV4 (addr : FixedBytes 4) (port : UInt32) : Locator :=
  ⟨locatorKindUdpv4, port, ⟨List.replicate 12 0 ++ addr.bytes, by simp⟩⟩

/-- The UDPv6 locator of a 16-byte address. -/
def udpV6 (addr : FixedBytes 16) (port : UInt32) : Locator := ⟨locatorKindUdpv6, port, addr⟩

/-- The socket address of a UDP locator whose port fits in 16 bits. -/
def udpAddr (l : Locator) : Option SocketAddr :=
  if l.port.toNat < 2 ^ 16 then
    if l.kind = locatorKindUdpv4 then
      some (.v4 ⟨l.address.bytes.drop 12, by simp⟩ l.port.toUInt16)
    else if l.kind = locatorKindUdpv6 then some (.v6 l.address l.port.toUInt16)
    else none
  else none

lemma length_fillIn (l : Locator) (ip : FixedBytes 4) :
    (l.address.bytes.take 12 ++ ip.bytes).length = 16 := by simp

/-- Where the address of `l` is all zero and of the family of `src`, the octets of `src`. -/
def fillInZeroAddress (l : Locator) (src : SocketAddr) : Locator :=
  if l.address ≠ FixedBytes.zero 16 then l
  else match src with
    | .v4 ip _ =>
      if l.kind = locatorKindUdpv4 then
        { l with address := ⟨l.address.bytes.take 12 ++ ip.bytes, l.length_fillIn ip⟩ }
      else l
    | .v6 ip _ => if l.kind = locatorKindUdpv6 then { l with address := ip } else l

@[simp] lemma length_encode (l : Locator) : l.encode.length = 24 := by
  simp [encode]

/-- A locator survives the wire. -/
lemma decode_encode (l : Locator) : decode l.encode = .ok l := by
  have hkind : Bytes.readU32 l.encode 0 = l.kind.toUInt32 := by simp [encode]
  have hport : Bytes.readU32 l.encode 4 = l.port := by
    simp [encode, Bytes.readU32_append_right]
  have haddr : Bytes.slice l.encode 8 24 = l.address.bytes := by
    simpa [encode, Bytes.slice_append_right] using
      Bytes.slice_append_left (b := []) l.address.length_eq
  rw [decode, if_neg (by simp), hkind, hport, haddr, decodeFixed_bytes, Int32.toInt32_toUInt32]
  rfl

end Locator

end RustDds
