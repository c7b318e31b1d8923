import Mathlib.Logic.Function.Basic
import Suika.Arp

/-!
# The ARP codec

`ArpData` for addresses of any length. The offsets of the four addresses follow from two length
bytes that are part of the packet, so a setter that wrote anywhere else would move the others.

A packet is its header and one address for each `AddressField`; `set_packetBytes` says that a setter
replaces the address of its own field, `setAddresses_packetBytes` what any sequence of setters
leaves behind. `arpData_roundTrip` is about the packets made with `arpDataFactory`.
-/

namespace Suika

open Cpp BinaryPayload

namespace ArpData

/-- The four addresses of a packet, as they follow each other. -/
inductive AddressField : Type where
  | senderHardware
  | senderProtocol
  | targetHardware
  | targetProtocol
  deriving DecidableEq

namespace AddressField

/-- The length of the address, from the length bytes of the header. -/
def length (hal pal : UInt8) : AddressField → ℕ
  | senderHardware => hal.toNat
  | senderProtocol => pal.toNat
  | targetHardware => hal.toNat
  | targetProtocol => pal.toNat

/-- Its setter. -/
def set : AddressField → Bytes → Bytes → Eval Err Bytes
  | senderHardware => setSenderHardwareAddress
  | senderProtocol => setSenderProtocolAddress
  | targetHardware => setTargetHardwareAddress
  | targetProtocol => setTargetProtocolAddress

/-- Its getter. -/
def get : AddressField → Bytes → Eval Err Bytes
  | senderHardware => senderHardwareAddress
  | senderProtocol => senderProtocolAddress
  | targetHardware => targetHardwareAddress
  | targetProtocol => targetProtocolAddress

end AddressField

/-- An address for each field, of the length the header gives it. -/
abbrev Addresses (hal pal : UInt8) : Type :=
  ∀ f : AddressField, { addr : Bytes // addr.length = f.length hal pal }

/-- The addresses of a new packet. -/
def Addresses.zero (hal pal : UInt8) : Addresses hal pal :=
  fun f => ⟨List.replicate (f.length hal pal) 0, List.length_replicate⟩

/-- The setters of `fields`, one after the other. -/
def setAddresses {hal pal : UInt8} (v : Addresses hal pal) :
    List AddressField → Bytes → Eval Err Bytes
  | [], data => .ok data
  | f :: fields, data => do setAddresses v fields (← f.set data (v f).val)

/-- What the nine getters of `data` return. -/
structure Reads (data : Bytes) (ht pt : UInt16) (hal pal : UInt8) (op : UInt16)
    (v : Addresses hal pal) : Prop where
  hardwareType : hardwareType data = .ok ht
  protocolType : protocolType data = .ok pt
  hardwareAddressLength : hardwareAddressLength data = .ok hal
  protocolAddressLength : protocolAddressLength data = .ok pal
  operationCode : operationCode data = .ok op
  address : ∀ f : AddressField, f.get data = .ok (v f).val

section

variable (ht pt : UInt16) {hal pal : UInt8} (op : UInt16)

/-- A packet with these addresses. -/
def packetBytes (x : Addresses hal pal) : Bytes :=
  arpHeader ht pt hal pal op ++ (x .senderHardware).val ++ (x .senderProtocol).val ++
    (x .targetHardware).val ++ (x .targetProtocol).val

theorem length_packetBytes (x : Addresses hal pal) :
    (packetBytes ht pt op x).length = 8 + 2 * hal.toNat + 2 * pal.toNat := by
  simp only [packetBytes, List.length_append, length_arpHeader, (x _).property,
    AddressField.length]
  omega

/-- **A setter** replaces the address of its field and no other. -/
theorem set_packetBytes (x : Addresses hal pal) (f : AddressField)
    (addr : { addr : Bytes // addr.length = f.length hal pal }) :
    f.set (packetBytes ht pt op x) addr.val =
      .ok (packetBytes ht pt op (Function.update x f addr)) := by
  have hsh := (x .senderHardware).property
  have hsp := (x .senderProtocol).property
  have hth := (x .targetHardware).property
  have htp := (x .targetProtocol).property
  cases f with
  | senderHardware =>
    exact setSenderHardwareAddress_eq ht pt hal pal op hsh addr.property
  | senderProtocol =>
    exact setSenderProtocolAddress_eq ht pt hal pal op hsh hsp addr.property
  | targetHardware =>
    exact setTargetHardwareAddress_eq ht pt hal pal op hsh hsp hth addr.property
  | targetProtocol =>
    exact setTargetProtocolAddress_eq ht pt hal pal op hsh hsp hth htp addr.property

/-- After any sequence of setters, the fields in it have their new addresses. -/
theorem setAddresses_packetBytes (v x : Addresses hal pal) (fields : List AddressField) :
    setAddresses v fields (packetBytes ht pt op x) =
      .ok (packetBytes ht pt op fun f => if f ∈ fields then v f else x f) := by
  induction fields generalizing x with
  | nil => simp [setAddresses]
  | cons g fields ih =>
    rw [setAddresses, set_packetBytes, Eval.ok_bind, ih]
    refine congrArg _ (congrArg _ (funext fun f => ?_))
    by_cases hf : f ∈ fields
    · simp [hf]
    · by_cases hfg : f = g
      · subst hfg
        simp [hf]
      · simp [hf, hfg]

/-- The getters give the header and the addresses back, whatever follows the packet. -/
theorem reads_packetBytes (x : Addresses hal pal) (pad : Bytes) :
    Reads (packetBytes ht pt op x ++ pad) ht pt hal pal op x := by
  have hsh := (x .senderHardware).property
  have hsp := (x .senderProtocol).property
  have hth := (x .targetHardware).property
  have htp := (x .targetProtocol).property
  have hfront : packetBytes ht pt op x ++ pad = arpHeader ht pt hal pal op ++
      ((x .senderHardware).val ++ ((x .senderProtocol).val ++ ((x .targetHardware).val ++
        ((x .targetProtocol).val ++ pad)))) := by
    simp only [packetBytes, List.append_assoc]
  refine ⟨?_, ?_, ?_, ?_, ?_, ?_⟩
  · rw [hfront]
    exact hardwareType_arpHeader _ _ _ _ _ _
  · rw [hfront]
    exact protocolType_arpHeader _ _ _ _ _ _
  · rw [hfront]
    exact hardwareAddressLength_arpHeader _ _ _ _ _ _
  · rw [hfront]
    exact protocolAddressLength_arpHeader _ _ _ _ _ _
  · rw [hfront]
    exact operationCode_arpHeader _ _ _ _ _ _
  · intro f
    cases f with
    | senderHardware =>
      rw [hfront, ← List.append_assoc]
      exact senderHardwareAddress_arpHeader _ _ _ _ _ _ hsh
    | senderProtocol =>
      rw [hfront, ← List.append_assoc, ← List.append_assoc]
      exact senderProtocolAddress_arpHeader _ _ _ _ _ _ hsh hsp
    | targetHardware =>
      rw [hfront, ← List.append_assoc, ← List.append_assoc, ← List.append_assoc]
      exact targetHardwareAddress_arpHeader _ _ _ _ _ _ hsh hsp hth
    | targetProtocol => exact targetProtocolAddress_arpHeader _ _ _ _ _ _ hsh hsp hth htp

/-- A new packet has zeros for addresses. -/
theorem arpDataFactory_packetBytes :
    arpDataFactory ht.toNat pt.toNat hal.toNat pal.toNat op.toNat =
      .ok (packetBytes ht pt op (Addresses.zero hal pal)) := by
  generalize hzeros : List.replicate hal.toNat (0 : UInt8) ++ List.replicate pal.toNat 0 ++
    List.replicate hal.toNat 0 ++ List.replicate pal.toNat 0 = zeros
  have hsize : List.replicate (arpHeaderSize + hal.toNat * 2 + pal.toNat * 2) (0 : UInt8) =
      [0, 0, 0, 0, 0, 0, 0, 0] ++ zeros := by
    have height : ([0, 0, 0, 0, 0, 0, 0, 0] : Bytes) = List.replicate 8 0 := rfl
    rw [← hzeros, height, List.replicate_append_replicate, List.replicate_append_replicate,
      List.replicate_append_replicate, List.replicate_append_replicate]
    congr 1
    simp only [arpHeaderSize]
    omega
  have hpacket : packetBytes ht pt op (Addresses.zero hal pal) =
      arpHeader ht pt hal pal op ++ zeros := by
    simp [packetBytes, Addresses.zero, AddressField.length, ← hzeros, List.append_assoc]
  rw [arpDataFactory, hsize, hpacket]
  -- the setters overwrite the eight bytes of the header one field at a time
  simp [setHardwareType, setProtocolType, setHardwareAddressLength, setProtocolAddressLength,
    setOperationCode, writeUint16, writeUint8, write, setAt, arpHeader, be16]

end

/-- **The ARP codec round-trips for every address length**, in whatever order the setters run.
* The packet has room for its header and its addresses, and no more.
* All nine getters return what was set, also with other bytes behind the packet. -/
theorem arpData_roundTrip (ht pt : UInt16) (hal pal : UInt8) (op : UInt16) (v : Addresses hal pal)
    (fields : List AddressField) (hall : ∀ f, f ∈ fields) :
    ∃ data, arpDataFactory ht.toNat pt.toNat hal.toNat pal.toNat op.toNat >>=
        setAddresses v fields = .ok data ∧
      data.length = 8 + 2 * hal.toNat + 2 * pal.toNat ∧
      ∀ pad, Reads (data ++ pad) ht pt hal pal op v := by
  refine ⟨packetBytes ht pt op v, ?_, length_packetBytes ht pt op v, reads_packetBytes ht pt op v⟩
  rw [arpDataFactory_packetBytes, Eval.ok_bind, setAddresses_packetBytes]
  refine congrArg _ (congrArg _ (funext fun f => ?_))
  rw [if_pos (hall f)]

/-- Addresses of 8 and 2 bytes. -/
def exampleAddresses : Addresses 8 2
  | .senderHardware => ⟨[1, 2, 3, 4, 5, 6, 7, 8], rfl⟩
  | .senderProtocol => ⟨[9, 10], rfl⟩
  | .targetHardware => ⟨[11, 12, 13, 14, 15, 16, 17, 18], rfl⟩
  | .targetProtocol => ⟨[19, 20], rfl⟩

/-- Set from the last to the first, with the second one set twice. -/
theorem arpData_roundTrip_backwards :
    ∃ data, arpDataFactory 6 0x0800 8 2 1 >>= setAddresses exampleAddresses [.targetProtocol,
        .senderProtocol, .targetHardware, .senderProtocol, .senderHardware] = .ok data ∧
      data.length = 28 ∧ ∀ pad, Reads (data ++ pad) 6 0x0800 8 2 1 exampleAddresses :=
  arpData_roundTrip 6 0x0800 8 2 1 exampleAddresses [.targetProtocol, .senderProtocol,
    .targetHardware, .senderProtocol, .senderHardware] (fun f => by cases f <;> decide)

end ArpData

end Suika
