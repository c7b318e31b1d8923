import Suika.Lib.Fields
import Suika.Ipv4

/-!
# The fields of an IPv4 header are independent

Eleven setters of `Ipv4Data` write into the same 20 bytes, two of them into the halves of one byte.
`fieldBytes` lays the fields out; `set_fieldBytes` says that a setter replaces its own field in this
layout, and `Fields.run_encode_getD` takes it to any sequence of setters.
-/

namespace Suika

open Cpp BinaryPayload

namespace Ipv4Data

/-- The fields of a header. -/
inductive Field : Type where
  | version
  | headerLength
  | typeOfService
  | totalLength
  | identification
  | flagsAndFragmentOffset
  | timeToLive
  | protocol
  | checksum
  | src
  | dst
  deriving DecidableEq

namespace Field

/-- The numbers its setter takes and its getter returns. -/
abbrev Value : Field → Type
  | version | headerLength | typeOfService | timeToLive | protocol => UInt8
  | totalLength | identification | flagsAndFragmentOffset | checksum => UInt16
  | src | dst => UInt32

/-- Its setter. -/
def set : (f : Field) → Bytes → f.Value → Eval Err Bytes
  | version => setVersion
  | headerLength => setHeaderLength
  | typeOfService => setTypeOfService
  | totalLength => setTotalLength
  | identification => setIdentification
  | flagsAndFragmentOffset => setFlagsAndFragmentOffset
  | timeToLive => setTimeToLive
  | protocol => setProtocol
  | checksum => setChecksum
  | src => setSrc
  | dst => setDst

/-- Its getter. -/
def get : (f : Field) → Bytes → Eval Err f.Value
  | version => Ipv4Data.version
  | headerLength => Ipv4Data.headerLength
  | typeOfService => Ipv4Data.typeOfService
  | totalLength => Ipv4Data.totalLength
  | identification => Ipv4Data.identification
  | flagsAndFragmentOffset => Ipv4Data.flagsAndFragmentOffset
  | timeToLive => Ipv4Data.timeToLive
  | protocol => Ipv4Data.protocol
  | checksum => Ipv4Data.checksum
  | src => Ipv4Data.src
  | dst => Ipv4Data.dst

/-- What is left of a value: the fields that share a byte have four bits each. -/
def kept : (f : Field) → f.Value → f.Value
  | version, v | headerLength, v => v % 16
  | typeOfService, v | timeToLive, v | protocol, v => v
  | totalLength, v | identification, v | flagsAndFragmentOffset, v | checksum, v => v
  | src, v | dst, v => v

end Field

/-- A header with these fields. -/
def fieldBytes (x : ∀ f : Field, f.Value) : Bytes :=
  [x .version <<< 4 ||| x .headerLength &&& 0x0F, x .typeOfService] ++ be16 (x .totalLength) ++
    be16 (x .identification) ++ be16 (x .flagsAndFragmentOffset) ++
    [x .timeToLive, x .protocol] ++ be16 (x .checksum) ++ be32 (x .src) ++ be32 (x .dst)

/-- The fields of a vector. -/
def fieldsOf (data : Bytes) : (f : Field) → f.Value
  | .version => (u8 data 0 &&& 0xF0) >>> 4
  | .headerLength => u8 data 0 &&& 0x0F
  | .typeOfService => u8 data 1
  | .totalLength => u16 data 2
  | .identification => u16 data 4
  | .flagsAndFragmentOffset => u16 data 6
  | .timeToLive => u8 data 8
  | .protocol => u8 data 9
  | .checksum => u16 data 10
  | .src => u32 data 12
  | .dst => u32 data 16

@[simp] theorem length_fieldBytes (x : ∀ f : Field, f.Value) : (fieldBytes x).length = 20 := rfl

/-- A vector with room for a header consists of its fields and the rest. -/
theorem fieldBytes_fieldsOf {data : Bytes} (h : 20 ≤ data.length) :
    fieldBytes (fieldsOf data) ++ data.drop 20 = data := by
  have hheader : fieldBytes (fieldsOf data) = data.take 20 := by
    rw [take_eq_map_u8 h, fieldBytes]
    simp only [fieldsOf, join_nibbles, u16, u32, be16_join16, be32_join32]
    rfl
  rw [hheader, List.take_append_drop]

/-- **A setter** replaces its field and no other. -/
theorem set_fieldBytes (rest : Bytes) (f : Field) (x : ∀ f : Field, f.Value) (v : f.Value) :
    f.set (fieldBytes x ++ rest) v = .ok (fieldBytes (Function.update x f v) ++ rest) := by
  cases f with
  -- the two setters of the shared byte read the other half back before they write
  | version =>
    simp [Field.set, setVersion, headerLength, versionAndHeaderLength, readUint8, byteAt,
      fieldBytes, writeUint8, write, setAt, lowNibble_join]
  | headerLength =>
    simp [Field.set, setHeaderLength, version, versionAndHeaderLength, readUint8, byteAt,
      fieldBytes, writeUint8, write, setAt, highNibble_join, mod_shiftLeft_four]
  | typeOfService => simp [Field.set, setTypeOfService, fieldBytes, writeUint8, write, setAt]
  | totalLength =>
    simp [Field.set, setTotalLength, fieldBytes, writeUint16, write, setAt, be16]
  | identification =>
    simp [Field.set, setIdentification, fieldBytes, writeUint16, write, setAt, be16]
  | flagsAndFragmentOffset =>
    simp [Field.set, setFlagsAndFragmentOffset, fieldBytes, writeUint16, write, setAt, be16]
  | timeToLive => simp [Field.set, setTimeToLive, fieldBytes, writeUint8, write, setAt, be16]
  | protocol => simp [Field.set, setProtocol, fieldBytes, writeUint8, write, setAt, be16]
  | checksum => simp [Field.set, setChecksum, fieldBytes, writeUint16, write, setAt, be16]
  | src => simp [Field.set, setSrc, fieldBytes, writeUint32, write, setAt, be16, be32]
  | dst => simp [Field.set, setDst, fieldBytes, writeUint32, write, setAt, be16, be32]

/-- **A getter** reads what is left of its field. -/
theorem get_fieldBytes (rest : Bytes) (f : Field) (x : ∀ f : Field, f.Value) :
    f.get (fieldBytes x ++ rest) = .ok (f.kept (x f)) := by
  cases f with
  | version =>
    simp [Field.get, version, versionAndHeaderLength, readUint8, byteAt, fieldBytes,
      highNibble_join, Field.kept]
  | headerLength =>
    have hlow := (lowNibble_join (x .version) (x .headerLength)).trans (lowNibble_eq _)
    simp [Field.get, headerLength, versionAndHeaderLength, readUint8, byteAt, fieldBytes, hlow,
      Field.kept]
  | typeOfService | timeToLive | protocol => rfl
  | totalLength =>
    simp [Field.get, totalLength, readUint16, byteAt, fieldBytes, be16, Field.kept]
  | identification =>
    simp [Field.get, identification, readUint16, byteAt, fieldBytes, be16, Field.kept]
  | flagsAndFragmentOffset =>
    simp [Field.get, flagsAndFragmentOffset, readUint16, byteAt, fieldBytes, be16, Field.kept]
  | checksum => simp [Field.get, checksum, readUint16, byteAt, fieldBytes, be16, Field.kept]
  | src => simp [Field.get, src, readUint32, byteAt, fieldBytes, be16, be32, Field.kept]
  | dst => simp [Field.get, dst, readUint32, byteAt, fieldBytes, be16, be32, Field.kept]

/-- **Header fields are independent**: after any sequence of setters each getter returns what its
own setter was given last, or what it returned before; the size and the bytes behind the header are
the old ones. -/
theorem ipv4Fields_independent {data : Bytes} (h : 20 ≤ data.length)
    (calls : List (Fields.Write Field.Value)) :
    ∃ data', Fields.run Field.set calls data = .ok data' ∧ data'.length = data.length ∧
      data'.drop 20 = data.drop 20 ∧
      ∀ f : Field, ∃ original, f.get data = .ok original ∧
        f.get data' = .ok (((Fields.lastGiven f calls).map f.kept).getD original) := by
  have hdata := fieldBytes_fieldsOf h
  have hrun := Fields.run_encode_getD (set_fieldBytes (data.drop 20)) calls (fieldsOf data)
  rw [hdata] at hrun
  refine ⟨_, hrun, ?_, ?_, fun f => ⟨f.kept (fieldsOf data f), ?_, ?_⟩⟩
  · rw [List.length_append, length_fieldBytes, List.length_drop]
    omega
  · rw [List.drop_left' (length_fieldBytes _)]
  · conv_lhs => rw [← hdata]
    exact get_fieldBytes _ f _
  · rw [get_fieldBytes]
    cases Fields.lastGiven f calls <;> rfl

/-- Version and header length in one byte, the version twice, with one byte behind the header. -/
theorem ipv4Fields_independent_nibbles :
    ∃ data', Fields.run Field.set [⟨.version, 0x14⟩, ⟨.headerLength, 0x25⟩, ⟨.version, 6⟩]
        (List.replicate 21 9) = .ok data' ∧ data'.length = 21 ∧ data'.drop 20 = [9] ∧
      ∀ f : Field, ∃ original, f.get (List.replicate 21 9) = .ok original ∧
        f.get data' = .ok (((Fields.lastGiven f [⟨.version, 0x14⟩, ⟨.headerLength, 0x25⟩,
          ⟨.version, 6⟩]).map f.kept).getD original) :=
  @ipv4Fields_independent (List.replicate 21 9) (by decide)
    [⟨.version, 0x14⟩, ⟨.headerLength, 0x25⟩, ⟨.version, 6⟩]

end Ipv4Data

end Suika
