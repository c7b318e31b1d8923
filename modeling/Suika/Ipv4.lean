import Suika.Arp

/-!
# IPv4

`lib/Ipv4Data.h` and the output half of `lib/Ipv4.cpp`. `ipv4Output` builds a 20-byte header, writes
its checksum, appends the payload and hands the packet to the device of the route.

The header checksum is a word sum folded once. `Ipv4Data.verifyHeader_setCheckSum` says when it
verifies, in terms of the plain sum of the header: exactly when the fold loses no carry.
-/

namespace Suika

open Cpp BinaryPayload OnesComplement

/-- `IP_VERSION_IPV4` -/
abbrev ipVersionIpv4 : UInt8 := 4

/-- `ICMP_TYPE` -/
abbrev icmpType : UInt8 := 0x01

/-- `UDP_TYPE` -/
abbrev udpType : UInt8 := 0x11

/-- `IP_ADDR_BROADCAST` -/
abbrev ipAddrBroadcast : UInt32 := 0xffffffff

/-! ## `Ipv4Data` -/

namespace Ipv4Data

def versionAndHeaderLength (data : Bytes) : Eval Err UInt8 := readUint8 data 0

def version (data : Bytes) : Eval Err UInt8 := do
  let value ← versionAndHeaderLength data
  return (value &&& 0xF0) >>> 4

def headerLength (data : Bytes) : Eval Err UInt8 := do
  let value ← versionAndHeaderLength data
  return value &&& 0x0F

def headerLengthByte (data : Bytes) : Eval Err UInt16 := do
  let l ← headerLength data
  return l.toUInt16 * 4

def setVersion (data : Bytes) (value : UInt8) : Eval Err Bytes := do
  let hl ← headerLength data
  let val := value <<< 4
  writeUint8 data (val ||| hl) 0

def setHeaderLength (data : Bytes) (value : UInt8) : Eval Err Bytes := do
  let v ← version data
  writeUint8 data (v <<< 4 ||| value &&& 0x0F) 0

def typeOfService (data : Bytes) : Eval Err UInt8 := readUint8 data 1

def setTypeOfService (data : Bytes) (value : UInt8) : Eval Err Bytes := writeUint8 data value 1

def totalLength (data : Bytes) : Eval Err UInt16 := readUint16 data 2

def setTotalLength (data : Bytes) (value : UInt16) : Eval Err Bytes := writeUint16 data value 2

def identification (data : Bytes) : Eval Err UInt16 := readUint16 data 4

def setIdentification (data : Bytes) (value : UInt16) : Eval Err Bytes := writeUint16 data value 4

def flagsAndFragmentOffset (data : Bytes) : Eval Err UInt16 := readUint16 data 6

def setFlagsAndFragmentOffset (data : Bytes) (value : UInt16) : Eval Err Bytes :=
  writeUint16 data value 6

def timeToLive (data : Bytes) : Eval Err UInt8 := readUint8 data 8

def setTimeToLive (data : Bytes) (value : UInt8) : Eval Err Bytes := writeUint8 data value 8

def protocol (data : Bytes) : Eval Err UInt8 := readUint8 data 9

def setProtocol (data : Bytes) (value : UInt8) : Eval Err Bytes := writeUint8 data value 9

def checksum (data : Bytes) : Eval Err UInt16 := readUint16 data 10

def setChecksum (data : Bytes) (value : UInt16) : Eval Err Bytes := writeUint16 data value 10

def src (data : Bytes) : Eval Err UInt32 := readUint32 data 12

def setSrc (data : Bytes) (value : UInt32) : Eval Err Bytes := writeUint32 data value 12

def dst (data : Bytes) : Eval Err UInt32 := readUint32 data 16

def setDst (data : Bytes) (value : UInt32) : Eval Err Bytes := writeUint32 data value 16

/-- `Ipv4Data()` -/
def empty : Eval Err Bytes := do
  let data ← setVersion (List.replicate 20 0) ipVersionIpv4
  setHeaderLength data 5

/-- A total length below the header length gives the result vector a negative size. -/
def payload (data : Bytes) : Eval Err Bytes := do
  let dataLength : ℤ := (← totalLength data).toNat - (← headerLengthByte data).toNat
  if dataLength < 0 then Eval.throwing .lengthError
  else slice data (← headerLengthByte data).toNat (← totalLength data).toNat

def setPayload (data d : Bytes) : Eval Err Bytes := do
  let l := UInt16.ofNat ((← headerLengthByte data).toNat + d.length)
  let data ← setTotalLength data l
  let data := resize data l.toNat
  copyInto d data (← headerLengthByte data).toNat

def verifyHeader (data : Bytes) : Eval Err Bool := do
  let headerByteLen : ℕ := (← headerLength data).toNat * 4
  let ret ← calculateChecksum data 0 headerByteLen
  return ret == 0xFFFF

def setCheckSum (data : Bytes) : Eval Err Bytes := do
  let headerLen ← headerLengthByte data
  let data ← setChecksum data 0
  let sum := ~~~ (← calculateChecksum data 0 headerLen.toNat)
  setChecksum data sum

/-- The fields the log line of `info` reads; its text goes nowhere. -/
def info (data : Bytes) : Eval Err Unit := do
  let _ ← version data
  let _ ← headerLength data
  let _ ← typeOfService data
  let _ ← totalLength data
  let _ ← identification data
  let _ ← flagsAndFragmentOffset data
  let _ ← timeToLive data
  let _ ← protocol data
  let _ ← src data
  let _ ← dst data

end Ipv4Data

open Ipv4Data

/-! ## Output -/

/-- `ip_gen_id`: the static counter wraps at 16 bits. -/
def ipGenId : Call UInt16 := do
  let s ← Comp.get
  Comp.set { s with ipId := s.ipId + 1 }
  return s.ipId

/-- The part of `ipv4_output` that fills in the header, up to `setCheckSum`. -/
def ipv4Output.header (protocol : UInt8) (data : Bytes) (src dst : UInt32) (id : UInt16) :
    Eval Err Bytes := do
  let ipv4Packet ← Ipv4Data.empty
  let ipv4Packet ← setTypeOfService ipv4Packet 0
  let total := (← headerLengthByte ipv4Packet).toNat + data.length
  let ipv4Packet ← setTotalLength ipv4Packet (UInt16.ofNat total)
  let ipv4Packet ← setIdentification ipv4Packet id
  let ipv4Packet ← setFlagsAndFragmentOffset ipv4Packet 0
  let ipv4Packet ← setTimeToLive ipv4Packet 0xff
  let ipv4Packet ← setProtocol ipv4Packet protocol
  let ipv4Packet ← setChecksum ipv4Packet 0
  let ipv4Packet ← setSrc ipv4Packet src
  let ipv4Packet ← setDst ipv4Packet dst
  setCheckSum ipv4Packet

/-- The packet of `ipv4_output`: the header, logged, and then the payload. -/
def ipv4Output.packet (protocol : UInt8) (data : Bytes) (src dst : UInt32) (id : UInt16) :
    Eval Err Bytes := do
  let ipv4Packet ← ipv4Output.header protocol data src dst id
  let _ ← Ipv4Data.info ipv4Packet
  setPayload ipv4Packet data

/-- `ipv4_output` -/
def ipv4Output (cfg : Config) (protocol : UInt8) (data : Bytes) (src dst : UInt32) : Call ℤ := do
  if src = ipAddrAny ∧ dst = ipAddrBroadcast then throwRuntime "src is required"
  else
    let route ← cfg.lookup dst
    if src ≠ ipAddrAny ∧ src ≠ route.interface.unicast then throwRuntime "ip not match"
    else
      let gateway := route.gateway
      let id ← ipGenId
      let ipv4Packet ← ipv4Output.packet protocol data src dst id
      let hardwareAddr ← arpResolve cfg route.interface gateway
      let _ ← EtherDevice.transmit cfg ipv4Packet hardwareAddr ipType
      return 0

/-! ## The header checksum -/

namespace Ipv4Data

/-- The size of the header, from its own length field. -/
def headerBytes (data : Bytes) : ℕ := (u8 data 0 &&& 0x0F).toNat * 4

/-- The plain sum of the header words, the checksum field taken as zero. -/
def headerSum (data : Bytes) : ℕ := wordSum ((patch data 10 (be16 0)).take (headerBytes data))

/-- The header words add up to the all-ones word. -/
def HeaderVerifies (data : Bytes) : Prop :=
  fold16 (wordSum (data.take (headerBytes data))) = 65535

instance (data : Bytes) : Decidable (HeaderVerifies data) := inferInstanceAs (Decidable (_ = _))

theorem headerBytes_le (data : Bytes) : headerBytes data ≤ 60 := by
  have hand : (u8 data 0 &&& 0x0F).toNat ≤ 15 := by
    rw [UInt8.toNat_and]
    exact Nat.and_le_right
  rw [headerBytes]
  omega

theorem headerBytes_even (data : Bytes) : headerBytes data % 2 = 0 := by
  rw [headerBytes]
  omega

theorem toNat_headerBytes (data : Bytes) :
    (UInt16.ofNat (headerBytes data)).toNat = headerBytes data := by
  have hle := headerBytes_le data
  rw [UInt16.toNat_ofNat', Nat.mod_eq_of_lt (by omega)]

variable {data : Bytes}

theorem headerLength_eq (h : 0 < data.length) :
    headerLength data = .ok (u8 data 0 &&& 0x0F) := by
  rw [headerLength, versionAndHeaderLength, readUint8_eq h]
  rfl

theorem headerLengthByte_eq (h : 0 < data.length) :
    headerLengthByte data = .ok (UInt16.ofNat (headerBytes data)) := by
  have hle := headerBytes_le data
  rw [headerLengthByte, headerLength_eq h]
  refine congrArg Except.ok (UInt16.toNat_inj.mp ?_)
  rw [headerBytes] at *
  rw [UInt16.toNat_mul, UInt8.toNat_toUInt16, UInt16.toNat_ofNat']
  rfl

theorem headerLengthByte_quiet (data : Bytes) : (headerLengthByte data).Quiet :=
  ((readUint8_quiet data 0).bind fun _ => Eval.Quiet.ok _).bind fun _ => Eval.Quiet.ok _

/-- The log line reads the 20 bytes of the fixed header. -/
theorem info_eq (h20 : 20 ≤ data.length) : info data = .ok () := by
  rw [info, version, headerLength, versionAndHeaderLength, readUint8_eq (by omega), typeOfService,
    readUint8_eq (by omega), totalLength, readUint16_eq (by omega), identification,
    readUint16_eq (by omega), flagsAndFragmentOffset, readUint16_eq (by omega), timeToLive,
    readUint8_eq (by omega), protocol, readUint8_eq (by omega), src, readUint32_eq (by omega), dst,
    readUint32_eq (by omega)]
  rfl

/-- A payload that makes the total length wrap is copied past the end of the vector, which has only
the size the wrapped length says. -/
theorem setPayload_undefined {d : Bytes} {n : UInt16} (hn : headerLengthByte data = .ok n)
    (hd : 65536 ≤ n.toNat + d.length) : setPayload data d = Eval.undefined := by
  have hlt := n.toNat_lt
  rw [setPayload, hn, Eval.ok_bind]
  refine (writeUint16_quiet data _ 2).bind_undefined fun data' => ?_
  refine (headerLengthByte_quiet _).bind_undefined fun m => copyInto_undefined ?_
  rw [length_resize, UInt16.toNat_ofNat']
  omega

/-- `verifyHeader` compares the fold of the header words. -/
theorem verifyHeader_eq (h0 : 0 < data.length) (h : headerBytes data ≤ data.length) :
    verifyHeader data = .ok (HeaderVerifies data) := by
  have hle := headerBytes_le data
  rw [verifyHeader, headerLength_eq h0, Eval.ok_bind]
  change (calculateChecksum data 0 (headerBytes data) >>= _ : Eval Err Bool) = _
  rw [calculateChecksum_eq (headerBytes_even data) h (by omega), Eval.ok_bind]
  refine congrArg Except.ok ?_
  rw [beq_eq_decide, decide_eq_decide, HeaderVerifies, ← UInt16.toNat_inj, toNat_ofNat_fold16]
  rfl

/-- `setCheckSum` writes the complement of the folded header sum, whatever the field held. -/
theorem setCheckSum_eq (h5 : 20 ≤ headerBytes data) (h : headerBytes data ≤ data.length) :
    setCheckSum data =
      .ok (patch data 10 (be16 (~~~ UInt16.ofNat (fold16 (headerSum data))))) := by
  have hle := headerBytes_le data
  have hlen : (patch data 10 (be16 0)).length = data.length := length_patch (by
    rw [length_be16]
    omega)
  rw [setCheckSum, headerLengthByte_eq (by omega), Eval.ok_bind, setChecksum,
    writeUint16_eq 0 (by omega), Eval.ok_bind, toNat_headerBytes,
    calculateChecksum_eq (headerBytes_even data) (by omega) (by omega), Eval.ok_bind, setChecksum,
    writeUint16_eq _ (by omega), patch_patch (by rfl) (by rw [length_be16]; omega)]
  rfl

/-- **The checksum verifies** right after it was set exactly when the single fold of the header sum
loses no carry. -/
theorem verifyHeader_setCheckSum (h5 : 20 ≤ headerBytes data) (h : headerBytes data ≤ data.length) :
    (∃ p, setCheckSum data = .ok p ∧ verifyHeader p = .ok true) ↔ ¬ CarryLost (headerSum data) := by
  have hle := headerBytes_le data
  have hsum : headerSum data < 2147483648 := by
    have hwords := wordSum_le ((patch data 10 (be16 0)).take (headerBytes data))
    have htake := List.length_take_le (headerBytes data) (patch data 10 (be16 0))
    rw [← headerSum] at hwords
    omega
  have hfit : ∀ v : UInt16, 10 + (be16 v).length ≤ data.length := fun v => by
    rw [length_be16]
    omega
  have hbytes : ∀ v, headerBytes (patch data 10 (be16 v)) = headerBytes data := fun v => by
    rw [headerBytes, headerBytes, u8_patch_of_lt (by omega) (hfit v)]
  have hlen : ∀ v, (patch data 10 (be16 v)).length = data.length := fun v => length_patch (hfit v)
  -- whatever was written into the checksum field adds itself to the sum of the rest
  have hverify : ∀ v : UInt16, verifyHeader (patch data 10 (be16 v)) =
      .ok (fold16 (headerSum data + v.toNat) = 65535) := by
    intro v
    have hiff : HeaderVerifies (patch data 10 (be16 v)) ↔
        fold16 (headerSum data + v.toNat) = 65535 := by
      rw [HeaderVerifies, hbytes, wordSum_take_patch v (by rfl) (by omega) (by omega), headerSum]
    rw [verifyHeader_eq (by rw [hlen]; omega) (by rw [hbytes, hlen]; exact h)]
    exact congrArg Except.ok (decide_eq_decide.mpr hiff)
  rw [← fold16_complement_iff hsum, ← toNat_not_fold16]
  refine ⟨?_, ?_⟩
  · rintro ⟨p, hp, hv⟩
    rw [setCheckSum_eq h5 h] at hp
    cases hp
    rw [hverify] at hv
    exact of_decide_eq_true (Except.ok.inj hv)
  · intro hfold'
    refine ⟨_, setCheckSum_eq h5 h, ?_⟩
    rw [hverify, decide_eq_true hfold']

end Ipv4Data

/-! ## The packet of `ipv4_output` -/

/-- A header without options, as its fields. -/
def ipv4Header (total id : UInt16) (protocol : UInt8) (checksum : UInt16) (src dst : UInt32) :
    Bytes :=
  [0x45, 0] ++ be16 total ++ be16 id ++ [0, 0, 0xff, protocol] ++ be16 checksum ++ be32 src ++
    be32 dst

/-- The checksum `setCheckSum` writes into such a header. -/
def ipv4Checksum (total id : UInt16) (protocol : UInt8) (src dst : UInt32) : UInt16 :=
  ~~~ UInt16.ofNat (fold16 (headerSum (ipv4Header total id protocol 0 src dst)))

section

variable (total id : UInt16) (protocol : UInt8) (checksum : UInt16) (src dst : UInt32)
  (rest : Bytes)

@[simp] theorem length_ipv4Header :
    (ipv4Header total id protocol checksum src dst).length = 20 := rfl

@[simp] theorem headerBytes_ipv4Header :
    headerBytes (ipv4Header total id protocol checksum src dst ++ rest) = 20 := by
  have hfirst : u8 (ipv4Header total id protocol checksum src dst ++ rest) 0 = 0x45 := rfl
  rw [headerBytes, hfirst]
  rfl

theorem version_ipv4Header :
    Ipv4Data.version (ipv4Header total id protocol checksum src dst ++ rest) = .ok 4 := rfl

theorem headerLength_ipv4Header :
    Ipv4Data.headerLength (ipv4Header total id protocol checksum src dst ++ rest) = .ok 5 := rfl

theorem headerLengthByte_ipv4Header :
    Ipv4Data.headerLengthByte (ipv4Header total id protocol checksum src dst ++ rest) = .ok 20 :=
  rfl

theorem totalLength_ipv4Header :
    Ipv4Data.totalLength (ipv4Header total id protocol checksum src dst ++ rest) = .ok total :=
  congrArg Except.ok (join16_be16 total)

theorem identification_ipv4Header :
    Ipv4Data.identification (ipv4Header total id protocol checksum src dst ++ rest) = .ok id :=
  congrArg Except.ok (join16_be16 id)

theorem protocol_ipv4Header :
    Ipv4Data.protocol (ipv4Header total id protocol checksum src dst ++ rest) = .ok protocol := rfl

theorem checksum_ipv4Header :
    Ipv4Data.checksum (ipv4Header total id protocol checksum src dst ++ rest) = .ok checksum :=
  congrArg Except.ok (join16_be16 checksum)

theorem src_ipv4Header :
    Ipv4Data.src (ipv4Header total id protocol checksum src dst ++ rest) = .ok src :=
  congrArg Except.ok (join32_be32 src)

theorem dst_ipv4Header :
    Ipv4Data.dst (ipv4Header total id protocol checksum src dst ++ rest) = .ok dst :=
  congrArg Except.ok (join32_be32 dst)

/-- What is read back as payload ends where the total length says, before any padding. -/
theorem payload_ipv4Header (d pad : Bytes) (htotal : total.toNat = 20 + d.length) :
    Ipv4Data.payload (ipv4Header total id protocol checksum src dst ++ d ++ pad) = .ok d := by
  have hslice : (slice (ipv4Header total id protocol checksum src dst ++ d ++ pad) 20 total.toNat :
      Eval Err Bytes) = .ok d := slice_append _ d pad (by rfl) htotal
  have hnonneg : ¬ ((total.toNat : ℤ) - ((20 : UInt16).toNat : ℤ) < 0) := by
    rw [htotal]
    change ¬ (((20 + d.length : ℕ) : ℤ) - 20 < 0)
    omega
  rw [List.append_assoc] at hslice ⊢
  rw [Ipv4Data.payload, totalLength_ipv4Header, headerLengthByte_ipv4Header, Eval.ok_bind,
    Eval.ok_bind]
  rw [if_neg hnonneg]
  exact hslice

end

namespace Ipv4Output

variable (protocol : UInt8) (d : Bytes) (src dst : UInt32) (id : UInt16)

/-- The header with its checksum. -/
theorem header_eq :
    ipv4Output.header protocol d src dst id =
      .ok (ipv4Header (UInt16.ofNat (20 + d.length)) id protocol
        (ipv4Checksum (UInt16.ofNat (20 + d.length)) id protocol src dst) src dst) := by
  have hempty : Ipv4Data.empty = .ok (0x45 :: List.replicate 19 0) := rfl
  have htos : setTypeOfService (0x45 :: List.replicate 19 0) 0 =
      .ok (0x45 :: List.replicate 19 0) := rfl
  have hhl : headerLengthByte (0x45 :: List.replicate 19 0) = .ok 20 := rfl
  have htwenty : (20 : UInt16).toNat = 20 := rfl
  rw [ipv4Output.header, hempty, Eval.ok_bind, htos, Eval.ok_bind, hhl, Eval.ok_bind, htwenty]
  dsimp only
  generalize UInt16.ofNat (20 + d.length) = total
  have htotal : setTotalLength (0x45 :: List.replicate 19 0) total =
      .ok ([0x45, 0] ++ be16 total ++ List.replicate 16 0) := rfl
  have hid : setIdentification ([0x45, 0] ++ be16 total ++ List.replicate 16 0) id =
      .ok ([0x45, 0] ++ be16 total ++ be16 id ++ List.replicate 14 0) := rfl
  have hflags : setFlagsAndFragmentOffset
      ([0x45, 0] ++ be16 total ++ be16 id ++ List.replicate 14 0) 0 =
        .ok ([0x45, 0] ++ be16 total ++ be16 id ++ List.replicate 14 0) := rfl
  have httl : setTimeToLive ([0x45, 0] ++ be16 total ++ be16 id ++ List.replicate 14 0) 0xff =
      .ok ([0x45, 0] ++ be16 total ++ be16 id ++ [0, 0, 0xff] ++ List.replicate 11 0) := rfl
  have hprotocol : setProtocol
      ([0x45, 0] ++ be16 total ++ be16 id ++ [0, 0, 0xff] ++ List.replicate 11 0) protocol =
        .ok (ipv4Header total id protocol 0 0 0) := rfl
  have hchecksum : setChecksum (ipv4Header total id protocol 0 0 0) 0 =
      .ok (ipv4Header total id protocol 0 0 0) := rfl
  have hsrc : setSrc (ipv4Header total id protocol 0 0 0) src =
      .ok (ipv4Header total id protocol 0 src 0) := rfl
  have hdst : setDst (ipv4Header total id protocol 0 src 0) dst =
      .ok (ipv4Header total id protocol 0 src dst) := rfl
  rw [htotal, Eval.ok_bind, hid, Eval.ok_bind, hflags, Eval.ok_bind, httl, Eval.ok_bind, hprotocol,
    Eval.ok_bind, hchecksum, Eval.ok_bind, hsrc, Eval.ok_bind, hdst, Eval.ok_bind]
  have hbytes : headerBytes (ipv4Header total id protocol 0 src dst) = 20 := by
    rw [← List.append_nil (ipv4Header total id protocol 0 src dst), headerBytes_ipv4Header]
  rw [setCheckSum_eq (by rw [hbytes]) (by rw [hbytes, length_ipv4Header]), ← ipv4Checksum]
  rfl

/-- The payload goes behind the header and changes none of its bytes. -/
theorem packet_eq (hd : d.length ≤ 65515) :
    ipv4Output.packet protocol d src dst id =
      .ok (ipv4Header (UInt16.ofNat (20 + d.length)) id protocol
        (ipv4Checksum (UInt16.ofNat (20 + d.length)) id protocol src dst) src dst ++ d) := by
  have htotal : (UInt16.ofNat (20 + d.length)).toNat = 20 + d.length := by
    rw [UInt16.toNat_ofNat', Nat.mod_eq_of_lt (by omega)]
  rw [ipv4Output.packet, header_eq, Eval.ok_bind]
  generalize ipv4Checksum (UInt16.ofNat (20 + d.length)) id protocol src dst = cs
  generalize htl : UInt16.ofNat (20 + d.length) = total at *
  -- the total length is set a second time, to the value it already has
  have hset : setTotalLength (ipv4Header total id protocol cs src dst) total =
      .ok (ipv4Header total id protocol cs src dst) := rfl
  have hpatch : patch (ipv4Header total id protocol cs src dst ++ List.replicate d.length 0) 20 d =
      ipv4Header total id protocol cs src dst ++ d := by
    have h := patch_append (ipv4Header total id protocol cs src dst) (List.replicate d.length 0) []
      d (by rfl) List.length_replicate
    rw [List.append_nil, List.append_nil] at h
    exact h
  have hinfo : Ipv4Data.info (ipv4Header total id protocol cs src dst) = .ok () :=
    Ipv4Data.info_eq (by rw [length_ipv4Header])
  have hhl := headerLengthByte_ipv4Header total id protocol cs src dst []
  rw [List.append_nil] at hhl
  have hl : UInt16.ofNat ((20 : UInt16).toNat + d.length) = total := htl
  rw [hinfo, Eval.ok_bind, setPayload, hhl, Eval.ok_bind]
  simp only [hl]
  rw [hset, Eval.ok_bind, resize_of_le (by rw [htotal, length_ipv4Header]; omega), htotal,
    length_ipv4Header, Nat.add_sub_cancel_left, headerLengthByte_ipv4Header, Eval.ok_bind]
  change (copyInto d _ 20 : Eval Err Bytes) = _
  rw [copyInto_eq (by simp), hpatch]

/-- A payload that does not fit the total length is written past the end of the packet. -/
theorem packet_undefined (hd : 65515 < d.length) :
    ipv4Output.packet protocol d src dst id = Eval.undefined := by
  rw [ipv4Output.packet, header_eq, Eval.ok_bind]
  generalize ipv4Checksum (UInt16.ofNat (20 + d.length)) id protocol src dst = cs
  generalize UInt16.ofNat (20 + d.length) = total
  have hinfo : Ipv4Data.info (ipv4Header total id protocol cs src dst) = .ok () :=
    Ipv4Data.info_eq (by rw [length_ipv4Header])
  have hhl := headerLengthByte_ipv4Header total id protocol cs src dst []
  rw [List.append_nil] at hhl
  rw [hinfo, Eval.ok_bind]
  refine setPayload_undefined hhl ?_
  change 65536 ≤ 20 + d.length
  omega

/-- The packet in closed form. -/
def packetBytes : Bytes :=
  ipv4Header (UInt16.ofNat (20 + d.length)) id protocol
    (ipv4Checksum (UInt16.ofNat (20 + d.length)) id protocol src dst) src dst ++ d

theorem length_packetBytes : (packetBytes protocol d src dst id).length = 20 + d.length := by
  rw [packetBytes, List.length_append, length_ipv4Header]

/-- A packet is far from what a frame can hold. -/
theorem packetBytes_fits {protocol : UInt8} {d : Bytes} {src dst : UInt32} {id : UInt16}
    (hd : d.length ≤ 65515) : (packetBytes protocol d src dst id).length ≤ 2147483633 := by
  rw [length_packetBytes]
  omega

end Ipv4Output

theorem ipv4Output_keeps {Q : Stack → Prop} (hQ : IgnoresOutput Q) (cfg : Config) (protocol : UInt8)
    (d : Bytes) (src dst : UInt32) : (ipv4Output cfg protocol d src dst).Keeps Q := by
  unfold ipv4Output
  split
  · exact Comp.Keeps.throw _
  · refine (Comp.Keeps.lift _).bind fun route => ?_
    split
    · exact Comp.Keeps.throw _
    · have hid : ipGenId.Keeps Q := Comp.Keeps.read fun s hs =>
        (Comp.Keeps.set (hQ s _ s.sent hs)).bind fun _ => Comp.Keeps.pure _
      refine hid.bind fun id => (Comp.Keeps.lift _).bind fun packet => ?_
      refine (arpResolve_keeps hQ cfg _ _).bind fun hardwareAddr => ?_
      exact (EtherDevice.transmit_keeps hQ cfg _ _ _).bind fun _ => Comp.Keeps.pure _

/-- The tests of `ipv4_output` in front of the packet: there is a route, the source address is the
one of its interface or none, and a broadcast has one. -/
def Ipv4Output.Accepts (cfg : Config) (src dst : UInt32) : Prop :=
  ¬ (src = ipAddrAny ∧ dst = ipAddrBroadcast) ∧
    ∃ route, cfg.lookup dst = .ok route ∧ (src = ipAddrAny ∨ src = route.interface.unicast)

section

variable {cfg : Config} {route : Route} {routes : List Route} {protocol : UInt8} {d : Bytes}
  {src dst : UInt32} {s : Stack}

/-- An output that passes the tests: a packet is built, the gateway resolved, and the packet
transmitted. -/
theorem ipv4Output_accepted (hbc : ¬ (src = ipAddrAny ∧ dst = ipAddrBroadcast))
    (hlookup : cfg.lookup dst = .ok route)
    (hsrc : src = ipAddrAny ∨ src = route.interface.unicast) :
    (ipv4Output cfg protocol d src dst).run s =
      (do let ipv4Packet ← ipv4Output.packet protocol d src dst s.ipId
          let hardwareAddr ← arpResolve cfg route.interface route.gateway
          let _ ← EtherDevice.transmit cfg ipv4Packet hardwareAddr ipType
          return 0 : Call ℤ).run { s with ipId := s.ipId + 1 } := by
  have haccept : ¬ (src ≠ ipAddrAny ∧ src ≠ route.interface.unicast) := by
    rintro ⟨hany, huni⟩
    exact hsrc.elim hany huni
  have hid : ipGenId.run s = .done { s with ipId := s.ipId + 1 } s.ipId := rfl
  rw [ipv4Output, if_neg hbc, hlookup, Comp.lift_ok_bind, if_neg haccept, Comp.bind_done hid]

/-- Any other one does nothing: it throws, or there is no route to read. -/
theorem ipv4Output_refused (h : ¬ Ipv4Output.Accepts cfg src dst) :
    (ipv4Output cfg protocol d src dst).run s = .undef ∨
      ∃ e, (ipv4Output cfg protocol d src dst).run s = .threw s e := by
  rw [ipv4Output]
  by_cases hbc : src = ipAddrAny ∧ dst = ipAddrBroadcast
  · rw [if_pos hbc]
    exact Or.inr ⟨_, rfl⟩
  rw [if_neg hbc]
  rcases hlookup : cfg.lookup dst with (_ | e) | route
  · exact Or.inl rfl
  · exact Or.inr ⟨e, rfl⟩
  · rw [Comp.lift_ok_bind]
    split
    · exact Or.inr ⟨_, rfl⟩
    · rename_i hsrc
      exact absurd ⟨hbc, route, hlookup, or_iff_not_imp_left.mpr fun hany =>
        not_not.mp fun huni => hsrc ⟨hany, huni⟩⟩ h

/-- What `ipv4_output` comes down to for the source addresses it accepts: resolve the gateway, then
transmit the packet. -/
theorem ipv4Output_run (hr : cfg.routes = route :: routes)
    (hsrc : src = ipAddrAny ∨ src = route.interface.unicast)
    (hbc : ¬ (src = ipAddrAny ∧ dst = ipAddrBroadcast)) (hd : d.length ≤ 65515) :
    (ipv4Output cfg protocol d src dst).run s =
      (do let hardwareAddr ← arpResolve cfg route.interface route.gateway
          let _ ← EtherDevice.transmit cfg (Ipv4Output.packetBytes protocol d src dst s.ipId)
            hardwareAddr ipType
          return 0 : Call ℤ).run { s with ipId := s.ipId + 1 } := by
  have hlookup : cfg.lookup dst = .ok route := by rw [Config.lookup, hr]
  rw [ipv4Output_accepted hbc hlookup hsrc, Ipv4Output.packet_eq protocol d src dst s.ipId hd,
    Comp.lift_ok_bind]
  rfl

/-- **With the gateway cached** the packet goes out. -/
theorem ipv4Output_hit {c : CacheData} (hr : cfg.routes = route :: routes)
    (hsrc : src = ipAddrAny ∨ src = route.interface.unicast)
    (hbc : ¬ (src = ipAddrAny ∧ dst = ipAddrBroadcast)) (hd : d.length ≤ 65515)
    (hc : ArpCache.select s.arpCache route.gateway = some c) (h6 : c.hardwareAddress.length = 6) :
    (ipv4Output cfg protocol d src dst).run s =
      .done { s with
        ipId := s.ipId + 1
        sent := s.sent ++ [EtherDevice.frameBytes cfg.address
          (Ipv4Output.packetBytes protocol d src dst s.ipId) c.hardwareAddress ipType] } 0 := by
  have hresolve : (arpResolve cfg route.interface route.gateway).run { s with ipId := s.ipId + 1 } =
      .done { s with ipId := s.ipId + 1 } c.hardwareAddress := arpResolve_hit hc
  rw [ipv4Output_run hr hsrc hbc hd, Comp.bind_done hresolve,
    Comp.bind_done (EtherDevice.transmit_eq cfg _ _ _ h6
      (Nat.le_succ_of_le (Ipv4Output.packetBytes_fits hd)))]
  rfl

/-- **Without it** the packet is gone: an ARP request goes out in its place, and an exception is
thrown. -/
theorem ipv4Output_miss (hr : cfg.routes = route :: routes)
    (hsrc : src = ipAddrAny ∨ src = route.interface.unicast)
    (hbc : ¬ (src = ipAddrAny ∧ dst = ipAddrBroadcast)) (hd : d.length ≤ 65515)
    (hc : ArpCache.select s.arpCache route.gateway = none) :
    (ipv4Output cfg protocol d src dst).run s =
      .threw { s with
        ipId := s.ipId + 1
        sent := s.sent ++ [EtherDevice.frameBytes cfg.address
          (ArpPacket.request cfg.address route.interface.unicast route.gateway).encode
          EtherDevice.broadcastAddress arpType] }
        (.arpResolveException "not find arp cache. call arp reqest") := by
  rw [ipv4Output_run hr hsrc hbc hd]
  exact Comp.bind_threw (arpResolve_miss hc)

end

/-! ## Input -/

/-- `ipv4::Ipv4ProtocolData` -/
structure Ipv4ProtocolData : Type where
  type : UInt8
  data : Bytes
  src : UInt32
  dst : UInt32
  interface : IpNetworkInterface

/-- `ipv4::protocolHandlers` -/
abbrev Ipv4ProtocolHandlers : Type := UInt8 → Option (Ipv4ProtocolData → Call ℤ)

namespace Ipv4ProtocolHandler

/-- `Ipv4ProtocolHandler::handle`. The log lines in front read the whole header. -/
def handle (cfg : Config) (protocolHandlers : Ipv4ProtocolHandlers) (protocolData : ProtocolData) :
    Call ℤ := do
  let ipv4Packet := protocolData.data
  let _ ← src ipv4Packet
  let _ ← dst ipv4Packet
  let _ ← protocol ipv4Packet
  let _ ← headerLength ipv4Packet
  Ipv4Data.info ipv4Packet
  let valid ← verifyHeader ipv4Packet
  if valid = false then throwRuntime "invalid header"
  else
    let protocol ← protocol ipv4Packet
    let data ← payload ipv4Packet
    match ← Device.getTargetInterface cfg interfaceFamilyIp with
    | .ip ipNetworkInterface =>
      let dst ← dst ipv4Packet
      if ipNetworkInterface.unicast ≠ dst then throwRuntime "ip not match error"
      else
        match protocolHandlers protocol with
        | none => return 0
        | some handler =>
          let src ← src ipv4Packet
          let _ ← handler ⟨protocol, data, src, dst, ipNetworkInterface⟩
          return 0
    | .other _ => throwRuntime "cast error"

end Ipv4ProtocolHandler

/-- The handler keeps what all handlers behind it keep. -/
theorem Ipv4ProtocolHandler.handle_keeps {Q : Stack → Prop} (cfg : Config)
    {protocolHandlers : Ipv4ProtocolHandlers}
    (hhandlers : ∀ protocol handler, protocolHandlers protocol = some handler →
      ∀ d, (handler d).Keeps Q)
    (pd : ProtocolData) : (handle cfg protocolHandlers pd).Keeps Q := by
  refine (Comp.Keeps.lift _).bind fun _ => (Comp.Keeps.lift _).bind fun _ => ?_
  refine (Comp.Keeps.lift _).bind fun _ => (Comp.Keeps.lift _).bind fun _ => ?_
  refine (Comp.Keeps.lift _).bind fun _ => (Comp.Keeps.lift _).bind fun valid => ?_
  split
  · exact Comp.Keeps.throw _
  refine (Comp.Keeps.lift _).bind fun protocol => (Comp.Keeps.lift _).bind fun data => ?_
  refine (Comp.Keeps.lift _).bind fun interface => ?_
  cases interface with
  | other family => exact Comp.Keeps.throw _
  | ip interface =>
    refine (Comp.Keeps.lift _).bind fun dst => ?_
    split
    · exact Comp.Keeps.throw _
    cases hp : protocolHandlers protocol with
    | none => exact Comp.Keeps.pure _
    | some handler =>
      refine (Comp.Keeps.lift _).bind fun src => ?_
      exact (hhandlers protocol handler hp _).bind fun _ => Comp.Keeps.pure _

/-- A body that holds a whole packet: a header of at least five words, inside the total length,
inside the body. -/
structure Ipv4Data.Complete (data : Bytes) : Prop where
  header : 20 ≤ headerBytes data
  total : headerBytes data ≤ (u16 data 2).toNat
  body : (u16 data 2).toNat ≤ data.length

/-- The bytes `payload` returns for such a body. -/
def Ipv4Data.payloadBytes (data : Bytes) : Bytes :=
  (data.take (u16 data 2).toNat).drop (headerBytes data)

/-- The payload, by the two length fields alone. -/
theorem Ipv4Data.payload_run {data : Bytes} (h20 : 20 ≤ data.length) :
    payload data =
      if (u16 data 2).toNat < headerBytes data then Eval.throwing .lengthError
      else if data.length < (u16 data 2).toNat then Eval.undefined
      else .ok (payloadBytes data) := by
  rw [payload, totalLength, readUint16_eq (by omega), headerLengthByte_eq (by omega), Eval.ok_bind,
    Eval.ok_bind, toNat_headerBytes]
  by_cases htotal : (u16 data 2).toNat < headerBytes data
  · rw [if_pos htotal, if_pos (by omega)]
  · rw [if_neg htotal, if_neg (by omega), Eval.ok_bind, Eval.ok_bind, toNat_headerBytes, slice]
    by_cases hbody : data.length < (u16 data 2).toNat
    · rw [if_pos hbody, if_neg (by omega)]
    · rw [if_neg hbody, if_pos (by omega)]
      rfl

namespace Ipv4Data.Complete

variable {data : Bytes}

theorem le_length (h : Complete data) : 20 ≤ data.length :=
  h.header.trans (h.total.trans h.body)

theorem info_eq (h : Complete data) : info data = .ok () :=
  Ipv4Data.info_eq h.le_length

theorem payload_eq (h : Complete data) : payload data = .ok (payloadBytes data) := by
  rw [payload_run h.le_length, if_neg (Nat.not_lt_of_le h.total), if_neg (Nat.not_lt_of_le h.body)]

/-- The payload of a packet fits into another one. -/
theorem length_payloadBytes (h : Complete data) : (payloadBytes data).length ≤ 65515 := by
  have hlt := (u16 data 2).toNat_lt
  have hheader := h.header
  rw [payloadBytes, List.length_drop, List.length_take]
  omega

end Ipv4Data.Complete

/-- **Every packet.** The checks of `handle`, and the handler it is passed to. -/
theorem Ipv4ProtocolHandler.handle_packet {address : EtherAddr} {unicast gateway : UInt32}
    {protocolHandlers : Ipv4ProtocolHandlers} {pd : ProtocolData} (hc : Complete pd.data)
    (s : Stack) :
    (handle (Config.ofMain address unicast gateway) protocolHandlers pd).run s =
      if ¬ HeaderVerifies pd.data then .threw s (.runtimeError "invalid header")
      else if unicast ≠ u32 pd.data 16 then .threw s (.runtimeError "ip not match error")
      else match protocolHandlers (u8 pd.data 9) with
        | none => .done s 0
        | some handler =>
          (handler ⟨u8 pd.data 9, payloadBytes pd.data, u32 pd.data 12, u32 pd.data 16,
            ⟨interfaceFamilyIp, unicast⟩⟩ >>= fun _ => pure 0 : Call ℤ).run s := by
  have hlen := hc.le_length
  have hsrc : src pd.data = .ok (u32 pd.data 12) := readUint32_eq (by omega)
  have hdst : dst pd.data = .ok (u32 pd.data 16) := readUint32_eq (by omega)
  have hprotocol : protocol pd.data = .ok (u8 pd.data 9) := readUint8_eq (by omega)
  rw [handle, hsrc, Comp.lift_ok_bind, hdst, Comp.lift_ok_bind, hprotocol, Comp.lift_ok_bind,
    headerLength_eq (by omega), Comp.lift_ok_bind, hc.info_eq, Comp.lift_ok_bind,
    verifyHeader_eq (by omega) (hc.total.trans hc.body), Comp.lift_ok_bind]
  by_cases hv : HeaderVerifies pd.data
  · rw [if_neg (not_not.mpr hv), if_neg (by simpa using hv), Comp.lift_ok_bind, hc.payload_eq,
      Comp.lift_ok_bind, Device.getTargetInterface_ofMain, Comp.lift_ok_bind]
    dsimp only
    rw [Comp.lift_ok_bind]
    by_cases hdst : unicast = u32 pd.data 16
    · rw [if_neg (not_not.mpr hdst), if_neg (not_not.mpr hdst)]
      cases protocolHandlers (u8 pd.data 9) with
      | none => rfl
      | some handler => rfl
    · rw [if_pos hdst, if_pos hdst]
      rfl
  · rw [if_pos hv, if_pos (by simpa using hv)]
    rfl

end Suika
