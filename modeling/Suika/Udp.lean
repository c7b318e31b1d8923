import Suika.Icmp

/-!
# UDP segments

`lib/UdpData.h` and the segment half of `lib/Udp.cpp`: what `udp_output` builds and what
`UdpHandler::handle` makes of a segment it is given.

Two things in the codec decide most of what follows. `UdpData::payload` sizes its result from the
length field, which counts the 8 bytes of the header, and copies everything behind the header into
it: the two sizes are not compared. And the checksum folds the pseudo header and the segment
separately, once each, before it folds their sum.
-/

namespace Suika

open Cpp BinaryPayload OnesComplement

/-! ## `UdpData` and `PseudoHeader` -/

namespace UdpData

abbrev headerSize : ℕ := 8

def srcPort (data : Bytes) : Eval Err UInt16 := readUint16 data 0

def setSrcPort (data : Bytes) (value : UInt16) : Eval Err Bytes := writeUint16 data value 0

def dstPort (data : Bytes) : Eval Err UInt16 := readUint16 data 2

def setDstPort (data : Bytes) (value : UInt16) : Eval Err Bytes := writeUint16 data value 2

def length (data : Bytes) : Eval Err UInt16 := readUint16 data 4

def setLength (data : Bytes) (value : UInt16) : Eval Err Bytes := writeUint16 data value 4

def checksum (data : Bytes) : Eval Err UInt16 := readUint16 data 6

def setChecksum (data : Bytes) (value : UInt16) : Eval Err Bytes := writeUint16 data value 6

/-- The result has the size the length field says; everything behind the header is copied into
it. -/
def payload (data : Bytes) : Eval Err Bytes := do
  let ret := List.replicate (← length data).toNat 0
  copyInto (← slice data headerSize data.length) ret 0

def setPayload (data d : Bytes) : Eval Err Bytes :=
  let l := UInt16.ofNat (headerSize + d.length)
  copyInto d (resize data l.toNat) headerSize

def info (data : Bytes) : Eval Err String := do
  return s!"srcPort = {← srcPort data}, destPort = {← dstPort data}, length = {← length data}, " ++
    s!"checksum = {← checksum data}"

end UdpData

namespace PseudoHeader

/-- `PseudoHeader()` -/
def empty : Bytes := List.replicate 12 0

def setSrcIp (data : Bytes) (value : UInt32) : Eval Err Bytes := writeUint32 data value 0

def setDestIp (data : Bytes) (value : UInt32) : Eval Err Bytes := writeUint32 data value 4

def setProtocol (data : Bytes) (value : UInt8) : Eval Err Bytes := writeUint8 data value 9

def setLength (data : Bytes) (value : UInt16) : Eval Err Bytes := writeUint16 data value 10

end PseudoHeader

/-! ## Output and input -/

/-- The lines that `udp_output` and `UdpHandler::handle` share: the complement of the folded sum
over pseudo header and segment. -/
def udpChecksum (src dst : UInt32) (segment : Bytes) : Eval Err UInt16 := do
  let pseudo ← PseudoHeader.setSrcIp PseudoHeader.empty src
  let pseudo ← PseudoHeader.setDestIp pseudo dst
  let pseudo ← PseudoHeader.setProtocol pseudo udpType
  let pseudo ← PseudoHeader.setLength pseudo (UInt16.ofNat segment.length)
  let pseudoChecksum ← calculateChecksum pseudo 0 (intOfSize pseudo.length)
  let payloadChecksum ← calculateChecksum segment 0 (intOfSize segment.length)
  let tmpVec := [pseudoChecksum, payloadChecksum]
  return ~~~ calculateChecksumUint16 tmpVec 0 (intOfSize tmpVec.length)

/-- The segment of `udp_output`, up to its last `checksum`. -/
def udpOutput.segment (src dest : IpEndpoint) (data : Bytes) : Eval Err Bytes := do
  let payload ← UdpData.setSrcPort (List.replicate UdpData.headerSize 0) src.port
  let payload ← UdpData.setDstPort payload dest.port
  let payload ← UdpData.setPayload payload data
  let payload ← UdpData.setChecksum payload 0
  let payload ← UdpData.setLength payload (UInt16.ofNat payload.length)
  let checksum ← udpChecksum src.addr dest.addr payload
  UdpData.setChecksum payload checksum

/-- `udp_output`. The pseudo header it also logs always has its 12 bytes. -/
def udpOutput (cfg : Config) (src dest : IpEndpoint) (data : Bytes) : Call ℤ := do
  let payload ← udpOutput.segment src dest data
  let _ ← UdpData.info payload
  ipv4Output cfg udpType payload src.addr dest.addr

/-- `UdpHandler::handle` -/
def UdpHandler.handle (protocolData : Ipv4ProtocolData) : Call ℤ := do
  let payload := protocolData.data
  let checksum ← udpChecksum protocolData.src protocolData.dst payload
  if checksum ≠ 0 then
    throwRuntime s!"udp checksum error invalid payload {← UdpData.info payload}"
  else
    let _ ← UdpData.info payload
    let s ← Comp.get
    match s.udpPcbMgr.select protocolData.dst (← UdpData.dstPort payload) with
    | none =>
      let _ ← UdpData.info payload
      return -1
    | some i =>
      let endpoint : IpEndpoint := ⟨protocolData.src, ← UdpData.srcPort payload⟩
      let pcbPayload : UdpPcbPayload := ⟨← UdpData.payload payload, endpoint⟩
      Comp.set { s with
        udpPcbMgr := s.udpPcbMgr.modify i fun pcb => { pcb with que := pcb.que ++ [pcbPayload] } }
      return 0

/-! ## Segments as fields -/

/-- A segment, as its fields. -/
def udpSegment (srcPort dstPort length checksum : UInt16) (d : Bytes) : Bytes :=
  be16 srcPort ++ be16 dstPort ++ be16 length ++ be16 checksum ++ d

/-- The plain sum of the pseudo header. -/
def pseudoSum (src dst : UInt32) (length : UInt16) : ℕ :=
  (src.toNat / 65536 + src.toNat % 65536) + (dst.toNat / 65536 + dst.toNat % 65536) + 17 +
    length.toNat

/-- The plain sum of a segment without its checksum. -/
def segmentSum (srcPort dstPort length : UInt16) (d : Bytes) : ℕ :=
  srcPort.toNat + dstPort.toNat + length.toNat + wordSum d

namespace UdpData

section

variable (srcPort dstPort length checksum : UInt16) (d : Bytes)

@[simp] theorem length_udpSegment :
    (udpSegment srcPort dstPort length checksum d).length = 8 + d.length := by
  simp only [udpSegment, List.length_append, length_be16]

theorem srcPort_udpSegment :
    UdpData.srcPort (udpSegment srcPort dstPort length checksum d) = .ok srcPort :=
  congrArg Except.ok (join16_be16 srcPort)

theorem dstPort_udpSegment :
    UdpData.dstPort (udpSegment srcPort dstPort length checksum d) = .ok dstPort :=
  congrArg Except.ok (join16_be16 dstPort)

theorem drop_udpSegment : (udpSegment srcPort dstPort length checksum d).drop 8 = d := rfl

theorem wordSum_udpSegment :
    wordSum (udpSegment srcPort dstPort length checksum d) =
      segmentSum srcPort dstPort length d + checksum.toNat := by
  rw [udpSegment, wordSum_append (by simp), wordSum_append (by simp), wordSum_append (by simp),
    wordSum_append (by simp), wordSum_be16, wordSum_be16, wordSum_be16, wordSum_be16, segmentSum]
  omega

end

variable {data : Bytes}

/-- The log line reads the 8 bytes of the header. -/
theorem info_short (h : data.length < 8) : info data = Eval.undefined := by
  apply (readUint16_quiet data 0).bind_undefined
  intro _
  apply (readUint16_quiet data 2).bind_undefined
  intro _
  apply (readUint16_quiet data 4).bind_undefined
  intro _
  rw [checksum, readUint16_undefined (by omega)]
  rfl

theorem exists_info (h8 : 8 ≤ data.length) : ∃ text, info data = .ok text := by
  rw [info, srcPort, readUint16_eq (by omega), dstPort, readUint16_eq (by omega), length,
    readUint16_eq (by omega), checksum, readUint16_eq (by omega)]
  exact ⟨_, rfl⟩

/-- A payload that makes the size wrap is copied past the end of the vector. -/
theorem setPayload_undefined {d : Bytes} (hd : 65536 ≤ 8 + d.length) :
    setPayload data d = Eval.undefined := by
  refine copyInto_undefined ?_
  rw [length_resize, UInt16.toNat_ofNat', headerSize]
  omega

/-- The bytes `payload` returns, when it returns: what lies behind the header, and zeros up to the
length field. -/
def payloadBytes (data : Bytes) : Bytes :=
  data.drop headerSize ++ List.replicate ((u16 data 4).toNat - (data.length - headerSize)) 0

/-- With a length field that leaves room for the copy. -/
theorem payload_eq (h8 : 8 ≤ data.length) (hfit : data.length - 8 ≤ (u16 data 4).toNat) :
    payload data = .ok (payloadBytes data) := by
  have hdrop : (data.drop headerSize).length = data.length - 8 := List.length_drop
  rw [payload, length, readUint16_eq (by omega), Eval.ok_bind, slice, if_pos ⟨h8, Nat.le_refl _⟩,
    List.take_length, Eval.ok_bind, copyInto_eq (by rw [List.length_replicate]; omega)]
  simp only [patch, payloadBytes, List.take_zero, List.nil_append, Nat.zero_add,
    List.drop_replicate, List.length_drop]

/-- Without that room the copy runs past the end of the result. -/
theorem payload_undefined (h8 : 8 ≤ data.length) (hfit : (u16 data 4).toNat < data.length - 8) :
    payload data = Eval.undefined := by
  have hdrop : (data.drop headerSize).length = data.length - 8 := List.length_drop
  rw [payload, length, readUint16_eq (by omega), Eval.ok_bind, slice, if_pos ⟨h8, Nat.le_refl _⟩,
    List.take_length, Eval.ok_bind, copyInto, if_neg (by rw [List.length_replicate]; omega)]

theorem length_payloadBytes (hfit : data.length - 8 ≤ (u16 data 4).toNat) :
    (payloadBytes data).length = (u16 data 4).toNat := by
  have hdrop : (data.drop headerSize).length = data.length - 8 := List.length_drop
  rw [payloadBytes, List.length_append, hdrop, List.length_replicate, headerSize]
  omega

end UdpData

/-! ## The checksum -/

/-- The pseudo header is folded first, whatever the segment. -/
theorem udpChecksum_pseudo (src dst : UInt32) (segment : Bytes) :
    udpChecksum src dst segment = (do
      let payloadChecksum ← calculateChecksum segment 0 (intOfSize segment.length)
      let tmpVec :=
        [UInt16.ofNat (fold16 (pseudoSum src dst (UInt16.ofNat segment.length))), payloadChecksum]
      return ~~~ calculateChecksumUint16 tmpVec 0 (intOfSize tmpVec.length)) := by
  generalize hlen : UInt16.ofNat segment.length = len
  have hsrc : PseudoHeader.setSrcIp PseudoHeader.empty src =
      .ok (be32 src ++ List.replicate 8 0) := rfl
  have hdst : PseudoHeader.setDestIp (be32 src ++ List.replicate 8 0) dst =
      .ok (be32 src ++ be32 dst ++ List.replicate 4 0) := rfl
  have hprotocol : PseudoHeader.setProtocol (be32 src ++ be32 dst ++ List.replicate 4 0) udpType =
      .ok (be32 src ++ be32 dst ++ [0, 17, 0, 0]) := rfl
  have hlength : PseudoHeader.setLength (be32 src ++ be32 dst ++ [0, 17, 0, 0]) len =
      .ok (be32 src ++ be32 dst ++ [0, 17] ++ be16 len) := rfl
  have hsum : wordSum (be32 src ++ be32 dst ++ [0, 17] ++ be16 len) = pseudoSum src dst len := by
    rw [wordSum_append (by simp), wordSum_append (by simp), wordSum_append (by simp), wordSum_be32,
      wordSum_be32, wordSum_be16, pseudoSum]
    rfl
  rw [udpChecksum, hsrc, Eval.ok_bind, hdst, Eval.ok_bind, hprotocol, Eval.ok_bind, hlen, hlength,
    Eval.ok_bind, calculateChecksum_all (by simp) (by simp), hsum, Eval.ok_bind]

/-- Checksums throw nothing. -/
theorem udpChecksum_quiet (src dst : UInt32) (segment : Bytes) :
    (udpChecksum src dst segment).Quiet := by
  rw [udpChecksum_pseudo]
  exact (calculateChecksum_quiet _ _ _).bind fun _ => Eval.Quiet.ok _

/-- The checksum in closed form, for any even number of bytes. -/
theorem udpChecksum_eq (src dst : UInt32) {segment : Bytes} (hev : segment.length % 2 = 0)
    (hn : segment.length ≤ 131072) :
    udpChecksum src dst segment =
      .ok (~~~ UInt16.ofNat (fold16 (fold16 (pseudoSum src dst (UInt16.ofNat segment.length)) +
        fold16 (wordSum segment)))) := by
  rw [udpChecksum_pseudo, calculateChecksum_all hev hn, Eval.ok_bind]
  dsimp only
  rw [calculateChecksumUint16_pair, toNat_ofNat_fold16, toNat_ofNat_fold16]
  rfl

/-- The checksum of an odd number of bytes leaves defined behaviour. -/
theorem udpChecksum_odd (src dst : UInt32) {segment : Bytes} (hodd : segment.length % 2 = 1)
    (hn : segment.length < 2147483648) : udpChecksum src dst segment = Eval.undefined := by
  rw [udpChecksum_pseudo, calculateChecksum_odd hodd hn]
  rfl

/-- A segment passes the test of the handler when both folded parts add up to a representation of
zero. -/
def ChecksumAccepts (src dst : UInt32) (segment : Bytes) : Prop :=
  fold16 (fold16 (pseudoSum src dst (UInt16.ofNat segment.length)) + fold16 (wordSum segment)) =
    65535

instance (src dst : UInt32) (segment : Bytes) : Decidable (ChecksumAccepts src dst segment) :=
  inferInstanceAs (Decidable (_ = _))

theorem udpChecksum_eq_zero_iff {src dst : UInt32} {segment : Bytes}
    (hev : segment.length % 2 = 0) (hn : segment.length ≤ 131072) :
    udpChecksum src dst segment = .ok 0 ↔ ChecksumAccepts src dst segment := by
  rw [udpChecksum_eq src dst hev hn, ChecksumAccepts]
  have hval := toNat_not_fold16 (fold16 (pseudoSum src dst (UInt16.ofNat segment.length)) +
    fold16 (wordSum segment))
  have hle := fold16_le (fold16 (pseudoSum src dst (UInt16.ofNat segment.length)) +
    fold16 (wordSum segment))
  refine ⟨?_, ?_⟩
  · intro h
    rw [Except.ok.inj h, UInt16.toNat_zero] at hval
    omega
  · intro h
    refine congrArg Except.ok (UInt16.toNat_inj.mp ?_)
    rw [hval, h]
    rfl

/-! ## What is sent -/

/-- The checksum `udp_output` writes. -/
def udpOutput.checksum (src dest : IpEndpoint) (d : Bytes) : UInt16 :=
  let length := UInt16.ofNat (8 + d.length)
  ~~~ UInt16.ofNat (fold16 (fold16 (pseudoSum src.addr dest.addr length) +
    fold16 (segmentSum src.port dest.port length d)))

/-- The segment before its checksum is computed. -/
def udpOutput.unsummed (src dest : IpEndpoint) (data : Bytes) : Eval Err Bytes := do
  let payload ← UdpData.setSrcPort (List.replicate UdpData.headerSize 0) src.port
  let payload ← UdpData.setDstPort payload dest.port
  let payload ← UdpData.setPayload payload data
  let payload ← UdpData.setChecksum payload 0
  UdpData.setLength payload (UInt16.ofNat payload.length)

theorem udpOutput.segment_eq_unsummed (src dest : IpEndpoint) (d : Bytes) :
    udpOutput.segment src dest d = (do
      let payload ← udpOutput.unsummed src dest d
      let checksum ← udpChecksum src.addr dest.addr payload
      UdpData.setChecksum payload checksum) := by
  simp only [udpOutput.segment, udpOutput.unsummed, bind_assoc]

/-- A payload with room in front of it for the header goes into the segment as it is. -/
theorem udpOutput.unsummed_eq (src dest : IpEndpoint) {d : Bytes} (hd : d.length + 8 ≤ 65535) :
    udpOutput.unsummed src dest d =
      .ok (udpSegment src.port dest.port (UInt16.ofNat (8 + d.length)) 0 d) := by
  have hmod : (UInt16.ofNat (8 + d.length)).toNat = 8 + d.length := by
    rw [UInt16.toNat_ofNat', Nat.mod_eq_of_lt (by omega)]
  have hsrc : UdpData.setSrcPort (List.replicate UdpData.headerSize 0) src.port =
      .ok (be16 src.port ++ List.replicate 6 0) := rfl
  have hdst : UdpData.setDstPort (be16 src.port ++ List.replicate 6 0) dest.port =
      .ok (udpSegment src.port dest.port 0 0 []) := rfl
  have hpayload : UdpData.setPayload (udpSegment src.port dest.port 0 0 []) d =
      .ok (udpSegment src.port dest.port 0 0 d) := by
    have hpatch := patch_append (udpSegment src.port dest.port 0 0 [])
      (List.replicate d.length 0) [] d (by rfl) List.length_replicate
    rw [List.append_nil, List.append_nil] at hpatch
    have hlen : (udpSegment src.port dest.port 0 0 []).length = 8 := rfl
    rw [UdpData.setPayload, UdpData.headerSize, hmod, resize_of_le (by rw [hlen]; omega), hlen,
      Nat.add_sub_cancel_left,
      copyInto_eq (by rw [List.length_append, hlen, List.length_replicate])]
    exact congrArg Except.ok hpatch
  have hchecksum : UdpData.setChecksum (udpSegment src.port dest.port 0 0 d) 0 =
      .ok (udpSegment src.port dest.port 0 0 d) := rfl
  -- the length written last is that of the whole vector, header included
  rw [udpOutput.unsummed, hsrc, Eval.ok_bind, hdst, Eval.ok_bind, hpayload, Eval.ok_bind, hchecksum,
    Eval.ok_bind, UdpData.length_udpSegment]
  rfl

/-- Any other payload is written past the end of it. -/
theorem udpOutput.unsummed_undefined (src dest : IpEndpoint) {d : Bytes}
    (hd : 65535 < d.length + 8) : udpOutput.unsummed src dest d = Eval.undefined := by
  refine (writeUint16_quiet _ _ 0).bind_undefined fun _ => ?_
  refine (writeUint16_quiet _ _ 2).bind_undefined fun _ => ?_
  rw [UdpData.setPayload_undefined (by omega)]
  rfl

theorem UdpData.setChecksum_udpSegment (srcPort dstPort length checksum cs : UInt16) (d : Bytes) :
    UdpData.setChecksum (udpSegment srcPort dstPort length checksum d) cs =
      .ok (udpSegment srcPort dstPort length cs d) := rfl

/-- The segment in closed form: its length field counts the header. -/
theorem udpOutput.segment_eq (src dest : IpEndpoint) {d : Bytes} (hev : d.length % 2 = 0)
    (hd : d.length + 8 ≤ 65535) :
    udpOutput.segment src dest d =
      .ok (udpSegment src.port dest.port (UInt16.ofNat (8 + d.length))
        (udpOutput.checksum src dest d) d) := by
  have hlen : (udpSegment src.port dest.port (UInt16.ofNat (8 + d.length)) 0 d).length =
      8 + d.length := UdpData.length_udpSegment _ _ _ _ _
  rw [udpOutput.segment_eq_unsummed, udpOutput.unsummed_eq src dest hd, Eval.ok_bind,
    udpChecksum_eq _ _ (by rw [hlen]; omega) (by rw [hlen]; omega), Eval.ok_bind, hlen,
    UdpData.wordSum_udpSegment, UdpData.setChecksum_udpSegment, UInt16.toNat_zero, Nat.add_zero,
    udpOutput.checksum]

theorem udpOutput_keeps {Q : Stack → Prop} (hQ : IgnoresOutput Q) (cfg : Config)
    (src dest : IpEndpoint) (d : Bytes) : (udpOutput cfg src dest d).Keeps Q :=
  (Comp.Keeps.lift _).bind fun _ => (Comp.Keeps.lift _).bind fun _ =>
    ipv4Output_keeps hQ cfg _ _ _ _

/-! ## What is received -/

namespace UdpHandler

variable {d : Ipv4ProtocolData} {s t : Stack} {i : ℕ}

/-- The datagram a segment becomes. -/
def datagram (d : Ipv4ProtocolData) : UdpPcbPayload :=
  ⟨UdpData.payloadBytes d.data, ⟨d.src, u16 d.data 0⟩⟩

/-- The state with a datagram queued on a block. -/
def deliver (s : Stack) (i : ℕ) (datagram : UdpPcbPayload) : Stack :=
  { s with udpPcbMgr := s.udpPcbMgr.modify i fun pcb => { pcb with que := pcb.que ++ [datagram] } }

/-- **An accepted segment** goes to the block `select` finds, if the copy of its payload stays in
bounds. -/
theorem handle_accepted (h8 : 8 ≤ d.data.length) (hc : udpChecksum d.src d.dst d.data = .ok 0) :
    (handle d).run s =
      match s.udpPcbMgr.select d.dst (u16 d.data 2) with
      | none => .done s (-1)
      | some i =>
        if d.data.length - 8 ≤ (u16 d.data 4).toNat then .done (deliver s i (datagram d)) 0
        else .undef := by
  obtain ⟨text, htext⟩ := UdpData.exists_info h8
  have hdst : UdpData.dstPort d.data = .ok (u16 d.data 2) := readUint16_eq (by omega)
  have hsrc : UdpData.srcPort d.data = .ok (u16 d.data 0) := readUint16_eq (by omega)
  rw [handle, hc, Comp.lift_ok_bind, if_neg (fun hne => hne rfl), htext, Comp.lift_ok_bind,
    Comp.run_get_bind, hdst, Comp.lift_ok_bind]
  cases s.udpPcbMgr.select d.dst (u16 d.data 2) with
  | none => rfl
  | some i =>
    dsimp only
    rw [hsrc, Comp.lift_ok_bind]
    by_cases hfit : d.data.length - 8 ≤ (u16 d.data 4).toNat
    · rw [if_pos hfit, UdpData.payload_eq h8 hfit]
      rfl
    · rw [if_neg hfit, UdpData.payload_undefined h8 (by omega)]
      rfl

/-- **A rejected segment** ends in the exception the checksum test throws. -/
theorem handle_rejected (h8 : 8 ≤ d.data.length) (hev : d.data.length % 2 = 0)
    (hn : d.data.length ≤ 131072) (hc : ¬ ChecksumAccepts d.src d.dst d.data) :
    ∃ text, UdpData.info d.data = .ok text ∧
      (handle d).run s =
        .threw s (.runtimeError s!"udp checksum error invalid payload {text}") := by
  obtain ⟨text, htext⟩ := UdpData.exists_info h8
  have hne : ¬ udpChecksum d.src d.dst d.data = .ok 0 := fun h =>
    hc ((udpChecksum_eq_zero_iff hev hn).mp h)
  rw [udpChecksum_eq _ _ hev hn] at hne
  refine ⟨text, htext, ?_⟩
  rw [handle, udpChecksum_eq _ _ hev hn, Comp.lift_ok_bind, if_pos (fun h => hne (congrArg _ h)),
    htext, Comp.lift_ok_bind]
  rfl

/-- A segment without a whole header is left by the text of the log line or of the error. -/
theorem handle_short (h : d.data.length < 8) (s : Stack) : (handle d).run s = .undef := by
  apply Comp.lift_bind_undef (udpChecksum_quiet d.src d.dst d.data)
  intro checksum
  split <;> rw [UdpData.info_short h] <;> rfl

/-- A handler that returns had a whole header in front of it and a checksum that fits. -/
theorem accepted_of_done {v : ℤ} (hdone : (handle d).run s = .done t v) :
    8 ≤ d.data.length ∧ udpChecksum d.src d.dst d.data = .ok 0 := by
  have h := hdone
  rw [handle] at h
  -- kept opaque: what the checksum is does not matter here
  generalize udpChecksum d.src d.dst d.data = checksum at h ⊢
  obtain ⟨cs, hcs, h⟩ := Comp.lift_bind_eq_done h
  split at h
  · obtain ⟨_, _, -, h⟩ := Comp.bind_eq_done h
    cases h
  · rename_i hzero
    refine ⟨?_, by rw [hcs, not_not.mp hzero]⟩
    by_contra hlt
    rw [handle_short (Nat.lt_of_not_le hlt)] at hdone
    cases hdone

/-- **What a handler that returns did**: nothing, when no block covers the destination; else it
queued one datagram on the block `select` found. -/
theorem handle_eq_done {v : ℤ} (h : (handle d).run s = .done t v) :
    (v = -1 ∧ t = s ∧ s.udpPcbMgr.select d.dst (u16 d.data 2) = none) ∨
      ∃ i, v = 0 ∧ s.udpPcbMgr.select d.dst (u16 d.data 2) = some i ∧
        t = deliver s i (datagram d) := by
  obtain ⟨h8, hc⟩ := accepted_of_done h
  rw [handle_accepted h8 hc] at h
  cases hsel : s.udpPcbMgr.select d.dst (u16 d.data 2) with
  | none =>
    rw [hsel] at h
    cases h
    exact Or.inl ⟨rfl, rfl, rfl⟩
  | some i =>
    rw [hsel] at h
    dsimp only at h
    split at h
    · cases h
      exact Or.inr ⟨i, rfl, rfl, rfl⟩
    · cases h

/-- A handler that throws did nothing. -/
theorem handle_eq_threw {e : Err} (h : (handle d).run s = .threw t e) : t = s := by
  rw [handle] at h
  generalize udpChecksum d.src d.dst d.data = checksum at h
  obtain ht | ⟨cs, hcs, h⟩ := Comp.lift_bind_eq_threw h
  · exact ht
  split at h
  · obtain ht | ⟨text, htext, h⟩ := Comp.lift_bind_eq_threw h
    · exact ht
    · cases h
      rfl
  · obtain ht | ⟨text, htext, h⟩ := Comp.lift_bind_eq_threw h
    · exact ht
    rw [Comp.run_get_bind] at h
    obtain ht | ⟨port, hport, h⟩ := Comp.lift_bind_eq_threw h
    · exact ht
    split at h
    · obtain ht | ⟨_, _, h⟩ := Comp.lift_bind_eq_threw h
      · exact ht
      · cases h
    · obtain ht | ⟨_, _, h⟩ := Comp.lift_bind_eq_threw h
      · exact ht
      obtain ht | ⟨_, _, h⟩ := Comp.lift_bind_eq_threw h
      · exact ht
      · cases h

theorem handle_keeps {Q : Stack → Prop} (hQ : ∀ s i datagram, Q s → Q (deliver s i datagram))
    (d : Ipv4ProtocolData) : (handle d).Keeps Q := by
  intro s t hs ht
  rcases hr : (handle d).run s with ⟨u, v⟩ | ⟨u, e⟩ | _ | _ <;> rw [hr] at ht <;> cases ht
  · obtain ⟨-, rfl, -⟩ | ⟨i, -, -, rfl⟩ := handle_eq_done hr
    · exact hs
    · exact hQ s i _ hs
  · rw [handle_eq_threw hr]
    exact hs

/-- A segment the handler accepts: a whole header, an even number of bytes, a checksum that fits;
and if there is a block for it, a length field that covers the data behind the header. -/
structure Accepts (s : Stack) (src dst : UInt32) (segment : Bytes) : Prop where
  header : 8 ≤ segment.length
  even : segment.length % 2 = 0
  checksum : ChecksumAccepts src dst segment
  room : s.udpPcbMgr.select dst (u16 segment 2) ≠ none →
    segment.length - 8 ≤ (u16 segment 4).toNat

/-- **When the handler returns.** -/
theorem handle_done_iff (hn : d.data.length ≤ 131072) :
    (∃ t v, (handle d).run s = .done t v) ↔ Accepts s d.src d.dst d.data := by
  refine ⟨?_, ?_⟩
  · rintro ⟨t, v, h⟩
    obtain ⟨h8, hc⟩ := accepted_of_done h
    have hev : d.data.length % 2 = 0 := by
      by_contra hodd
      rw [udpChecksum_odd _ _ (by omega) (by omega)] at hc
      cases hc
    refine ⟨h8, hev, (udpChecksum_eq_zero_iff hev hn).mp hc, fun hsel => ?_⟩
    rw [handle_accepted h8 hc] at h
    cases hi : s.udpPcbMgr.select d.dst (u16 d.data 2) with
    | none => exact absurd hi hsel
    | some i =>
      rw [hi] at h
      dsimp only at h
      split at h
      · assumption
      · cases h
  · rintro ⟨h8, hev, hc, hroom⟩
    rw [handle_accepted h8 ((udpChecksum_eq_zero_iff hev hn).mpr hc)]
    cases hi : s.udpPcbMgr.select d.dst (u16 d.data 2) with
    | none => exact ⟨_, _, rfl⟩
    | some i =>
      dsimp only
      rw [if_pos (hroom (by rw [hi]; exact Option.some_ne_none i))]
      exact ⟨_, _, rfl⟩

end UdpHandler

end Suika
