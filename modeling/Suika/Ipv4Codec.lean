import Suika.Ipv4

/-!
# The IPv4 codec

What a receiver makes of the packets `ipv4_output` builds.

* Carried in an Ethernet frame and read back, a packet gives every field and the payload as they
  were, however the frame was padded (`ipv4OverEther`).
* Its header checksum verifies except when the single fold of the header sum loses a carry
  (`ipv4HeaderVerifies_iff`).
-/

namespace Suika

open Cpp BinaryPayload OnesComplement Ipv4Data

/-! ## The header checksum -/

section

variable {total id cs : UInt16} {protocol : UInt8} {src dst : UInt32}

/-- The plain sum of a header, with any checksum in it. -/
theorem wordSum_ipv4Header (rest : Bytes) :
    wordSum ((ipv4Header total id protocol cs src dst ++ rest).take 20) =
      headerSum (ipv4Header total id protocol 0 src dst) + cs.toNat := by
  have hzero : headerSum (ipv4Header total id protocol 0 src dst) =
      wordSum (ipv4Header total id protocol 0 src dst) := by
    have hbytes : headerBytes (ipv4Header total id protocol 0 src dst) = 20 := by
      rw [← List.append_nil (ipv4Header total id protocol 0 src dst), headerBytes_ipv4Header]
    rw [headerSum, hbytes]
    rfl
  rw [List.take_left' (length_ipv4Header total id protocol cs src dst), hzero]
  simp only [ipv4Header, wordSum_append, wordSum_be16, List.length_append, length_be16, length_be32,
    List.length_cons, List.length_nil, Nat.reduceAdd, Nat.reduceMod, UInt16.toNat_zero]
  omega

/-- Whether a header with its checksum verifies, whatever follows it. -/
theorem verifyHeader_ipv4Header (rest : Bytes) :
    verifyHeader (ipv4Header total id protocol (ipv4Checksum total id protocol src dst) src dst ++
      rest) = .ok true ↔ ¬ CarryLost (headerSum (ipv4Header total id protocol 0 src dst)) := by
  have hsum : headerSum (ipv4Header total id protocol 0 src dst) < 2147483648 := by
    have hwords := wordSum_le ((ipv4Header total id protocol 0 src dst).take 20)
    have hzero : wordSum ((ipv4Header total id protocol 0 src dst ++ []).take 20) =
        headerSum (ipv4Header total id protocol 0 src dst) + (0 : UInt16).toNat :=
      wordSum_ipv4Header []
    have hlen := List.length_take_le 20 (ipv4Header total id protocol 0 src dst)
    rw [List.append_nil, UInt16.toNat_zero, Nat.add_zero] at hzero
    omega
  have hcompl : (ipv4Checksum total id protocol src dst).toNat =
      65535 - fold16 (headerSum (ipv4Header total id protocol 0 src dst)) := by
    rw [ipv4Checksum, toNat_not_fold16]
  rw [verifyHeader_eq (by rw [List.length_append, length_ipv4Header]; omega)
    (by rw [headerBytes_ipv4Header, List.length_append, length_ipv4Header]; omega),
    ← fold16_complement_iff hsum, ← hcompl]
  have hiff : HeaderVerifies (ipv4Header total id protocol
      (ipv4Checksum total id protocol src dst) src dst ++ rest) ↔
        fold16 (headerSum (ipv4Header total id protocol 0 src dst) +
          (ipv4Checksum total id protocol src dst).toNat) = 65535 := by
    rw [HeaderVerifies, headerBytes_ipv4Header, wordSum_ipv4Header]
  rw [← hiff]
  exact ⟨fun h => of_decide_eq_true (Except.ok.inj h),
    fun h => congrArg Except.ok (decide_eq_true h)⟩

end

/-- A packet was built only for a payload that fits its length field. -/
theorem Ipv4Output.length_of_packet {protocol : UInt8} {d p : Bytes} {src dst : UInt32}
    {id : UInt16}
    (h : ipv4Output.packet protocol d src dst id = .ok p) : d.length ≤ 65515 := by
  by_contra hd
  rw [packet_undefined protocol d src dst id (Nat.lt_of_not_le hd)] at h
  cases h

/-- And a frame has room for it. -/
theorem Ipv4Output.packet_fits {protocol : UInt8} {d p : Bytes} {src dst : UInt32} {id : UInt16}
    (h : ipv4Output.packet protocol d src dst id = .ok p) : p.length ≤ 2147483634 := by
  have hd := length_of_packet h
  rw [packet_eq protocol d src dst id hd] at h
  rw [← Except.ok.inj h, List.length_append, length_ipv4Header]
  omega

/-- **The header checksum verifies** exactly when the single fold of the header sum loses no carry:
for every vector with room for its header, and for every header `ipv4_output` emits. -/
theorem ipv4HeaderVerifies_iff (data : Bytes) (h5 : 20 ≤ headerBytes data)
    (h : headerBytes data ≤ data.length) :
    ((∃ p, setCheckSum data = .ok p ∧ verifyHeader p = .ok true) ↔
      ¬ CarryLost (headerSum data)) ∧
    ∀ (protocol : UInt8) (d : Bytes) (src dst : UInt32) (id : UInt16) (p pad : Bytes),
      ipv4Output.packet protocol d src dst id = .ok p →
        (verifyHeader (p ++ pad) = .ok true ↔
          ¬ CarryLost
            (headerSum (ipv4Header (UInt16.ofNat (20 + d.length)) id protocol 0 src dst))) := by
  refine ⟨verifyHeader_setCheckSum h5 h, ?_⟩
  intro protocol d src dst id p pad hp
  rw [Ipv4Output.packet_eq protocol d src dst id (Ipv4Output.length_of_packet hp)] at hp
  cases hp
  rw [List.append_assoc]
  exact verifyHeader_ipv4Header (d ++ pad)

/-- UDP from 192.0.2.2 to 192.0.2.1, 10 bytes, identification 0: the header verifies. -/
theorem ipv4HeaderVerifies_zero :
    ∃ p, setCheckSum (ipv4Header 30 0 17 0 0xC0000202 0xC0000201) = .ok p ∧
      verifyHeader p = .ok true :=
  (ipv4HeaderVerifies_iff _ (by decide) (by decide)).1.mpr (by decide)

/-- The same with identification 14284: the words add up to `0x2fffe`, and the checksum that was set
does not verify. -/
theorem not_forall_ipv4HeaderVerifies :
    ¬ ∀ data : Bytes, 20 ≤ headerBytes data → headerBytes data ≤ data.length →
      ∃ p, setCheckSum data = .ok p ∧ verifyHeader p = .ok true := by
  intro h
  have hverifies := h (ipv4Header 30 14284 17 0 0xC0000202 0xC0000201) (by decide) (by decide)
  rw [verifyHeader_setCheckSum (by decide) (by decide)] at hverifies
  exact hverifies (by decide)

/-! ## Over Ethernet -/

/-- The frame `F` that carries the packet `P`, read back. -/
structure Ipv4OverEther (address mac : EtherAddr) (protocol : UInt8) (d : Bytes) (src dst : UInt32)
    (id : UInt16) (P F : Bytes) : Prop where
  packet : ipv4Output.packet protocol d src dst id = .ok P
  transmitted : ∀ cfg : Config, cfg.address = address → ∀ s : Stack,
    (EtherDevice.transmit cfg P mac.val ipType).run s = .done { s with sent := s.sent ++ [F] } 0
  minSize : 60 ≤ F.length
  etherType : EtherFrame.etherType F = .ok 0x0800
  dstAddr : EtherFrame.dstAddr F = .ok mac.val
  srcAddr : EtherFrame.srcAddr F = .ok address.val
  body : ∃ B, EtherFrame.body F = .ok B ∧ Ipv4Data.version B = .ok 4 ∧
    Ipv4Data.headerLength B = .ok 5 ∧
    (∃ total, Ipv4Data.totalLength B = .ok total ∧ total.toNat = 20 + d.length) ∧
    Ipv4Data.protocol B = .ok protocol ∧ Ipv4Data.identification B = .ok id ∧
    Ipv4Data.src B = .ok src ∧ Ipv4Data.dst B = .ok dst ∧
    (∃ header checksum, ipv4Output.header protocol d src dst id = .ok header ∧
      Ipv4Data.checksum header = .ok checksum ∧ Ipv4Data.checksum B = .ok checksum) ∧
    Ipv4Data.payload B = .ok d

/-- **IPv4 over Ethernet is lossless**, and the padding of the frame stays out of the payload. -/
theorem ipv4OverEther (address mac : EtherAddr) (protocol : UInt8) (d : Bytes) (src dst : UInt32)
    (id : UInt16) (hd : d.length ≤ 65515) :
    ∃ P F, Ipv4OverEther address mac protocol d src dst id P F := by
  have hm := mac.length_val
  have htotal : (UInt16.ofNat (20 + d.length)).toNat = 20 + d.length := by
    rw [UInt16.toNat_ofNat', Nat.mod_eq_of_lt (by omega)]
  have hheader := Ipv4Output.header_eq protocol d src dst id
  have hpacket := Ipv4Output.packet_eq protocol d src dst id hd
  generalize ipv4Checksum (UInt16.ofNat (20 + d.length)) id protocol src dst = cs at hheader hpacket
  generalize UInt16.ofNat (20 + d.length) = total at hheader hpacket htotal
  generalize hP : ipv4Header total id protocol cs src dst ++ d = P at hpacket
  have hlen : P.length = 20 + d.length := by
    rw [← hP, List.length_append, length_ipv4Header]
  refine ⟨P, EtherDevice.frameBytes address P mac.val ipType, ?_⟩
  refine ⟨hpacket, ?_, ?_, ?_, ?_, ?_, ?_⟩
  · rintro cfg rfl s
    exact EtherDevice.transmit_eq cfg P ipType s hm (by omega)
  · exact EtherFrame.frameMinSize_le_length address P ipType _ hm rfl
  · exact EtherFrame.etherType_frame address P ipType _ hm
  · exact EtherFrame.dstAddr_frame address P ipType _ hm
  · exact EtherFrame.srcAddr_frame address P ipType _ hm
  · have hbody := EtherFrame.body_frame address P ipType hm (by omega)
    have hpayload := payload_ipv4Header total id protocol cs src dst d
      (List.replicate (46 - P.length) (0 : UInt8)) htotal
    rw [hP] at hpayload
    have hreads : ∀ pad : Bytes, P ++ pad = ipv4Header total id protocol cs src dst ++ (d ++ pad) :=
      fun pad => by rw [← hP, List.append_assoc]
    have hbefore := checksum_ipv4Header total id protocol cs src dst []
    rw [List.append_nil] at hbefore
    refine ⟨_, hbody, ?_, ?_, ⟨total, ?_, htotal⟩, ?_, ?_, ?_, ?_,
      ⟨_, cs, hheader, hbefore, ?_⟩, hpayload⟩ <;> rw [hreads]
    · exact version_ipv4Header _ _ _ _ _ _ _
    · exact headerLength_ipv4Header _ _ _ _ _ _ _
    · exact totalLength_ipv4Header _ _ _ _ _ _ _
    · exact protocol_ipv4Header _ _ _ _ _ _ _
    · exact identification_ipv4Header _ _ _ _ _ _ _
    · exact src_ipv4Header _ _ _ _ _ _ _
    · exact dst_ipv4Header _ _ _ _ _ _ _
    · exact checksum_ipv4Header _ _ _ _ _ _ _

/-- A datagram of two bytes, in a padded frame. -/
theorem ipv4OverEther_hi :
    ∃ P F, Ipv4OverEther ⟨[0x00, 0x00, 0x5e, 0x00, 0x53, 0x01], rfl⟩
      ⟨[0x02, 0x00, 0x00, 0x00, 0x00, 0x01], rfl⟩ 17 [0x68, 0x69] 0xC0000202 0xC0000201 128 P F :=
  ipv4OverEther ⟨[0x00, 0x00, 0x5e, 0x00, 0x53, 0x01], rfl⟩
    ⟨[0x02, 0x00, 0x00, 0x00, 0x00, 0x01], rfl⟩ 17 [0x68, 0x69] 0xC0000202 0xC0000201 128
    (by decide)

end Suika
