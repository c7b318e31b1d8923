import Suika.UdpSocket

/-!
# The UDP codec

What the two ends of the codec make of each other's segments, for every payload.

* Decoding never gives back what was encoded: eight zero bytes are appended, because the length
  field counts the header and the decoder takes it for the size of the payload
  (`udpRoundTrip_fails`).
* The stack accepts its own segments except when the two folds of the checksum disagree about a
  carry (`udpOutput_accepted_iff`).
* A length field that is not covered by the bytes received makes the receiver write, or hand on,
  bytes that were never sent (`udpInBounds_iff`).
-/

namespace Suika

open Cpp BinaryPayload OnesComplement

/-! ## Decoding what was encoded -/

/-- Whenever the handler queues this segment, the datagram carries the bytes `p`. -/
def UdpQueuedAs (src dest : IpEndpoint) (segment p : Bytes) : Prop :=
  ∀ type interface s t,
    (UdpHandler.handle ⟨type, segment, src.addr, dest.addr, interface⟩).run s = .done t 0 →
      ∃ i, s.udpPcbMgr.select dest.addr dest.port = some i ∧ t = UdpHandler.deliver s i ⟨p, src⟩

/-- The peer that parses exactly the bytes of the segment gets the payload and the ports back, and
its handler queues the payload. -/
structure UdpRoundTrip (src dest : IpEndpoint) (d segment : Bytes) : Prop where
  payload : UdpData.payload segment = .ok d
  srcPort : UdpData.srcPort segment = .ok src.port
  dstPort : UdpData.dstPort segment = .ok dest.port
  queued : UdpQueuedAs src dest segment d

namespace UdpData

variable (srcPort dstPort checksum : UInt16) {length : UInt16} {d : Bytes}

theorem length_at_udpSegment (rest : Bytes) :
    u16 (udpSegment srcPort dstPort length checksum rest) 4 = length := join16_be16 length

/-- With a length field that counts the header, the payload comes back with 8 more bytes. -/
theorem payloadBytes_udpSegment (hl : length.toNat = 8 + d.length) :
    payloadBytes (udpSegment srcPort dstPort length checksum d) = d ++ List.replicate 8 0 := by
  have hpad : length.toNat - ((udpSegment srcPort dstPort length checksum d).length - headerSize) =
      8 := by
    rw [length_udpSegment, headerSize]
    omega
  rw [payloadBytes, length_at_udpSegment, drop_udpSegment, hpad]

theorem payload_udpSegment (hl : length.toNat = 8 + d.length) :
    payload (udpSegment srcPort dstPort length checksum d) = .ok (d ++ List.replicate 8 0) := by
  rw [payload_eq (by rw [length_udpSegment]; omega)
    (by rw [length_udpSegment, length_at_udpSegment]; omega), payloadBytes_udpSegment _ _ _ hl]

end UdpData

/-- What decoding gives for the segments `udp_output` builds. -/
theorem udpOutput.payload_segment {src dest : IpEndpoint} {d segment : Bytes}
    (hev : d.length % 2 = 0) (hd : d.length + 8 ≤ 65535)
    (hseg : udpOutput.segment src dest d = .ok segment) :
    UdpData.payload segment = .ok (d ++ List.replicate 8 0) := by
  rw [udpOutput.segment_eq src dest hev hd] at hseg
  cases hseg
  refine UdpData.payload_udpSegment _ _ _ ?_
  rw [UInt16.toNat_ofNat', Nat.mod_eq_of_lt (by omega)]

/-- Nothing comes back as it was once 8 bytes are appended. -/
theorem UdpRoundTrip.false_of_payload {src dest : IpEndpoint} {d segment : Bytes}
    (h : UdpRoundTrip src dest d segment)
    (hp : UdpData.payload segment = .ok (d ++ List.replicate 8 0)) : False := by
  have hlen := congrArg List.length (Except.ok.inj (h.payload.symm.trans hp))
  rw [List.length_append, List.length_replicate] at hlen
  omega

/-- **The round trip fails for every payload.** The segment is built and the ports come back; the
payload comes back followed by 8 zero bytes, and with them it is queued. -/
theorem udpRoundTrip_fails (src dest : IpEndpoint) (d : Bytes) (hev : d.length % 2 = 0)
    (hd : d.length + 8 ≤ 65535) :
    ∃ segment, udpOutput.segment src dest d = .ok segment ∧ ¬ UdpRoundTrip src dest d segment ∧
      UdpData.payload segment = .ok (d ++ List.replicate 8 0) ∧
      UdpData.srcPort segment = .ok src.port ∧ UdpData.dstPort segment = .ok dest.port ∧
      UdpQueuedAs src dest segment (d ++ List.replicate 8 0) := by
  have hseg := udpOutput.segment_eq src dest hev hd
  have hpayload := udpOutput.payload_segment hev hd hseg
  refine ⟨_, hseg, fun h => h.false_of_payload hpayload, hpayload,
    UdpData.srcPort_udpSegment _ _ _ _ _, UdpData.dstPort_udpSegment _ _ _ _ _, ?_⟩
  intro type interface s t hdone
  have hl : (UInt16.ofNat (8 + d.length)).toNat = 8 + d.length := by
    rw [UInt16.toNat_ofNat', Nat.mod_eq_of_lt (by omega)]
  obtain ⟨hv, -⟩ | ⟨i, -, hsel, rfl⟩ := UdpHandler.handle_eq_done hdone
  · exact absurd hv (by decide)
  · have hdst : u16 (udpSegment src.port dest.port (UInt16.ofNat (8 + d.length))
        (udpOutput.checksum src dest d) d) 2 = dest.port := join16_be16 dest.port
    have hsrc : u16 (udpSegment src.port dest.port (UInt16.ofNat (8 + d.length))
        (udpOutput.checksum src dest d) d) 0 = src.port := join16_be16 src.port
    dsimp only at hsel
    rw [hdst] at hsel
    refine ⟨i, hsel, ?_⟩
    rw [UdpHandler.datagram, hsrc, UdpData.payloadBytes_udpSegment _ _ _ hl]

/-- From 192.0.2.2:5555 to 192.0.2.1:40000, the two bytes "hi". -/
theorem udpRoundTrip_fails_hi :
    ∃ segment, udpOutput.segment ⟨0xC0000202, 5555⟩ ⟨0xC0000201, 40000⟩ [0x68, 0x69] = .ok segment ∧
      ¬ UdpRoundTrip ⟨0xC0000202, 5555⟩ ⟨0xC0000201, 40000⟩ [0x68, 0x69] segment :=
  let ⟨segment, hseg, hfail, _⟩ := udpRoundTrip_fails ⟨0xC0000202, 5555⟩ ⟨0xC0000201, 40000⟩
    [0x68, 0x69] (by decide) (by decide)
  ⟨segment, hseg, hfail⟩

/-- The two bytes "hi" come back as ten. -/
theorem not_forall_udpRoundTrip :
    ¬ ∀ (src dest : IpEndpoint) (d segment : Bytes), d.length % 2 = 0 → d.length + 8 ≤ 65535 →
      udpOutput.segment src dest d = .ok segment → UdpRoundTrip src dest d segment := by
  intro h
  have hseg := udpOutput.segment_eq ⟨0xC0000202, 5555⟩ ⟨0xC0000201, 40000⟩ (d := [0x68, 0x69])
    (by decide) (by decide)
  exact (h _ _ _ _ (by decide) (by decide) hseg).false_of_payload
    (udpOutput.payload_segment (by decide) (by decide) hseg)

/-! ## Accepting what was sent -/

/-- The handler does not throw its checksum error for these bytes, in any state. -/
def UdpAccepted (src dest : IpEndpoint) (segment : Bytes) : Prop :=
  ∀ type interface s (text : String),
    (UdpHandler.handle ⟨type, segment, src.addr, dest.addr, interface⟩).run s ≠
      .threw s (.runtimeError s!"udp checksum error invalid payload {text}")

/-- The test of the handler, as a statement about the bytes. -/
theorem udpAccepted_iff {src dest : IpEndpoint} {segment : Bytes} (h8 : 8 ≤ segment.length)
    (hev : segment.length % 2 = 0) (hn : segment.length ≤ 131072) :
    UdpAccepted src dest segment ↔ ChecksumAccepts src.addr dest.addr segment := by
  refine ⟨?_, ?_⟩
  · intro h
    by_contra hc
    obtain ⟨text, -, hthrow⟩ := UdpHandler.handle_rejected (s := Stack.init)
      (d := ⟨udpType, segment, src.addr, dest.addr, ⟨interfaceFamilyIp, dest.addr⟩⟩) h8 hev hn hc
    exact h udpType ⟨interfaceFamilyIp, dest.addr⟩ Stack.init text hthrow
  · intro hc type interface s text hthrow
    have hzero := (udpChecksum_eq_zero_iff hev hn).mpr hc
    rw [UdpHandler.handle_accepted (d := ⟨type, segment, src.addr, dest.addr, interface⟩) h8 hzero]
      at hthrow
    split at hthrow
    · cases hthrow
    · split at hthrow <;> cases hthrow

/-- The segments of `udp_output`, in terms of the two plain sums. -/
theorem udpOutput.checksumAccepts_iff {src dest : IpEndpoint} {d segment : Bytes}
    (hev : d.length % 2 = 0) (hd : d.length + 8 ≤ 65535)
    (hseg : udpOutput.segment src dest d = .ok segment) :
    ChecksumAccepts src.addr dest.addr segment ↔
      ¬ CarryMismatch (fold16 (pseudoSum src.addr dest.addr (UInt16.ofNat (8 + d.length))))
        (segmentSum src.port dest.port (UInt16.ofNat (8 + d.length)) d) := by
  have hwords := wordSum_le d
  have hs := src.port.toNat_lt
  have hp := dest.port.toNat_lt
  have hl := (UInt16.ofNat (8 + d.length)).toNat_lt
  rw [udpOutput.segment_eq src dest hev hd] at hseg
  cases hseg
  rw [ChecksumAccepts, UdpData.length_udpSegment, UdpData.wordSum_udpSegment]
  generalize hq : pseudoSum src.addr dest.addr (UInt16.ofNat (8 + d.length)) = q
  generalize hsum : segmentSum src.port dest.port (UInt16.ofNat (8 + d.length)) d = s
  have hsmall : s < 2147483648 := by
    rw [← hsum, segmentSum]
    omega
  have hchecksum : (udpOutput.checksum src dest d).toNat =
      65535 - fold16 (fold16 q + fold16 s) := by
    rw [udpOutput.checksum, hq, hsum, toNat_not_fold16]
  rw [hchecksum, fold16_pair_complement_iff (fold16_le q) hsmall]

/-- **The stack accepts its own segments** exactly when the fold of the segment treats its carry
alike with and without the checksum. -/
theorem udpOutput_accepted_iff (src dest : IpEndpoint) (d : Bytes) (hev : d.length % 2 = 0)
    (hd : d.length + 8 ≤ 65535) :
    (∃ segment, udpOutput.segment src dest d = .ok segment ∧ UdpAccepted src dest segment) ↔
      ¬ CarryMismatch (fold16 (pseudoSum src.addr dest.addr (UInt16.ofNat (8 + d.length))))
        (segmentSum src.port dest.port (UInt16.ofNat (8 + d.length)) d) := by
  have hseg := udpOutput.segment_eq src dest hev hd
  have haccepted : UdpAccepted src dest (udpSegment src.port dest.port
      (UInt16.ofNat (8 + d.length)) (udpOutput.checksum src dest d) d) ↔ _ :=
    udpAccepted_iff (by rw [UdpData.length_udpSegment]; omega)
      (by rw [UdpData.length_udpSegment]; omega) (by rw [UdpData.length_udpSegment]; omega)
  rw [← udpOutput.checksumAccepts_iff hev hd hseg, ← haccepted]
  refine ⟨?_, ?_⟩
  · rintro ⟨segment, hseg', h⟩
    cases hseg.symm.trans hseg'
    exact h
  · exact fun h => ⟨_, hseg, h⟩

/-- From 192.0.2.2:5555 to 192.0.2.1:40000, the two bytes "hi": accepted. -/
theorem udpOutput_accepted_hi :
    ∃ segment, udpOutput.segment ⟨0xC0000202, 5555⟩ ⟨0xC0000201, 40000⟩ [0x68, 0x69] = .ok segment ∧
      UdpAccepted ⟨0xC0000202, 5555⟩ ⟨0xC0000201, 40000⟩ segment :=
  (udpOutput_accepted_iff ⟨0xC0000202, 5555⟩ ⟨0xC0000201, 40000⟩ [0x68, 0x69] (by decide)
    (by decide)).mpr (by decide)

/-- From 192.0.2.2:5555 to 192.0.2.1:40000, the bytes `a7 00 a7 00`: ports, length and payload add
up to `0x1ffff`, and the segment is rejected. -/
theorem not_forall_udpAccepted :
    ¬ ∀ (src dest : IpEndpoint) (d segment : Bytes), d.length % 2 = 0 → d.length + 8 ≤ 65535 →
      udpOutput.segment src dest d = .ok segment → UdpAccepted src dest segment := by
  intro h
  have hev : ([0xa7, 0x00, 0xa7, 0x00] : Bytes).length % 2 = 0 := by decide
  have hd : ([0xa7, 0x00, 0xa7, 0x00] : Bytes).length + 8 ≤ 65535 := by decide
  have hseg := udpOutput.segment_eq ⟨0xC0000202, 5555⟩ ⟨0xC0000201, 40000⟩ hev hd
  have haccepted := h _ _ _ _ hev hd hseg
  rw [udpAccepted_iff (by decide) (by decide) (by decide),
    udpOutput.checksumAccepts_iff hev hd hseg] at haccepted
  exact haccepted (by decide)

/-! ## The length field -/

/-- A segment that is accepted and has a block to go to stays in bounds: the copy of the payload
stays inside its vector; one datagram is queued, and it is no longer than what was received; and a
`recvFrom` that takes it writes nothing behind that many bytes of the buffer. -/
structure UdpInBounds (d : Ipv4ProtocolData) (s : Stack) (i : ℕ) : Prop where
  copy : ∃ p, UdpData.payload d.data = .ok p ∧ d.data.length - 8 ≤ p.length
  queued : ∃ t q, (UdpHandler.handle d).run s = .done t 0 ∧ t = UdpHandler.deliver s i q ∧
    q.data.length ≤ d.data.length ∧
    ∀ (u u' : Stack) (sock : UdpSocket) (b : UdpControlBlock) (rest : List UdpPcbPayload)
      (buf : Bytes) (endpoint : IpEndpoint) (dead : DeadRead) (r : Received),
      u.udpPcbMgr.block? sock.block = some b → b.que = q :: rest →
      (sock.recvFrom buf endpoint dead).run u = .done u' r →
      r.buf.drop d.data.length = buf.drop d.data.length

/-- What `recvFrom` leaves behind the datagram it copies. -/
theorem UdpSocket.recvFrom_drop {u u' : Stack} {sock : UdpSocket} {b : UdpControlBlock}
    {q : UdpPcbPayload} {rest : List UdpPcbPayload} {buf : Bytes} {endpoint : IpEndpoint}
    {dead : DeadRead} {r : Received} {n : ℕ} (hb : u.udpPcbMgr.block? sock.block = some b)
    (hque : b.que = q :: rest) (hn : q.data.length ≤ n)
    (h : (sock.recvFrom buf endpoint dead).run u = .done u' r) : r.buf.drop n = buf.drop n := by
  rw [UdpSocket.recvFrom_run hb, hque] at h
  split at h
  · cases h
    rfl
  · dsimp only at h
    split at h
    · cases h
      rw [patch, List.take_zero, List.nil_append, Nat.zero_add, List.drop_append,
        List.drop_of_length_le hn, List.nil_append, List.drop_drop]
      congr 1
      omega
    · cases h

/-- Two deliveries to the block `select` found queue the same datagram if they end alike. -/
theorem UdpHandler.deliver_inj {s : Stack} {i : ℕ} {q q' : UdpPcbPayload} {a : UInt32} {p : UInt16}
    (hsel : s.udpPcbMgr.select a p = some i) (h : deliver s i q = deliver s i q') : q = q' := by
  obtain ⟨⟨b, hb, -⟩, -⟩ := UdpPcbManager.select_eq_some.mp hsel
  have hblock := congrArg (fun t => t.udpPcbMgr.block? i) h
  simp only [deliver, UdpPcbManager.block?_modify_self, hb, Option.map_some] at hblock
  have hque := congrArg UdpControlBlock.que (Option.some.inj hblock)
  exact List.singleton_inj.mp (List.append_cancel_left hque)

/-- **The length field decides.** For an accepted segment with a block to go to, everything stays in
bounds exactly when the field covers the payload that came and claims no more than the segment. -/
theorem udpInBounds_iff (d : Ipv4ProtocolData) (s : Stack) (i : ℕ) (h8 : 8 ≤ d.data.length)
    (hc : udpChecksum d.src d.dst d.data = .ok 0)
    (hsel : s.udpPcbMgr.select d.dst (u16 d.data 2) = some i) :
    UdpInBounds d s i ↔
      d.data.length - 8 ≤ (u16 d.data 4).toNat ∧ (u16 d.data 4).toNat ≤ d.data.length := by
  refine ⟨?_, ?_⟩
  · rintro ⟨⟨p, hp, -⟩, t, q, hdone, rfl, hq, -⟩
    -- a field that is too small lets the copy leave its vector
    have hfit : d.data.length - 8 ≤ (u16 d.data 4).toNat := by
      by_contra hgt
      rw [UdpData.payload_undefined h8 (by omega)] at hp
      cases hp
    obtain rfl : q = UdpHandler.datagram d := by
      rw [UdpHandler.handle_accepted h8 hc, hsel] at hdone
      dsimp only at hdone
      rw [if_pos hfit] at hdone
      exact (UdpHandler.deliver_inj hsel (Outcome.done.inj hdone).1).symm
    rw [UdpHandler.datagram, UdpData.length_payloadBytes hfit] at hq
    exact ⟨hfit, hq⟩
  · rintro ⟨hfit, hle⟩
    have hlen : (UdpHandler.datagram d).data.length ≤ d.data.length := by
      rw [UdpHandler.datagram, UdpData.length_payloadBytes hfit]
      exact hle
    refine ⟨⟨_, UdpData.payload_eq h8 hfit, ?_⟩, _, UdpHandler.datagram d, ?_, rfl, hlen, ?_⟩
    · rw [UdpData.length_payloadBytes hfit]
      exact hfit
    · rw [UdpHandler.handle_accepted h8 hc, hsel]
      dsimp only
      rw [if_pos hfit]
    · intro u u' sock b rest buf endpoint dead r hb hque hrun
      exact UdpSocket.recvFrom_drop hb hque hlen hrun

/-- A block bound to port 5555. -/
def boundManager : UdpPcbManager :=
  UdpPcbManager.init.modify 0 fun pcb =>
    { pcb with state := .OPEN, id := 0, endpoint := ⟨0xC0000202, 5555⟩ }

theorem boundManager_select : boundManager.select 0xC0000202 5555 = some 0 := by
  have hblock : boundManager.block? 0 =
      some { state := .OPEN, id := 0, endpoint := ⟨0xC0000202, 5555⟩ } := by
    rw [boundManager, UdpPcbManager.block?_modify_self, UdpPcbManager.block?_init (by decide)]
    rfl
  exact UdpPcbManager.select_eq_some.mpr
    ⟨⟨_, hblock, rfl, Or.inr rfl, rfl⟩, fun j b hj => absurd hj (Nat.not_lt_zero j)⟩

/-- From 192.0.2.1:1000 to 192.0.2.2:5555, 8 bytes with a length field of `length`. -/
def bareSegment (length checksum : UInt16) : Ipv4ProtocolData :=
  ⟨udpType, udpSegment 1000 5555 length checksum [], 0xC0000201, 0xC0000202,
    ⟨interfaceFamilyIp, 0xC0000202⟩⟩

theorem bareSegment_select (length checksum : UInt16) :
    boundManager.select (bareSegment length checksum).dst
      (u16 (bareSegment length checksum).data 2) = some 0 := by
  have hport : u16 (bareSegment length checksum).data 2 = 5555 := join16_be16 5555
  rw [hport]
  exact boundManager_select

/-- A state with this block. -/
def boundStack : Stack := { Stack.init with udpPcbMgr := boundManager }

/-- A header alone, with a length field of 8: in bounds. -/
theorem udpInBounds_bareSegment : UdpInBounds (bareSegment 8 25151) boundStack 0 := by
  have hc : udpChecksum (bareSegment 8 25151).src (bareSegment 8 25151).dst
      (bareSegment 8 25151).data = .ok 0 :=
    (udpChecksum_eq_zero_iff (by decide) (by decide)).mpr (by decide)
  exact (udpInBounds_iff (bareSegment 8 25151) boundStack 0 (by decide) hc
    (bareSegment_select _ _)).mpr (by decide)

/-- A header alone, with a length field of 65535 and the checksum that goes with it: 65535 bytes are
queued for 8 that came. -/
theorem not_forall_udpInBounds :
    ¬ ∀ (d : Ipv4ProtocolData) (s : Stack) (i : ℕ), 8 ≤ d.data.length → d.data.length % 2 = 0 →
      udpChecksum d.src d.dst d.data = .ok 0 →
      s.udpPcbMgr.select d.dst (u16 d.data 2) = some i → UdpInBounds d s i := by
  intro h
  generalize hd : bareSegment 65535 25159 = d at *
  have h8 : d.data.length = 8 := by rw [← hd]; rfl
  have hfield : (u16 d.data 4).toNat = 65535 := by rw [← hd]; rfl
  have hc : udpChecksum d.src d.dst d.data = .ok 0 := by
    refine (udpChecksum_eq_zero_iff (by omega) (by omega)).mpr ?_
    rw [← hd]
    decide
  have hsel : boundStack.udpPcbMgr.select d.dst (u16 d.data 2) = some 0 := by
    rw [← hd]
    exact bareSegment_select _ _
  obtain ⟨-, t, q, hdone, rfl, hq, -⟩ := h d boundStack 0 (by omega) (by omega) hc hsel
  have hfit : d.data.length - 8 ≤ (u16 d.data 4).toNat := by omega
  rw [UdpHandler.handle_accepted (by omega) hc, hsel] at hdone
  dsimp only at hdone
  rw [if_pos hfit] at hdone
  obtain rfl := UdpHandler.deliver_inj hsel (Outcome.done.inj hdone).1
  rw [UdpHandler.datagram, UdpData.length_payloadBytes hfit] at hq
  omega

end Suika
