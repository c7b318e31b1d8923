import Suika.Wire
import Suika.Receive

/-!
# Two hosts on a wire

Each host is the gateway of the other, and what one of them sends the other reads. Nothing is known
yet: the first call of `sendTo` or `sendIcmp` ends with an ARP request in place of its packet.

* `reads_request`, `reads_reply`: the request is answered, and both hosts know each other.
* `link_datagram`: the second call of `sendTo` sends its datagram, and what it takes for it to wait
  at a socket of the other host.
* `link_ping`: the second call of `sendIcmp` sends its echo request, and what it takes for the
  answer to come back.

What it takes are the sums: every checksum on the way is folded once, by both sides.
-/

namespace Suika

open Cpp BinaryPayload OnesComplement UdpPcbManager

/-! ## Reading a frame -/

/-- The host reads a frame, and gets the signal for it. -/
def Machine.Reads (host : Host) (frame : Bytes) (m n : Machine) : Prop :=
  ∃ k, MachineEvent.Step host.config m (.signal (.irq frame)) k ∧
    MachineEvent.Step host.config k (.signal .SIGUSR1) n

/-- Nothing waits. -/
def Machine.Idle (m : Machine) : Prop := m.protocolQueues = protocolQueueInit

section

variable {host : Host} {m n : Machine} {frame : Bytes}

/-- The device handler queues the body of a frame of a type it knows. -/
theorem EtherDevice.handler_idle (hm : m.Idle) (h14 : 14 ≤ frame.length)
    (htype : frameType frame = ipType ∨ frameType frame = arpType) :
    (EtherDevice.handler frame).run m = .done { m with
      protocolQueues := protocolQueueInit.push ⟨frameType frame, frameBody frame⟩ } 0 := by
  have hkeys : frameType frame ∈ m.protocolQueues.map Prod.fst := by
    rw [hm]
    rcases htype with h | h <;> rw [h] <;> decide
  have hrun := Dispatcher.handler_run h14 ⟨m, false, []⟩
  rw [if_pos hkeys] at hrun
  rw [← Dispatcher.handler_machine frame ⟨m, false, []⟩, hrun, ← hm]
  rfl

/-- One item waits: draining the queues is a call of its handler. -/
theorem drainAll_push_init {handle : UInt16 → ProtocolData → Call ℤ} {d : ProtocolData}
    (htype : d.type = ipType ∨ d.type = arpType) {s t : Stack} {queues : ProtocolQueues} :
    drainAll handle (protocolQueueInit.push d) s = .done (queues, t) () ↔
      queues = protocolQueueInit ∧ ∃ v, (handle d.type d).run s = .done t v := by
  obtain ⟨type, data⟩ := d
  rcases htype with rfl | rfl
  · have hpush : protocolQueueInit.push ⟨ipType, data⟩ =
        [(ipType, [⟨ipType, data⟩]), (arpType, [])] := rfl
    rw [hpush, drainAll_cons_eq_done]
    refine ⟨?_, ?_⟩
    · rintro ⟨u, rest, hip, harp, rfl⟩
      obtain ⟨x, v, hd, hnil⟩ := drain_cons_eq_done.mp hip
      cases hnil
      cases harp
      exact ⟨rfl, v, hd⟩
    · rintro ⟨rfl, v, hd⟩
      exact ⟨t, _, drain_cons_eq_done.mpr ⟨t, v, hd, rfl⟩, rfl, rfl⟩
  · have hpush : protocolQueueInit.push ⟨arpType, data⟩ =
        [(ipType, []), (arpType, [⟨arpType, data⟩])] := rfl
    rw [hpush, drainAll_cons_eq_done]
    refine ⟨?_, ?_⟩
    · rintro ⟨u, rest, hip, harp, rfl⟩
      cases hip
      obtain ⟨w, rest', hdrain, hnil, rfl⟩ := drainAll_cons_eq_done.mp harp
      cases hnil
      obtain ⟨x, v, hd, hdone⟩ := drain_cons_eq_done.mp hdrain
      cases hdone
      exact ⟨rfl, v, hd⟩
    · rintro ⟨rfl, v, hd⟩
      refine ⟨s, [(arpType, [])], rfl, ?_, rfl⟩
      exact drainAll_cons_eq_done.mpr
        ⟨t, [], drain_cons_eq_done.mpr ⟨t, v, hd, rfl⟩, rfl, rfl⟩

/-- **Reading a frame** is a call of the handler of its type. -/
theorem Machine.reads_iff (hm : m.Idle) (h14 : 14 ≤ frame.length)
    (htype : frameType frame = ipType ∨ frameType frame = arpType) :
    m.Reads host frame n ↔ n.Idle ∧ ∃ v,
      (protocolHandlers host.config (frameType frame) ⟨frameType frame, frameBody frame⟩).run
        m.stack = .done n.stack v := by
  have hhandler : (onSignal host.config (.irq frame)).run m = .done _ _ :=
    Comp.bind_done (EtherDevice.handler_idle hm h14 htype)
  refine ⟨?_, ?_⟩
  · rintro ⟨k, hirq, hsig⟩
    obtain ⟨rfl, -⟩ := Outcome.done.inj (hhandler.symm.trans hirq)
    obtain ⟨⟨queues, s⟩, hdrain, rfl⟩ := Outcome.mapState_eq_done.mp hsig
    exact (drainAll_push_init htype).mp hdrain
  · rintro ⟨hidle, hv⟩
    refine ⟨_, hhandler, Outcome.mapState_eq_done.mpr ⟨(n.protocolQueues, n.stack), ?_, rfl⟩⟩
    exact (drainAll_push_init htype).mpr ⟨hidle, hv⟩

end

namespace EtherDevice

variable {address : EtherAddr} {data dst : Bytes} {type : UInt16}

/-- What is read of a frame that was transmitted: no more than 1500 bytes of its body. -/
theorem take_frameBytes (hd : dst.length = 6) :
    (frameBytes address data dst type).take 1514 = dst ++ address.val ++ be16 type ++
      (data ++ List.replicate (46 - data.length) 0).take 1500 ++ [] := by
  have hheader : 1514 = (dst ++ address.val ++ be16 type).length + 1500 := by
    simp [hd, address.length_val]
  rw [frameBytes, List.append_assoc _ data, hheader, List.take_length_add_append, List.append_nil]

theorem length_frameBytes (hd : dst.length = 6) :
    14 ≤ (frameBytes address data dst type).length := by
  have hmin := EtherFrame.frameMinSize_le_length address data type _ hd rfl
  rw [frameBytes]
  omega

theorem frameType_frameBytes (hd : dst.length = 6) :
    frameType (frameBytes address data dst type) = type := by
  have hread := EtherFrame.etherType_frame address
    ((data ++ List.replicate (46 - data.length) 0).take 1500) type [] hd
  rw [← take_frameBytes hd, EtherFrame.etherType_eq (by
    rw [List.length_take]
    exact Nat.le_min.mpr ⟨by decide, length_frameBytes hd⟩)] at hread
  exact Except.ok.inj hread

theorem frameBody_frameBytes (hd : dst.length = 6) :
    frameBody (frameBytes address data dst type) =
      (data ++ List.replicate (46 - data.length) 0).take 1500 := by
  have hheader : (dst ++ address.val ++ be16 type).length = 14 := by
    simp [hd, address.length_val]
  rw [frameBody, take_frameBytes hd, List.append_nil, ← hheader, List.drop_left]

end EtherDevice

/-! ## The ARP exchange -/

/-- Each host is the gateway of the other. -/
structure Neighbours (g h : Host) : Prop where
  gateway : g.gateway = h.unicast
  back : h.gateway = g.unicast

/-- What a host learns from a packet of another one. -/
def Machine.learn (host : Host) (m : Machine) : Machine :=
  { m with stack := { m.stack with
      arpCache := ArpCache.create m.stack.arpCache ⟨host.unicast, host.address.val⟩ } }

/-- One more frame. -/
def Machine.write (m : Machine) (frame : Bytes) : Machine :=
  { m with stack := { m.stack with sent := m.stack.sent ++ [frame] } }

/-- One request for the gateway. -/
def Machine.ask (host : Host) (m : Machine) : Machine :=
  { m with stack := host.write m.stack .arpRequest }

/-- The request of `g` for its gateway. -/
def requestFrom (g : Host) : Bytes := Output.arpRequest.frame g [] 0

/-- The reply of `h` to this. -/
def replyTo (g h : Host) : Bytes :=
  (Output.arpReply (ArpPacket.request g.address g.unicast g.gateway)).frame h [] 0

section

variable {g h : Host} {m n k : Machine}

/-- A packet for this host, off the wire. -/
theorem reads_arp {address : EtherAddr} {p : ArpPacket} {dst : Bytes} (hm : m.Idle)
    (hd : dst.length = 6) (hip : p.protocolType = etherTypeIp)
    (htarget : p.targetProtocol = h.unicast) :
    m.Reads h (EtherDevice.frameBytes address p.encode dst arpType) n ↔
      n = ⟨protocolQueueInit, ArpProtocolHandler.afterPacket h.address h.unicast p m.stack⟩ := by
  have htype : frameType (EtherDevice.frameBytes address p.encode dst arpType) = arpType :=
    EtherDevice.frameType_frameBytes hd
  have hbody : frameBody (EtherDevice.frameBytes address p.encode dst arpType) =
      p.encode ++ List.replicate (46 - p.encode.length) 0 := by
    rw [EtherDevice.frameBody_frameBytes hd]
    refine List.take_of_length_le ?_
    simp [p.length_encode]
  rw [Machine.reads_iff hm (EtherDevice.length_frameBytes hd) (Or.inr htype), htype, hbody]
  have hrun : (protocolHandlers h.config arpType
      ⟨arpType, p.encode ++ List.replicate (46 - p.encode.length) 0⟩).run m.stack =
        .done (ArpProtocolHandler.afterPacket h.address h.unicast p m.stack) 0 := by
    rw [protocolHandlers, if_pos rfl]
    refine (ArpProtocolHandler.handle_packet h.address h.unicast h.gateway arpType p _
      m.stack).trans ?_
    rw [if_neg (not_not.mpr hip), if_pos htarget]
  rw [hrun]
  obtain ⟨queues, s⟩ := n
  refine ⟨?_, ?_⟩
  · rintro ⟨rfl, v, hv⟩
    cases hv
    rfl
  · rintro hn
    cases hn
    exact ⟨rfl, 0, rfl⟩

/-- **The request is answered.** -/
theorem reads_request (hgh : Neighbours g h) (hn : n.Idle) :
    n.Reads h (requestFrom g) k ↔ k = (n.learn g).write (replyTo g h) := by
  rw [requestFrom, Output.frame, reads_arp hn rfl rfl hgh.gateway, ← hn]
  rfl

/-- **The answer is learned from.** -/
theorem reads_reply (g h : Host) (hm : m.Idle) :
    m.Reads g (replyTo g h) k ↔ k = m.learn h := by
  have hread : m.Reads g (replyTo g h) k ↔ _ := reads_arp hm g.address.length_val rfl rfl
  rw [hread, ← hm]
  rfl

theorem Host.length_gatewayAddress (host : Host) {s : Stack} (hs : EtherCache s)
    (hknown : ∃ c, ArpCache.select s.arpCache host.gateway = some c) :
    (host.gatewayAddress s).length = 6 := by
  obtain ⟨c, hc⟩ := hknown
  rw [Host.gatewayAddress, hc]
  exact hs c (ArpCache.select_eq_some hc).1

/-- The gateway is known by its own address, if it was not known before. -/
theorem gatewayAddress_learn (hgh : Neighbours g h)
    (hnone : ArpCache.select m.stack.arpCache g.gateway = none) :
    (∃ c, ArpCache.select (m.learn h).stack.arpCache g.gateway = some c) ∧
      g.gatewayAddress (m.learn h).stack = h.address.val := by
  have hcache : (m.learn h).stack.arpCache =
      m.stack.arpCache ++ [⟨h.unicast, h.address.val⟩] := by
    rw [hgh.gateway] at hnone
    rw [Machine.learn, ArpCache.create, hnone]
  have hsel : ArpCache.select (m.learn h).stack.arpCache g.gateway =
      some ⟨h.unicast, h.address.val⟩ := by
    rw [ArpCache.select] at hnone ⊢
    rw [hcache, List.find?_append, hnone, hgh.gateway]
    simp
  refine ⟨⟨_, hsel⟩, ?_⟩
  rw [Host.gatewayAddress, hsel]
  rfl

/-- Who was asked knows who did it. -/
theorem exists_select_learn (hgh : Neighbours g h) :
    ∃ c, ArpCache.select (m.learn g).stack.arpCache h.gateway = some c := by
  rw [hgh.back]
  exact ArpCache.exists_select_create

theorem etherCache_learn (hm : EtherCache m.stack) : EtherCache (m.learn h).stack := by
  intro c hc
  rcases ArpCache.mem_create hc with hc | rfl
  · exact hm c hc
  · exact h.address.length_val

end

/-! ## A packet -/

/-- What a packet of `g` needs to get past the IPv4 handler of `h`. -/
structure Legible (g h : Host) (protocol : UInt8) (data : Bytes) (dst : UInt32) (id : UInt16) :
    Prop where
  /-- the device reads 1514 bytes of a frame, and no more -/
  fits : data.length ≤ 1480
  target : dst = h.unicast
  header : ¬ CarryLost
    (Ipv4Data.headerSum (ipv4Header (UInt16.ofNat (20 + data.length)) id protocol 0 g.unicast dst))

/-- A packet, cut off somewhere behind its header. -/
def packetBody (protocol : UInt8) (data : Bytes) (src dst : UInt32) (id : UInt16) (rest : Bytes) :
    Bytes :=
  ipv4Header (UInt16.ofNat (20 + data.length)) id protocol
    (ipv4Checksum (UInt16.ofNat (20 + data.length)) id protocol src dst) src dst ++ rest

section

variable (protocol : UInt8) (data : Bytes) (src dst : UInt32) (id : UInt16) (rest : Bytes)

@[simp] theorem length_packetBody :
    (packetBody protocol data src dst id rest).length = 20 + rest.length := by
  rw [packetBody, List.length_append, length_ipv4Header]

@[simp] theorem headerBytes_packetBody :
    Ipv4Data.headerBytes (packetBody protocol data src dst id rest) = 20 :=
  headerBytes_ipv4Header _ _ _ _ _ _ _

@[simp] theorem total_packetBody :
    u16 (packetBody protocol data src dst id rest) 2 = UInt16.ofNat (20 + data.length) :=
  join16_be16 _

@[simp] theorem protocol_packetBody :
    u8 (packetBody protocol data src dst id rest) 9 = protocol := rfl

@[simp] theorem src_packetBody : u32 (packetBody protocol data src dst id rest) 12 = src :=
  join32_be32 _

@[simp] theorem dst_packetBody : u32 (packetBody protocol data src dst id rest) 16 = dst :=
  join32_be32 _

theorem headerVerifies_packetBody :
    Ipv4Data.HeaderVerifies (packetBody protocol data src dst id rest) ↔
      ¬ CarryLost (Ipv4Data.headerSum
        (ipv4Header (UInt16.ofNat (20 + data.length)) id protocol 0 src dst)) := by
  have hread : Ipv4Data.verifyHeader (packetBody protocol data src dst id rest) = .ok true ↔
      ¬ CarryLost (Ipv4Data.headerSum
        (ipv4Header (UInt16.ofNat (20 + data.length)) id protocol 0 src dst)) :=
    verifyHeader_ipv4Header rest
  have h20 : 20 ≤ (packetBody protocol data src dst id rest).length := by
    rw [length_packetBody]
    exact Nat.le_add_right 20 _
  rw [Ipv4Data.verifyHeader_eq (by omega) (by rw [headerBytes_packetBody]; exact h20)] at hread
  simpa using hread

variable {data}

theorem toNat_total (hd : data.length ≤ 65515) :
    (UInt16.ofNat (20 + data.length)).toNat = 20 + data.length := by
  rw [UInt16.toNat_ofNat', Nat.mod_eq_of_lt (by omega)]

theorem payloadBytes_packetBody (hd : data.length ≤ 65515) :
    Ipv4Data.payloadBytes (packetBody protocol data src dst id rest) = rest.take data.length := by
  rw [Ipv4Data.payloadBytes, total_packetBody, headerBytes_packetBody, toNat_total hd, packetBody]
  generalize hheader : ipv4Header _ _ _ _ _ _ = header
  have h20 : 20 = header.length := by
    rw [← hheader]
    rfl
  rw [h20, List.take_length_add_append, List.drop_left]

end

section

variable {g h : Host} {m n : Machine} {protocol : UInt8} {data mac : Bytes} {dst : UInt32}
  {id : UInt16}

/-- The body that is read of the frame around a packet: all of the header, and what fits behind
it. -/
theorem frameBody_packet (address : EtherAddr) (hmac : mac.length = 6) :
    ∃ pad, frameBody (EtherDevice.frameBytes address
        (Ipv4Output.packetBytes protocol data g.unicast dst id) mac ipType) =
      packetBody protocol data g.unicast dst id ((data ++ pad).take 1480) := by
  have hheader : 1500 = (ipv4Header (UInt16.ofNat (20 + data.length)) id protocol
      (ipv4Checksum (UInt16.ofNat (20 + data.length)) id protocol g.unicast dst) g.unicast
      dst).length + 1480 := rfl
  refine ⟨List.replicate
    (46 - (Ipv4Output.packetBytes protocol data g.unicast dst id).length) 0, ?_⟩
  rw [EtherDevice.frameBody_frameBytes hmac, Ipv4Output.packetBytes, List.append_assoc, hheader,
    List.take_length_add_append]
  rfl

/-- **Reading a packet** is a call of the handler of its protocol, if it can be read. -/
theorem reads_packet (hn : n.Idle) (hmac : mac.length = 6) (hd : data.length ≤ 65515) :
    n.Reads h ((Output.ipv4 protocol data dst).frame g mac id) m ↔
      Legible g h protocol data dst id ∧ m.Idle ∧
        match ipProtocolInit h.config protocol with
        | none => m.stack = n.stack
        | some handler => ∃ v, (handler ⟨protocol, data, g.unicast, dst,
            ⟨interfaceFamilyIp, h.unicast⟩⟩).run n.stack = .done m.stack v := by
  have htype : frameType (EtherDevice.frameBytes g.address
      (Ipv4Output.packetBytes protocol data g.unicast dst id) mac ipType) = ipType :=
    EtherDevice.frameType_frameBytes hmac
  have hip : ipType ≠ arpType := by decide
  obtain ⟨pad, hbody⟩ : ∃ pad, frameBody (EtherDevice.frameBytes g.address
      (Ipv4Output.packetBytes protocol data g.unicast dst id) mac ipType) =
        packetBody protocol data g.unicast dst id ((data ++ pad).take 1480) :=
    frameBody_packet g.address hmac
  have hpayload : data.length ≤ 1480 → ((data ++ pad).take 1480).take data.length = data :=
    fun hfits => by rw [List.take_take, Nat.min_eq_left hfits, List.take_left]
  rw [Output.frame, Machine.reads_iff hn (EtherDevice.length_frameBytes hmac) (Or.inl htype), htype,
    hbody, protocolHandlers, if_neg hip, if_pos rfl]
  refine ⟨?_, ?_⟩
  · rintro ⟨hidle, v, hrun⟩
    obtain ⟨hpassed, hend⟩ := Ipv4ProtocolHandler.handle_eq_done hrun
    have hfits : data.length ≤ 1480 := by
      have hle := hpassed.fits
      rw [total_packetBody, toNat_total hd, length_packetBody, List.length_take] at hle
      omega
    refine ⟨⟨hfits, ?_, (headerVerifies_packetBody _ _ _ _ _ _).mp hpassed.verifies⟩, hidle, ?_⟩
    · exact (dst_packetBody _ _ _ _ _ _).symm.trans hpassed.target
    · simp only [payloadBytes_packetBody _ _ _ _ _ hd, hpayload hfits, protocol_packetBody,
        src_packetBody, dst_packetBody] at hend
      exact hend
  · rintro ⟨⟨hfits, htarget, hheader⟩, hidle, hend⟩
    refine ⟨hidle, ?_⟩
    have hcomplete : Ipv4Data.Complete
        (packetBody protocol data g.unicast dst id ((data ++ pad).take 1480)) := by
      refine ⟨?_, ?_, ?_⟩
      · simp
      · rw [headerBytes_packetBody, total_packetBody, toNat_total hd]
        exact Nat.le_add_right 20 _
      · rw [total_packetBody, toNat_total hd, length_packetBody, List.length_take,
          List.length_append]
        omega
    have hrun := @Ipv4ProtocolHandler.handle_packet h.address h.unicast h.gateway
      (ipProtocolInit h.config)
      ⟨ipType, packetBody protocol data g.unicast dst id ((data ++ pad).take 1480)⟩
      hcomplete n.stack
    simp only [payloadBytes_packetBody _ _ _ _ _ hd, hpayload hfits, protocol_packetBody,
      src_packetBody, dst_packetBody] at hrun
    rw [if_neg (not_not.mpr ((headerVerifies_packetBody _ _ _ _ _ _).mpr hheader)),
      if_neg (not_not.mpr htarget.symm)] at hrun
    cases hprotocol : ipProtocolInit h.config protocol with
    | none =>
      rw [hprotocol] at hrun hend
      exact ⟨0, hrun.trans (hend ▸ rfl)⟩
    | some handler =>
      rw [hprotocol] at hrun hend
      obtain ⟨v, hv⟩ := hend
      exact ⟨0, hrun.trans (Comp.bind_done hv)⟩

end

/-! ## A datagram -/

/-- What a datagram of `g` needs to get past the handlers of `h`. -/
structure Deliverable (g h : Host) (src dest : IpEndpoint) (payload : Bytes) (id : UInt16) :
    Prop where
  legible : Legible g h udpType (udpOutput.segmentBytes src dest payload) dest.addr id
  checksum : ¬ CarryMismatch
    (fold16 (pseudoSum src.addr dest.addr (UInt16.ofNat (8 + payload.length))))
    (segmentSum src.port dest.port (UInt16.ofNat (8 + payload.length)) payload)

/-- A datagram that came: it waits at the block for its destination, if there is one, with the 8
bytes that `payload()` appends. -/
def Stack.received (s : Stack) (src dest : IpEndpoint) (payload : Bytes) : Stack :=
  match s.udpPcbMgr.select dest.addr dest.port with
  | none => s
  | some i => UdpHandler.deliver s i ⟨payload ++ List.replicate 8 0, src⟩

section

variable {g h : Host} {m n k : Machine} {s t : Stack} {sock : UdpSocket} {payload mac : Bytes}
  {ipv4str : List Char} {port : UInt32} {src dest : IpEndpoint} {what : String} {id : UInt16}
  {k : Machine}

/-- A segment of `udp_output` at the handler. -/
theorem handle_segmentBytes {interface : IpNetworkInterface} (hev : payload.length % 2 = 0)
    (hfits : payload.length ≤ 65507) :
    (∃ v, (UdpHandler.handle ⟨udpType, udpOutput.segmentBytes src dest payload, src.addr, dest.addr,
        interface⟩).run s = .done t v) ↔
      ¬ CarryMismatch (fold16 (pseudoSum src.addr dest.addr (UInt16.ofNat (8 + payload.length))))
          (segmentSum src.port dest.port (UInt16.ofNat (8 + payload.length)) payload) ∧
        t = s.received src dest payload := by
  have hlen := udpOutput.length_segmentBytes src dest payload
  have htotal : (UInt16.ofNat (8 + payload.length)).toNat = 8 + payload.length := by
    rw [UInt16.toNat_ofNat', Nat.mod_eq_of_lt (by omega)]
  have hdst : u16 (udpOutput.segmentBytes src dest payload) 2 = dest.port := join16_be16 _
  have hdatagram : UdpHandler.datagram ⟨udpType, udpOutput.segmentBytes src dest payload, src.addr,
      dest.addr, interface⟩ = ⟨payload ++ List.replicate 8 0, src⟩ := by
    have hsrc : u16 (udpOutput.segmentBytes src dest payload) 0 = src.port := join16_be16 _
    have hdata : UdpData.payloadBytes (udpOutput.segmentBytes src dest payload) =
        payload ++ List.replicate 8 0 := UdpData.payloadBytes_udpSegment _ _ _ htotal
    rw [UdpHandler.datagram, hdata, hsrc]
  have hroom : (udpOutput.segmentBytes src dest payload).length - 8 ≤
      (u16 (udpOutput.segmentBytes src dest payload) 4).toNat := by
    have hlength : u16 (udpOutput.segmentBytes src dest payload) 4 =
        UInt16.ofNat (8 + payload.length) := UdpData.length_at_udpSegment _ _ _ _
    rw [hlength, htotal, hlen]
    exact Nat.sub_le _ _
  rw [← udpOutput.checksumAccepts_iff hev (by omega) (udpOutput.segment_eq src dest hev (by omega)),
    ← udpOutput.segmentBytes, ← udpChecksum_eq_zero_iff (by omega) (by omega)]
  refine ⟨?_, ?_⟩
  · rintro ⟨v, hv⟩
    refine ⟨(UdpHandler.accepted_of_done hv).2, ?_⟩
    obtain ⟨-, rfl, hsel⟩ | ⟨i, -, hsel, rfl⟩ := UdpHandler.handle_eq_done hv <;>
      rw [hdst] at hsel <;> simp only [Stack.received, hsel, hdatagram]
  · rintro ⟨hc, rfl⟩
    have hrun := UdpHandler.handle_accepted (s := s) (d := ⟨udpType,
      udpOutput.segmentBytes src dest payload, src.addr, dest.addr, interface⟩)
      (by dsimp only; omega) hc
    rw [hrun, hdatagram, Stack.received]
    dsimp only
    rw [hdst]
    cases s.udpPcbMgr.select dest.addr dest.port with
    | none => exact ⟨_, rfl⟩
    | some i => exact ⟨_, if_pos hroom⟩

/-- **Reading a datagram**: it is received as soon as it can be delivered. -/
theorem reads_datagram (hn : n.Idle) (hmac : mac.length = 6) (hsrc : src.addr = g.unicast)
    (hev : payload.length % 2 = 0) (hfits : payload.length ≤ 65507) :
    n.Reads h ((Output.ipv4 udpType (udpOutput.segmentBytes src dest payload) dest.addr).frame g mac
        id) k ↔
      Deliverable g h src dest payload id ∧
        k = { n with stack := n.stack.received src dest payload } := by
  have hlen := udpOutput.length_segmentBytes src dest payload
  have hudp : ipProtocolInit h.config udpType = some UdpHandler.handle := rfl
  rw [reads_packet hn hmac (by omega), hudp]
  dsimp only
  rw [← hsrc, handle_segmentBytes hev hfits]
  refine ⟨?_, ?_⟩
  · rintro ⟨hlegible, hidle, hchecksum, hk⟩
    refine ⟨⟨hlegible, hchecksum⟩, ?_⟩
    rw [← hk, hn.trans hidle.symm]
  · rintro ⟨⟨hlegible, hchecksum⟩, rfl⟩
    exact ⟨hlegible, hn, hchecksum, rfl⟩

/-- **The second try.** A call of `sendTo` that could not resolve the gateway has asked for it; its
endpoints are settled, and it sends the datagram as soon as the gateway is known. -/
theorem sendTo_again (hs : EtherCache s)
    (hmiss : (UdpSocket.sendTo g.config sock payload ipv4str port).run s =
      .threw t (.arpResolveException what)) :
    ArpCache.select s.arpCache g.gateway = none ∧ t.arpCache = s.arpCache ∧
      t.sent = s.sent ++ [requestFrom g] ∧
      ∃ src dest, SentTo g t sock payload ipv4str port src dest ∧
        ∀ u, u.udpPcbMgr = t.udpPcbMgr → EtherCache u →
          (∃ c, ArpCache.select u.arpCache g.gateway = some c) →
            (UdpSocket.sendTo g.config sock payload ipv4str port).run u = .done (g.write u
              (.ipv4 udpType (udpOutput.segmentBytes src dest payload) dest.addr)) 0 := by
  rcases sendTo_reduces g s.udpPcbMgr sock payload ipv4str port with
    hu | ⟨e, hne, he⟩ | ⟨m, b, a, addr, ha, haddr, hb, hopen, hport, hrun⟩
  · rw [hu s rfl] at hmiss
    cases hmiss
  · rw [he s rfl] at hmiss
    cases hmiss
    exact absurd rfl (hne what)
  have hsrc : addr = ipAddrAny → addr = g.unicast := localAddr_config haddr
  have hcases := fun (u : Stack) (hu : EtherCache u) =>
    udpOutput_cases g ⟨addr, b.endpoint.port⟩ ⟨a, port.toUInt16⟩ payload hu hsrc
  rw [hrun s rfl] at hmiss
  rcases hcases { s with udpPcbMgr := m } hs with
    ⟨-, hu⟩ | ⟨-, _, hw⟩ | ⟨hsends, hev, hd, ⟨hnone, hthrew⟩ | ⟨-, hdone⟩⟩
  · rw [hu] at hmiss
    cases hmiss
  · rw [hw] at hmiss
    cases hmiss
  swap
  · rw [hdone] at hmiss
    cases hmiss
  rw [hthrew] at hmiss
  cases hmiss
  have huni : addr = g.unicast := Host.unicast_of_not_refuses hsends
  refine ⟨hnone, rfl, rfl, ⟨addr, b.endpoint.port⟩, ⟨a, port.toUInt16⟩,
    ⟨ha, rfl, huni, ⟨b, hb, hopen, rfl⟩, hev, hd⟩, fun u htable hcache hknown => ?_⟩
  rw [sendTo_settled payload port ha haddr hb hopen hport htable]
  rcases hcases u hcache with
    ⟨hbad, -⟩ | ⟨hbad, -⟩ | ⟨-, -, -, ⟨hnone', -⟩ | ⟨-, hdone⟩⟩
  · exact absurd ⟨hev, hd⟩ hbad
  · exact absurd hbad hsends
  · obtain ⟨c, hc⟩ := hknown
    rw [hnone'] at hc
    cases hc
  · exact hdone

/-- **A datagram over the wire.** The first call asks for the gateway, and throws. Once the request
and the reply to it were read, the second call sends the datagram; wherever the other host is by
then, it reads it exactly when it is deliverable, and all that changes is that it waits at the
socket for its destination. -/
theorem link_datagram (hgh : Neighbours g h) (hm : m.Idle) (hn : n.Idle)
    (hcache : EtherCache m.stack)
    (hmiss : (UdpSocket.sendTo g.config sock payload ipv4str port).run m.stack =
      .threw t (.arpResolveException what)) :
    ∃ src dest frame, SentTo g t sock payload ipv4str port src dest ∧
      t.sent = m.stack.sent ++ [requestFrom g] ∧
      n.Reads h (requestFrom g) ((n.learn g).write (replyTo g h)) ∧
      Machine.Reads g (replyTo g h) { m with stack := t } (Machine.learn h { m with stack := t }) ∧
      (∃ u, (UdpSocket.sendTo g.config sock payload ipv4str port).run
          (Machine.learn h { m with stack := t }).stack = .done u 0 ∧ u.sent = t.sent ++ [frame]) ∧
      ∀ k l : Machine, k.Idle → (k.Reads h frame l ↔
        Deliverable g h src dest payload t.ipId ∧
          l = { k with stack := k.stack.received src dest payload }) := by
  obtain ⟨hnone, hcached, hsent, src, dest, hsentTo, hagain⟩ := sendTo_again hcache hmiss
  have hnone' : ArpCache.select t.arpCache g.gateway = none := by
    rw [hcached]
    exact hnone
  have hcache' : EtherCache t := by
    rw [EtherCache, hcached]
    exact hcache
  have hidle : Machine.Idle { m with stack := t } := hm
  obtain ⟨hknown, hmac⟩ := gatewayAddress_learn hgh (m := { m with stack := t }) hnone'
  refine ⟨src, dest, (Output.ipv4 udpType (udpOutput.segmentBytes src dest payload) dest.addr).frame
    g h.address.val t.ipId, hsentTo, hsent, (reads_request hgh hn).mpr rfl,
    (reads_reply g h hidle).mpr rfl,
    ⟨_, hagain _ rfl (etherCache_learn hcache') hknown, ?_⟩, fun k l hk =>
      reads_datagram hk h.address.length_val hsentTo.srcAddr hsentTo.even hsentTo.fits⟩
  rw [Host.write, hmac]
  rfl

end

/-- 192.0.2.1, on the wire with 192.0.2.2. -/
def peerHost : Host := ⟨peerAddress, 0xC0000201, 0xC0000202⟩

/-- 192.0.2.2:5555, which knows nobody. -/
def boundMachine : Machine := ⟨protocolQueueInit, withTable exampleBound⟩

theorem exampleHost_neighbours : Neighbours exampleHost peerHost := ⟨rfl, rfl⟩

theorem deliverable_hi : Deliverable exampleHost peerHost ⟨0xC0000202, 5555⟩ ⟨0xC0000201, 7⟩
    [0x68, 0x69] 129 where
  legible := ⟨by decide, rfl, by decide⟩
  checksum := by decide

/-- "hi" arrives wherever 192.0.2.1 is by then. -/
theorem link_datagram_hi : ∃ frame : Bytes, ∀ k : Machine, k.Idle → k.Reads peerHost frame
    { k with stack := k.stack.received ⟨0xC0000202, 5555⟩ ⟨0xC0000201, 7⟩ [0x68, 0x69] } := by
  have hmiss : (UdpSocket.sendTo exampleHost.config (exampleSocket 0) [0x68, 0x69]
      "192.0.2.1".toList 7).run boundMachine.stack =
        .threw (exampleHost.write boundMachine.stack .arpRequest)
          (.arpResolveException "not find arp cache. call arp reqest") := rfl
  have hcache : EtherCache boundMachine.stack := fun _ hc => absurd hc List.not_mem_nil
  have hidle : boundMachine.Idle := rfl
  have hinit : Machine.init.Idle := rfl
  obtain ⟨⟨addr, p⟩, ⟨a, q⟩, frame, hsentTo, -, -, -, -, hread⟩ :=
    link_datagram exampleHost_neighbours hidle hinit hcache hmiss
  obtain rfl : addr = 0xC0000202 := hsentTo.srcAddr
  obtain rfl : q = 7 := hsentTo.dstPort
  obtain rfl : 0xC0000201 = a := Except.ok.inj hsentTo.dstAddr
  obtain ⟨b, hb, -, hport⟩ := hsentTo.srcPort
  cases hb
  obtain rfl : 5555 = p := hport
  exact ⟨frame, fun k hk => (hread k _ hk).mpr ⟨deliverable_hi, rfl⟩⟩

/-! ## A ping -/

/-- The echo request `sendIcmp` builds. -/
def sendIcmp.echo (identifier sequenceNumber : UInt16) : Bytes :=
  echoMessage typeEcho 0
    (~~~ UInt16.ofNat (fold16 (2048 + identifier.toNat + sequenceNumber.toNat))) identifier
    sequenceNumber []

/-- What an echo request of `g` needs to get past the handlers of `h`, and to be answered. -/
structure Pingable (g h : Host) (identifier sequenceNumber : UInt16) (dst : UInt32) (id : UInt16) :
    Prop where
  legible : Legible g h icmpType (sendIcmp.echo identifier sequenceNumber) dst id
  checksum : identifier.toNat + sequenceNumber.toNat ≠ 129023
  answered : ¬ h.Refuses h.unicast g.unicast

section

variable {g h : Host} {m n k : Machine} {s : Stack} {identifier sequenceNumber id : UInt16}
  {dst : UInt32} {mac : Bytes}

/-- `sendIcmp` is an output of its echo request, and hides a failed resolution. -/
theorem sendIcmp_eq (cfg : Config) (identifier sequenceNumber : UInt16) (dst : UInt32)
    (interface : IpNetworkInterface) :
    ∃ handler : Err → Option (Call ℤ),
      (∀ what, handler (.arpResolveException what) = some (pure 0)) ∧
        sendIcmp cfg identifier sequenceNumber dst interface =
          ((ipv4Output cfg icmpType (sendIcmp.echo identifier sequenceNumber) interface.unicast
            dst).catching handler >>= fun _ => pure 0) := by
  have hidentifier : IcmpDataEcho.setIdentifier (List.replicate 8 0) identifier =
      .ok (echoMessage 0 0 0 identifier 0 []) := rfl
  have hsequenceNumber : IcmpDataEcho.setSequenceNumber (echoMessage 0 0 0 identifier 0 [])
      sequenceNumber = .ok (echoMessage 0 0 0 identifier sequenceNumber []) := rfl
  have htype : IcmpDataEcho.setType (echoMessage 0 0 0 identifier sequenceNumber []) typeEcho =
      .ok (echoMessage typeEcho 0 0 identifier sequenceNumber []) := rfl
  have hcode : IcmpDataEcho.setCode (echoMessage typeEcho 0 0 identifier sequenceNumber []) 0 =
      .ok (echoMessage typeEcho 0 0 identifier sequenceNumber []) := rfl
  have hchecksum (checksum : UInt16) : IcmpDataEcho.setChecksum
      (echoMessage typeEcho 0 0 identifier sequenceNumber []) checksum =
        .ok (echoMessage typeEcho 0 checksum identifier sequenceNumber []) := rfl
  have hinfo : IcmpDataEcho.info (sendIcmp.echo identifier sequenceNumber) = .ok () := rfl
  have hlen : (echoMessage typeEcho 0 0 identifier sequenceNumber []).length = 8 := rfl
  have hsum : wordSum (echoMessage typeEcho 0 0 identifier sequenceNumber []) =
      2048 + identifier.toNat + sequenceNumber.toNat := by
    have htype : typeEcho.toNat = 8 := rfl
    have hcode : (0 : UInt8).toNat = 0 := rfl
    rw [IcmpDataEcho.wordSum_echoMessage, wordSum_nil, htype, hcode, UInt16.toNat_zero]
    omega
  rw [sendIcmp, hidentifier, Comp.lift_ok_bind, hsequenceNumber, Comp.lift_ok_bind, htype,
    Comp.lift_ok_bind, hcode, Comp.lift_ok_bind, hchecksum, Comp.lift_ok_bind,
    calculateChecksum_all (by rw [hlen]) (by rw [hlen]; omega), Comp.lift_ok_bind, hsum]
  dsimp only
  rw [hchecksum, Comp.lift_ok_bind, ← sendIcmp.echo, hinfo, Comp.lift_ok_bind]
  refine ⟨_, ?_, rfl⟩
  exact fun _ => rfl

/-- Its checksum verifies unless the fold of its sum loses a carry. -/
theorem fold16_echo : fold16 (wordSum (sendIcmp.echo identifier sequenceNumber)) = 65535 ↔
    identifier.toNat + sequenceNumber.toNat ≠ 129023 := by
  have hi := identifier.toNat_lt
  have hn := sequenceNumber.toNat_lt
  have hsum : wordSum (sendIcmp.echo identifier sequenceNumber) =
      2048 + identifier.toNat + sequenceNumber.toNat +
        (65535 - fold16 (2048 + identifier.toNat + sequenceNumber.toNat)) := by
    rw [sendIcmp.echo, IcmpDataEcho.wordSum_echoMessage, toNat_not_fold16]
    simp only [wordSum_nil]
    have htype : typeEcho.toNat = 8 := rfl
    have hcode : (0 : UInt8).toNat = 0 := rfl
    omega
  rw [hsum, fold16_complement_iff (by omega), CarryLost]
  omega

/-- What `sendIcmp` of a host returns. -/
theorem sendIcmp_run (hs : EtherCache s) (hsends : ¬ g.Refuses g.unicast dst)
    (identifier sequenceNumber : UInt16) :
    (sendIcmp g.config identifier sequenceNumber dst ⟨interfaceFamilyIp, g.unicast⟩).run s =
      if ArpCache.select s.arpCache g.gateway = none then .done (g.write s .arpRequest) 0
      else .done (g.write s (.ipv4 icmpType (sendIcmp.echo identifier sequenceNumber) dst)) 0 := by
  obtain ⟨handler, hhandler, heq⟩ := sendIcmp_eq g.config identifier sequenceNumber dst
    ⟨interfaceFamilyIp, g.unicast⟩
  rw [heq]
  rcases ipv4Output_cases icmpType (sendIcmp.echo identifier sequenceNumber) dst hs
    (fun _ => rfl) with ⟨hbig, -⟩ | ⟨hrefuses, -⟩ | ⟨-, -, ⟨hnone, hmiss⟩ | ⟨⟨c, hc⟩, hhit⟩⟩
  · exact absurd hbig (by rw [sendIcmp.echo, IcmpDataEcho.length_echoMessage]; decide)
  · exact absurd hrefuses hsends
  · rw [if_pos hnone]
    refine Comp.bind_done (a := 0) ?_
    simp only [Comp.catching, hmiss, hhandler]
    rfl
  · rw [if_neg (by rw [hc]; exact Option.some_ne_none c)]
    refine Comp.bind_done (a := 0) ?_
    simp only [Comp.catching, hhit]

/-- **Reading an echo request**: it is answered. -/
theorem reads_echo (hn : n.Idle) (hmac : mac.length = 6) (hcache : EtherCache n.stack)
    (hknown : ∃ c, ArpCache.select n.stack.arpCache h.gateway = some c) :
    n.Reads h ((Output.ipv4 icmpType (sendIcmp.echo identifier sequenceNumber) dst).frame g mac id)
        k ↔
      Pingable g h identifier sequenceNumber dst id ∧
        k = { n with stack := h.write n.stack (.ipv4 icmpType
          (IcmpHandler.replyBytes (sendIcmp.echo identifier sequenceNumber)) g.unicast) } := by
  have hlen : (sendIcmp.echo identifier sequenceNumber).length = 8 := rfl
  have hicmp : ipProtocolInit h.config icmpType = some (IcmpHandler.handle h.config) := rfl
  have htype : u8 (sendIcmp.echo identifier sequenceNumber) 0 = typeEcho := rfl
  rw [reads_packet hn hmac (by omega), hicmp]
  dsimp only
  rw [IcmpHandler.handle_eq (by omega) (by omega) (by omega), if_pos htype]
  rcases ipv4Output_cases icmpType (IcmpHandler.replyBytes
    (sendIcmp.echo identifier sequenceNumber)) g.unicast hcache (fun _ => rfl) with
    ⟨hbig, -⟩ | ⟨hrefuses, what, hthrew⟩ | ⟨hanswers, -, ⟨hnone, -⟩ | ⟨-, hhit⟩⟩
  · rw [IcmpHandler.length_replyBytes (by omega)] at hbig
    omega
  · have hend : (ipv4Output h.config icmpType (IcmpHandler.replyBytes
        (sendIcmp.echo identifier sequenceNumber)) h.unicast g.unicast >>= fun _ =>
          (pure 0 : Call ℤ)).run n.stack = .threw n.stack (.runtimeError what) :=
      Comp.bind_threw hthrew
    rw [hend]
    refine ⟨?_, fun hping => absurd hrefuses hping.1.answered⟩
    rintro ⟨-, -, v, hv⟩
    split at hv <;> cases hv
  · obtain ⟨c, hc⟩ := hknown
    rw [hnone] at hc
    cases hc
  · have hend : (ipv4Output h.config icmpType (IcmpHandler.replyBytes
        (sendIcmp.echo identifier sequenceNumber)) h.unicast g.unicast >>= fun _ =>
          (pure 0 : Call ℤ)).run n.stack = .done (h.write n.stack (.ipv4 icmpType
            (IcmpHandler.replyBytes (sendIcmp.echo identifier sequenceNumber)) g.unicast)) 0 :=
      Comp.bind_done hhit
    rw [hend]
    refine ⟨?_, ?_⟩
    · rintro ⟨hlegible, hidle, v, hv⟩
      split at hv
      · cases hv
      · rename_i hchecksum
        obtain ⟨hk, -⟩ := Outcome.done.inj hv
        refine ⟨⟨hlegible, fold16_echo.mp (not_not.mp hchecksum), hanswers⟩, ?_⟩
        rw [hk, hn.trans hidle.symm]
    · rintro ⟨hping, rfl⟩
      exact ⟨hping.legible, hn, 0, if_neg (not_not.mpr (fold16_echo.mpr hping.checksum))⟩

/-- The answer is a valid reply: the sum of its words is too small to lose a carry. -/
theorem echoReply_echo (identifier sequenceNumber : UInt16) :
    EchoReply (sendIcmp.echo identifier sequenceNumber)
      (IcmpHandler.replyBytes (sendIcmp.echo identifier sequenceNumber)) := by
  have hlen : (sendIcmp.echo identifier sequenceNumber).length = 8 := rfl
  have hi := identifier.toNat_lt
  have hn := sequenceNumber.toNat_lt
  have hkept : ¬ CarryLost (echoSum (sendIcmp.echo identifier sequenceNumber)) := by
    have hcode : (0 : UInt8).toNat = 0 := rfl
    rw [sendIcmp.echo, IcmpHandler.echoSum_echoMessage, wordSum_nil, hcode, CarryLost]
    omega
  have hverify := IcmpHandler.verifyChecksum_replyBytes
    (d := sendIcmp.echo identifier sequenceNumber) (by omega) (by omega) (by omega)
  rw [decide_eq_true hkept] at hverify
  exact ⟨IcmpHandler.echoes_replyBytes (by omega), hverify⟩

/-- **Reading a reply** changes nothing. -/
theorem reads_echoReply (hn : n.Idle) (hmac : mac.length = 6) :
    n.Reads g ((Output.ipv4 icmpType (IcmpHandler.replyBytes
        (sendIcmp.echo identifier sequenceNumber)) dst).frame h mac id) k ↔
      Legible h g icmpType (IcmpHandler.replyBytes (sendIcmp.echo identifier sequenceNumber)) dst
        id ∧ k = n := by
  have hlen : (IcmpHandler.replyBytes (sendIcmp.echo identifier sequenceNumber)).length = 8 :=
    IcmpHandler.length_replyBytes (Nat.le_refl 8)
  have hicmp : ipProtocolInit g.config icmpType = some (IcmpHandler.handle g.config) := rfl
  have htype : u8 (IcmpHandler.replyBytes (sendIcmp.echo identifier sequenceNumber)) 0 ≠
      typeEcho := by
    rw [sendIcmp.echo, IcmpHandler.replyBytes_echoMessage]
    exact fun h => absurd h (by decide : typeEchoReply ≠ typeEcho)
  have hchecksum : fold16 (wordSum (IcmpHandler.replyBytes
      (sendIcmp.echo identifier sequenceNumber))) = 65535 := by
    have hverify := (echoReply_echo identifier sequenceNumber).checksum
    rw [verifyChecksum_all (by omega) (by omega)] at hverify
    exact of_decide_eq_true (Except.ok.inj hverify)
  rw [reads_packet hn hmac (by omega), hicmp]
  dsimp only
  rw [IcmpHandler.handle_eq (by omega) (by omega) (by omega), if_neg (not_not.mpr hchecksum),
    if_neg htype]
  refine ⟨?_, ?_⟩
  · rintro ⟨hlegible, hidle, v, hv⟩
    obtain ⟨queues, t⟩ := k
    obtain rfl : n.stack = t := (Outcome.done.inj hv).1
    obtain rfl : n.protocolQueues = queues := hn.trans hidle.symm
    exact ⟨hlegible, rfl⟩
  · rintro ⟨hlegible, rfl⟩
    exact ⟨hlegible, hn, 0, rfl⟩

/-- A ping in six steps: the states `m` of the host that sends it, those of the other host `n`, and
the two packets. -/
structure PingSteps (g h : Host) (identifier sequenceNumber : UInt16) (dst : UInt32)
    (m m₁ m₂ m₃ n n₁ n₂ : Machine) (frame answer : Bytes) : Prop where
  first : (sendIcmp g.config identifier sequenceNumber dst ⟨interfaceFamilyIp, g.unicast⟩).run
    m.stack = .done m₁.stack 0
  asked : m₁.stack.sent = m.stack.sent ++ [requestFrom g]
  request : n.Reads h (requestFrom g) n₁
  told : n₁.stack.sent = n.stack.sent ++ [replyTo g h]
  reply : m₁.Reads g (replyTo g h) m₂
  second : (sendIcmp g.config identifier sequenceNumber dst ⟨interfaceFamilyIp, g.unicast⟩).run
    m₂.stack = .done m₃.stack 0
  sent : m₃.stack.sent = m₁.stack.sent ++ [frame]
  echo : ∀ k, n₁.Reads h frame k ↔
    Pingable g h identifier sequenceNumber dst m₁.stack.ipId ∧ k = n₂
  answered : n₂ = { n₁ with stack := h.write n₁.stack (.ipv4 icmpType
    (IcmpHandler.replyBytes (sendIcmp.echo identifier sequenceNumber)) g.unicast) }
  written : n₂.stack.sent = n₁.stack.sent ++ [answer]
  echoReply : ∀ k, m₃.Reads g answer k ↔ Legible h g icmpType
    (IcmpHandler.replyBytes (sendIcmp.echo identifier sequenceNumber)) g.unicast n₁.stack.ipId ∧
      k = m₃

/-- **A ping over the wire.** The first call returns 0, and has only asked for the gateway. Once the
request and the reply to it were read, the second call sends the echo request; the other host reads
it exactly when it is `Pingable`, and writes one frame: a valid reply to it. That is read exactly
when its header is, and changes nothing. -/
theorem link_ping (hgh : Neighbours g h) (hm : m.Idle) (hn : n.Idle) (hcache : EtherCache m.stack)
    (hcache' : EtherCache n.stack) (hsends : ¬ g.Refuses g.unicast dst)
    (hnone : ArpCache.select m.stack.arpCache g.gateway = none)
    (identifier sequenceNumber : UInt16) :
    EchoReply (sendIcmp.echo identifier sequenceNumber)
        (IcmpHandler.replyBytes (sendIcmp.echo identifier sequenceNumber)) ∧
      ∃ m₁ m₂ m₃ n₁ n₂ frame answer,
        PingSteps g h identifier sequenceNumber dst m m₁ m₂ m₃ n n₁ n₂ frame answer := by
  have hfirst := sendIcmp_run hcache hsends identifier sequenceNumber
  rw [if_pos hnone] at hfirst
  -- the same host, once it was answered
  have hcache₁ : EtherCache (m.ask g).stack := hcache
  have hidle : (m.ask g).Idle := hm
  obtain ⟨⟨c, hc⟩, hmac⟩ := gatewayAddress_learn (m := m.ask g) hgh hnone
  have hsecond := sendIcmp_run (etherCache_learn (h := h) hcache₁) hsends identifier sequenceNumber
  rw [if_neg (by rw [hc]; exact Option.some_ne_none c)] at hsecond
  -- the other host, once it was asked
  have hcache₂ : EtherCache ((n.learn g).write (replyTo g h)).stack := etherCache_learn hcache'
  have hidle₂ : ((n.learn g).write (replyTo g h)).Idle := hn
  have hknown : ∃ c, ArpCache.select ((n.learn g).write (replyTo g h)).stack.arpCache h.gateway =
      some c := exists_select_learn hgh
  have hlength := h.length_gatewayAddress hcache₂ hknown
  refine ⟨echoReply_echo identifier sequenceNumber, m.ask g, (m.ask g).learn h,
    ⟨m.protocolQueues, g.write ((m.ask g).learn h).stack
      (.ipv4 icmpType (sendIcmp.echo identifier sequenceNumber) dst)⟩,
    (n.learn g).write (replyTo g h),
    ⟨n.protocolQueues, h.write ((n.learn g).write (replyTo g h)).stack (.ipv4 icmpType
      (IcmpHandler.replyBytes (sendIcmp.echo identifier sequenceNumber)) g.unicast)⟩,
    (Output.ipv4 icmpType (sendIcmp.echo identifier sequenceNumber) dst).frame g h.address.val
      (m.ask g).stack.ipId,
    (Output.ipv4 icmpType (IcmpHandler.replyBytes (sendIcmp.echo identifier sequenceNumber))
      g.unicast).frame h (h.gatewayAddress ((n.learn g).write (replyTo g h)).stack) n.stack.ipId,
    ?_⟩
  constructor
  case first => exact hfirst
  case asked => rfl
  case request => exact (reads_request hgh hn).mpr rfl
  case told => rfl
  case reply => exact (reads_reply g h hidle).mpr rfl
  case second => exact hsecond
  case sent =>
    rw [Host.write, hmac]
    rfl
  case echo => exact fun k => reads_echo hidle₂ h.address.length_val hcache₂ hknown
  case answered => rfl
  case written => rfl
  case echoReply => exact fun k => reads_echoReply hidle hlength

end

/-- With identifier and sequence number 1. -/
theorem link_ping_one : Pingable exampleHost peerHost 1 1 0xC0000201 129 ∧
    ∃ m₁ m₂ m₃ n₁ n₂ frame answer, PingSteps exampleHost peerHost 1 1 0xC0000201 boundMachine m₁ m₂
      m₃ Machine.init n₁ n₂ frame answer :=
  have hidle : boundMachine.Idle := rfl
  have hinit : Machine.init.Idle := rfl
  have hsends : ¬ exampleHost.Refuses exampleHost.unicast 0xC0000201 := by
    rw [Host.Refuses]
    decide
  have hanswers : ¬ peerHost.Refuses peerHost.unicast exampleHost.unicast := by
    rw [Host.Refuses]
    decide
  ⟨⟨⟨by decide, rfl, by decide⟩, by decide, hanswers⟩,
    (link_ping exampleHost_neighbours hidle hinit (fun _ hc => absurd hc List.not_mem_nil)
      (fun _ hc => absurd hc List.not_mem_nil) hsends rfl 1 1).2⟩

end Suika
