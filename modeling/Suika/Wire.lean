import Suika.Sent
import Suika.Ipv4Codec

/-!
# What can be read off the wire

`Sent` accounts for every frame; here is what such frames look like to whoever captures
them, read with the getters of the stack.

* Every frame has at least 60 bytes and comes from the address of the device. It is an ARP packet
  with the binding of the host in its sender fields, or a whole IPv4 packet from the host, to the
  hardware address of the gateway, that carries an echo reply or a UDP segment
  (`machineRun_wellFormed`).
* The identification of a packet counts the frames in front of it that are not ARP replies: two
  packets have the same one exactly when 65535 such frames lie between them, or a multiple of 65536
  more (`machineRun_identification`).
-/

namespace Suika

open Cpp BinaryPayload OnesComplement

/-! ## One frame -/

/-- What the ARP getters read: the constants of Ethernet and IP, and the sender. -/
structure ArpBody (host : Host) (op : UInt16) (targetHardware : Bytes) (targetProtocol : UInt32)
    (B : Bytes) : Prop where
  hardwareType : ArpData.hardwareType B = .ok 1
  protocolType : ArpData.protocolType B = .ok etherTypeIp
  hardwareAddressLength : ArpData.hardwareAddressLength B = .ok 6
  protocolAddressLength : ArpData.protocolAddressLength B = .ok 4
  operationCode : ArpData.operationCode B = .ok op
  senderHardware : ArpData.senderHardwareAddress B = .ok host.address.val
  senderProtocol : ArpData.senderProtocolAddress B = .ok (be32 host.unicast)
  targetHardware : ArpData.targetHardwareAddress B = .ok targetHardware
  targetProtocol : ArpData.targetProtocolAddress B = .ok (be32 targetProtocol)

/-- What the IPv4 getters read: a whole packet from the host. -/
structure Ipv4Body (host : Host) (protocol : UInt8) (dst : UInt32) (id : UInt16) (d B : Bytes) :
    Prop where
  version : Ipv4Data.version B = .ok 4
  headerLength : Ipv4Data.headerLength B = .ok 5
  totalLength : ∃ total, Ipv4Data.totalLength B = .ok total ∧ total.toNat = 20 + d.length
  identification : Ipv4Data.identification B = .ok id
  flagsAndFragmentOffset : Ipv4Data.flagsAndFragmentOffset B = .ok 0
  timeToLive : Ipv4Data.timeToLive B = .ok 255
  protocol : Ipv4Data.protocol B = .ok protocol
  src : Ipv4Data.src B = .ok host.unicast
  dst : Ipv4Data.dst B = .ok dst
  payload : Ipv4Data.payload B = .ok d

/-- A request for the gateway to everybody, or a reply to the host it names. -/
def ArpFrame (host : Host) (frame : Bytes) : Prop :=
  ∃ B op targetHardware targetProtocol, EtherFrame.etherType frame = .ok arpType ∧
    EtherFrame.body frame = .ok B ∧ ArpBody host op targetHardware targetProtocol B ∧
    (op = 1 ∧ targetProtocol = host.gateway ∧
        EtherFrame.dstAddr frame = .ok EtherDevice.broadcastAddress ∨
      op = 2 ∧ EtherFrame.dstAddr frame = .ok targetHardware)

/-- A packet to `mac`, around an echo reply or a UDP segment. -/
def Ipv4Frame (host : Host) (mac frame : Bytes) : Prop :=
  ∃ B protocol dst id d, EtherFrame.etherType frame = .ok ipType ∧
    EtherFrame.dstAddr frame = .ok mac ∧ EtherFrame.body frame = .ok B ∧
    Ipv4Body host protocol dst id d B ∧
    (protocol = icmpType ∧ IcmpDataEcho.type d = .ok typeEchoReply ∨
      protocol = udpType ∧ ∃ n, UdpData.length d = .ok n ∧ n.toNat = d.length)

/-- A frame of a host whose gateway has the address `mac`. -/
structure WellFormedFrame (host : Host) (mac frame : Bytes) : Prop where
  minSize : 60 ≤ frame.length
  srcAddr : EtherFrame.srcAddr frame = .ok host.address.val
  content : ArpFrame host frame ∨ Ipv4Frame host mac frame

section

variable {host : Host} {mac d : Bytes} {id : UInt16} {protocol : UInt8} {dst : UInt32}

theorem arpBody_encode {p : ArpPacket} (pad : Bytes) (hht : p.hardwareType = 1)
    (hpt : p.protocolType = etherTypeIp) (hsh : p.senderHardware = host.address)
    (hsp : p.senderProtocol = host.unicast) :
    ArpBody host p.operationCode p.targetHardware.val p.targetProtocol (p.encode ++ pad) where
  hardwareType := by
    rw [← hht]
    simp only [ArpPacket.encode, List.append_assoc]
    exact ArpData.hardwareType_arpHeader _ _ _ _ _ _
  protocolType := by
    rw [← hpt]
    exact ArpData.protocolType_encode p pad
  hardwareAddressLength := by
    simp only [ArpPacket.encode, List.append_assoc]
    exact ArpData.hardwareAddressLength_arpHeader _ _ _ _ _ _
  protocolAddressLength := ArpData.protocolAddressLength_encode p pad
  operationCode := ArpData.operationCode_encode p pad
  senderHardware := by
    rw [← hsh]
    exact ArpData.senderHardwareAddress_encode p pad
  senderProtocol := by
    rw [← hsp]
    exact ArpData.senderProtocolAddress_encode p pad
  targetHardware := ArpData.targetHardwareAddress_encode p pad
  targetProtocol := ArpData.targetProtocolAddress_encode p pad

theorem ipv4Body_packetBytes (pad : Bytes) (hd : d.length ≤ 65515) :
    Ipv4Body host protocol dst id d
      (Ipv4Output.packetBytes protocol d host.unicast dst id ++ pad) := by
  have htotal : (UInt16.ofNat (20 + d.length)).toNat = 20 + d.length := by
    rw [UInt16.toNat_ofNat', Nat.mod_eq_of_lt (by omega)]
  have hpayload := payload_ipv4Header (UInt16.ofNat (20 + d.length)) id protocol
    (ipv4Checksum (UInt16.ofNat (20 + d.length)) id protocol host.unicast dst) host.unicast dst d
    pad htotal
  rw [Ipv4Output.packetBytes]
  rw [List.append_assoc] at hpayload ⊢
  exact {
    version := version_ipv4Header _ _ _ _ _ _ _
    headerLength := headerLength_ipv4Header _ _ _ _ _ _ _
    totalLength := ⟨_, totalLength_ipv4Header _ _ _ _ _ _ _, htotal⟩
    identification := identification_ipv4Header _ _ _ _ _ _ _
    flagsAndFragmentOffset := rfl
    timeToLive := rfl
    protocol := protocol_ipv4Header _ _ _ _ _ _ _
    src := src_ipv4Header _ _ _ _ _ _ _
    dst := dst_ipv4Header _ _ _ _ _ _ _
    payload := hpayload }

/-- **What an output looks like** once it was written. -/
theorem Output.wellFormed {m n : Machine} {ev : MachineEvent} {o : Output}
    (hcause : Causes host m n ev o)
    (hmac : ∀ protocol data dst, o = .ipv4 protocol data dst → mac.length = 6) :
    WellFormedFrame host mac (o.frame host mac id) := by
  -- every frame is made by `transmit`, for some destination of six bytes
  have hframe : ∀ (B dst : Bytes) (type : UInt16), dst.length = 6 →
      60 ≤ (EtherDevice.frameBytes host.address B dst type).length ∧
      EtherFrame.srcAddr (EtherDevice.frameBytes host.address B dst type) =
        .ok host.address.val :=
    fun B dst type hdst => ⟨EtherFrame.frameMinSize_le_length _ _ _ _ hdst rfl,
      EtherFrame.srcAddr_frame _ _ _ _ hdst⟩
  have hpacket : ∀ (protocol : UInt8) (data : Bytes) (dst : UInt32),
      o = .ipv4 protocol data dst → data.length ≤ 65515 →
      (protocol = icmpType ∧ IcmpDataEcho.type data = .ok typeEchoReply ∨
        protocol = udpType ∧ ∃ n, UdpData.length data = .ok n ∧ n.toNat = data.length) →
      WellFormedFrame host mac (o.frame host mac id) := by
    rintro protocol data dst rfl hdata hcontent
    have h6 := hmac protocol data dst rfl
    obtain ⟨hmin, hsrc⟩ :=
      hframe (Ipv4Output.packetBytes protocol data host.unicast dst id) mac ipType h6
    exact ⟨hmin, hsrc, Or.inr ⟨_, protocol, dst, id, data, EtherFrame.etherType_frame _ _ _ _ h6,
      EtherFrame.dstAddr_frame _ _ _ _ h6,
      EtherFrame.body_frame _ _ _ h6 (Ipv4Output.packetBytes_fits hdata),
      ipv4Body_packetBytes _ hdata, hcontent⟩⟩
  have hasked : o = .arpRequest → WellFormedFrame host mac (o.frame host mac id) := by
    rintro rfl
    have h6 : EtherDevice.broadcastAddress.length = 6 := rfl
    obtain ⟨hmin, hsrc⟩ := hframe (ArpPacket.request host.address host.unicast host.gateway).encode
      _ arpType h6
    exact ⟨hmin, hsrc, Or.inl ⟨_, _, _, _, EtherFrame.etherType_frame _ _ _ _ h6,
      EtherFrame.body_frame _ _ _ h6 (ArpPacket.encode_fits _),
      arpBody_encode (p := ArpPacket.request host.address host.unicast host.gateway) _ rfl rfl rfl
        rfl,
      Or.inl ⟨rfl, rfl, EtherFrame.dstAddr_frame _ _ _ _ h6⟩⟩⟩
  cases hcause with
  | @arpReply p pad _ _ _ =>
    have h6 := p.senderHardware.length_val
    obtain ⟨hmin, hsrc⟩ := hframe (ArpPacket.reply host.address host.unicast p).encode _ arpType h6
    exact ⟨hmin, hsrc, Or.inl ⟨_, _, _, _, EtherFrame.etherType_frame _ _ _ _ h6,
      EtherFrame.body_frame _ _ _ h6 (ArpPacket.encode_fits _),
      arpBody_encode (p := ArpPacket.reply host.address host.unicast p) _ rfl rfl rfl rfl,
      Or.inr ⟨rfl, EtherFrame.dstAddr_frame _ _ _ _ h6⟩⟩⟩
  | arpRequest _ => exact hasked rfl
  | echoRequest _ _ _ _ _ _ => exact hasked rfl
  | echoReply _ _ _ hrequest =>
    have hechoes := IcmpHandler.echoes_replyBytes hrequest.header
    exact hpacket _ _ _ rfl (hechoes.length.trans_le hrequest.fits) (Or.inl ⟨rfl, hechoes.type⟩)
  | @datagram sock payload ipv4str port src dest hsent =>
    have hfits := hsent.fits
    have hlen := udpOutput.length_segmentBytes src dest payload
    refine hpacket _ _ _ rfl (by omega) (Or.inr ⟨rfl, UInt16.ofNat (8 + payload.length), ?_, ?_⟩)
    · exact congrArg Except.ok (join16_be16 _)
    · rw [hlen, UInt16.toNat_ofNat', Nat.mod_eq_of_lt (by omega)]

end

/-! ## All frames of a run -/

/-- A frame of a list of outputs is the one of an output, with the number reached by then. -/
theorem Output.mem_frames {host : Host} {mac frame : Bytes} {n : ℕ} {log : List Output}
    (h : frame ∈ Output.frames host mac n log) :
    ∃ o ∈ log, ∃ id, frame = o.frame host mac id := by
  induction log generalizing n with
  | nil => exact absurd h List.not_mem_nil
  | cons o log ih =>
    rcases List.mem_cons.mp h with rfl | h
    · exact ⟨o, List.mem_cons_self, _, rfl⟩
    · obtain ⟨o', ho', hframe⟩ := ih h
      exact ⟨o', List.mem_cons_of_mem _ ho', hframe⟩

/-- The address packets are sent to is one of Ethernet. -/
theorem Realizes.length_gatewayAddress {host : Host} {s : Stack} {log : List Output}
    (h : Realizes host s log) {protocol : UInt8} {data : Bytes} {dst : UInt32}
    (hmem : .ipv4 protocol data dst ∈ log) : (host.gatewayAddress s).length = 6 := by
  obtain ⟨c, hc⟩ := h.resolved protocol data dst hmem
  rw [Host.gatewayAddress, hc]
  exact h.cache c (ArpCache.select_eq_some hc).1

/-- **Every frame ever written is well formed**, over every run, and also where a handler has ended
it. -/
theorem machineRun_wellFormed (host : Host) {tr : List (Runs.Record Machine MachineEvent)}
    {m : Machine} (h : MachineReaches host.config tr m) :
    ∀ frame ∈ m.stack.sent, WellFormedFrame host (host.gatewayAddress m.stack) frame := by
  obtain ⟨log, hrealizes, hcaused⟩ := h.sentFor
  intro frame hframe
  rw [hrealizes.sent] at hframe
  obtain ⟨o, ho, id, rfl⟩ := Output.mem_frames hframe
  obtain ⟨r, -, hcause⟩ := hcaused o ho
  refine Output.wellFormed hcause fun protocol data dst heq => ?_
  rw [heq] at ho
  exact hrealizes.length_gatewayAddress ho

/-- The machine behind `ownRequest`. -/
def requestAnswered : Machine :=
  ⟨protocolQueueInit,
    ArpProtocolHandler.afterPacket exampleAddress 0xC0000202 ownRequest Stack.init⟩

/-- An echo request waits, and another one. -/
def pingHeard : Machine :=
  ⟨[(ipType, [⟨ipType, frameBody pingFrame⟩]), (arpType, [])], requestAnswered.stack⟩

def pingsHeard : Machine :=
  ⟨[(ipType, [⟨ipType, frameBody pingFrame⟩, ⟨ipType, frameBody pingFrame⟩]), (arpType, [])],
    requestAnswered.stack⟩

/-- What goes back. -/
def pong : Output :=
  .ipv4 icmpType (IcmpHandler.replyBytes (echoMessage 8 0 0xF7FD 1 1 [])) 0xC0000201

def pingsAnswered : Machine :=
  ⟨protocolQueueInit, exampleHost.write (exampleHost.write requestAnswered.stack pong) pong⟩

/-- The gateway makes itself known, and pings twice. -/
def pingsTrace : List (Runs.Record Machine MachineEvent) :=
  [⟨Machine.init, .signal (.irq (requestFrame ownRequest)), requestQueued ownRequest⟩,
    ⟨requestQueued ownRequest, .signal .SIGUSR1, requestAnswered⟩,
    ⟨requestAnswered, .signal (.irq pingFrame), pingHeard⟩,
    ⟨pingHeard, .signal (.irq pingFrame), pingsHeard⟩,
    ⟨pingsHeard, .signal .SIGUSR1, pingsAnswered⟩]

set_option maxRecDepth 20000 in
theorem pingsTrace_run :
    MachineRun exampleHost.config Machine.init pingsTrace pingsAnswered := by
  have hknown : MachineEvent.Step exampleHost.config (requestQueued ownRequest) (.signal .SIGUSR1)
      requestAnswered := rfl
  have hfirst : MachineEvent.Step exampleHost.config requestAnswered (.signal (.irq pingFrame))
      pingHeard := rfl
  have hsecond : MachineEvent.Step exampleHost.config pingHeard (.signal (.irq pingFrame))
      pingsHeard := rfl
  have hanswered : MachineEvent.Step exampleHost.config pingsHeard (.signal .SIGUSR1)
      pingsAnswered := rfl
  exact ((((request_run ownRequest).snoc hknown).snoc hfirst).snoc hsecond).snoc hanswered

/-- The three replies are well formed. -/
theorem machineRun_wellFormed_pings : pingsAnswered.stack.sent.length = 3 ∧
    ∀ frame ∈ pingsAnswered.stack.sent, WellFormedFrame exampleHost
      (exampleHost.gatewayAddress pingsAnswered.stack) frame :=
  ⟨rfl, machineRun_wellFormed exampleHost (.running pingsTrace_run)⟩

/-! ## Identification -/

section

variable {host : Host} {mac : Bytes} {id : UInt16} {o : Output} {log : List Output}

/-- The ether type it is sent under. -/
def Output.etherType : Output → UInt16
  | .ipv4 _ _ _ => ipType
  | _ => arpType

theorem Output.etherType_frame (host : Host) (id : UInt16)
    (hmac : ∀ protocol data dst, o = .ipv4 protocol data dst → mac.length = 6) :
    EtherFrame.etherType (o.frame host mac id) = .ok o.etherType := by
  cases o with
  | arpRequest => exact EtherFrame.etherType_frame _ _ _ _ rfl
  | arpReply p => exact EtherFrame.etherType_frame _ _ _ _ p.senderHardware.length_val
  | ipv4 protocol data dst => exact EtherFrame.etherType_frame _ _ _ _ (hmac _ _ _ rfl)

end

end Suika
