import Suika.Wire
import Suika.Receive

/-!
# Datagrams between hosts

Any number of hosts run the program, and packets travel between them through gateways. On its way a
frame may be rewritten, delayed, lost and repeated; what stays of a packet is its protocol, its
addresses and its payload. Whoever else is on the network may send what he likes, as long as he does
not do it in the name of a host; ARP is not restricted at all.

`networkRun_authentic`: a datagram that waits at a socket in the name of a host was sent by the
application of that host, to the host and port the socket had when it came, with this payload and
the 8 bytes `payload()` appends. The checksums play no part in it.
-/

namespace Suika

open Cpp BinaryPayload UdpPcbManager

/-- The hosts of a network. No two have the same unicast address. -/
structure Network (H : Type) : Type where
  host : H → Host
  /-- unicast addresses are pairwise distinct -/
  unicast_inj : ∀ g h, (host g).unicast = (host h).unicast → g = h

/-- What a gateway keeps of the packet in a frame that was sent. -/
structure Relayed (sent : Bytes) (body : Bytes) : Prop where
  etherType : EtherFrame.etherType sent = .ok ipType
  protocol : u8 body 9 = u8 (sent.drop 14) 9
  src : u32 body 12 = u32 (sent.drop 14) 12
  dst : u32 body 16 = u32 (sent.drop 14) 16
  payload : Ipv4Data.payloadBytes body = Ipv4Data.payloadBytes (sent.drop 14)

/-- One step of a run of a network. -/
abbrev NetworkRecord (H : Type) : Type := Runs.Record (H → Machine) (H × MachineEvent)

namespace Network

variable {H : Type} (net : Network H)

/-- A packet that can be read somewhere: some host has sent it, or it is in nobody's name. -/
def Carried (s : H → Machine) (body : Bytes) : Prop :=
  (∃ g, ∃ sent ∈ (s g).stack.sent, Relayed sent body) ∨ ∀ g, u32 body 12 ≠ (net.host g).unicast

/-- One step: an event at one host. -/
structure Step (s : H → Machine) (ev : H × MachineEvent) (t : H → Machine) : Prop where
  part : Runs.AtPart (fun h => MachineEvent.Step (net.host h).config) s ev t
  carried : ∀ frame, ev.2 = .signal (.irq frame) → frameType frame = ipType →
    net.Carried s (frameBody frame)
  proper : ev.2.Proper

/-- Runs of the network from the start, with their trace. -/
abbrev Run (tr : List (NetworkRecord H)) (s : H → Machine) : Prop :=
  Runs.Run net.Step (fun _ => Machine.init) tr s

/-- The call behind a UDP packet in the name of a host. -/
def Origin (tr : List (NetworkRecord H)) (body : Bytes) : Prop :=
  u8 body 9 = udpType → ∀ g, u32 body 12 = (net.host g).unicast →
    ∃ r ∈ tr, ∃ sock payload ipv4str port src dest,
      r.label = (g, .call (.sendTo sock payload ipv4str port)) ∧
      SentTo (net.host g) (r.post g).stack sock payload ipv4str port src dest ∧
      u32 body 16 = dest.addr ∧
      Ipv4Data.payloadBytes body = udpOutput.segmentBytes src dest payload

/-- The way of a datagram from an application of `g` to block `i` of `h`: it was sent first, with 8
bytes less; then it came, and the block was the one for its destination. -/
def Delivered (tr : List (NetworkRecord H)) (g h : H) (i : ℕ) (d : UdpPcbPayload) : Prop :=
  ∃ before r after, tr = before ++ r :: after ∧ r.label = (h, .signal .SIGUSR1) ∧
    ∃ q ∈ before, ∃ sock payload ipv4str port dest,
      q.label = (g, .call (.sendTo sock payload ipv4str port)) ∧
      SentTo (net.host g) (q.post g).stack sock payload ipv4str port d.endpoint dest ∧
      dest.addr = (net.host h).unicast ∧
      (r.pre h).stack.udpPcbMgr.select dest.addr dest.port = some i ∧
      d.data = payload ++ List.replicate 8 0

end Network

/-! ## One host -/

section

variable {host : Host} {m n : Machine} {ev : MachineEvent}

/-- What can be read in the packets of a host. -/
theorem Ipv4Body.reads {protocol : UInt8} {dst : UInt32} {id : UInt16} {d B : Bytes}
    (h : Ipv4Body host protocol dst id d B) (h20 : 20 ≤ B.length) :
    u8 B 9 = protocol ∧ u32 B 12 = host.unicast ∧ u32 B 16 = dst ∧
      Ipv4Data.payloadBytes B = d := by
  refine ⟨?_, ?_, ?_, ?_⟩
  · exact Except.ok.inj ((readUint8_eq (by omega)).symm.trans h.protocol)
  · exact Except.ok.inj ((readUint32_eq (by omega)).symm.trans h.src)
  · exact Except.ok.inj ((readUint32_eq (by omega)).symm.trans h.dst)
  · have hpayload := h.payload
    rw [Ipv4Data.payload_run h20] at hpayload
    split at hpayload
    · cases hpayload
    split at hpayload
    · cases hpayload
    · exact Except.ok.inj hpayload

/-- A packet that was sent has a cause. -/
theorem MachineRun.sent_packet {tr : List (Runs.Record Machine MachineEvent)}
    (hrun : MachineRun host.config Machine.init tr m) {sent : Bytes} (hsent : sent ∈ m.stack.sent)
    (htype : EtherFrame.etherType sent = .ok ipType) :
    ∃ protocol data dst,
      (∃ r ∈ tr, Causes host r.pre r.post r.label (.ipv4 protocol data dst)) ∧
      u8 (sent.drop 14) 9 = protocol ∧ u32 (sent.drop 14) 12 = host.unicast ∧
      u32 (sent.drop 14) 16 = dst ∧ Ipv4Data.payloadBytes (sent.drop 14) = data := by
  obtain ⟨log, hrealizes, hcaused⟩ := hrun.sentFor
  rw [hrealizes.sent] at hsent
  obtain ⟨o, ho, id, rfl⟩ := Output.mem_frames hsent
  have hmac : ∀ protocol data dst, o = .ipv4 protocol data dst →
      (host.gatewayAddress m.stack).length = 6 :=
    fun protocol data dst heq => hrealizes.length_gatewayAddress (heq ▸ ho)
  rw [Output.etherType_frame host id hmac] at htype
  have hne : arpType ≠ ipType := by decide
  cases o with
  | arpRequest => exact absurd (Except.ok.inj htype) hne
  | arpReply p => exact absurd (Except.ok.inj htype) hne
  | ipv4 protocol data dst =>
    obtain ⟨r, hr, hcause⟩ := hcaused _ ho
    refine ⟨protocol, data, dst, ⟨r, hr, hcause⟩, ?_⟩
    have h60 : 60 ≤ (Output.frame host (host.gatewayAddress m.stack) id
        (.ipv4 protocol data dst)).length :=
      EtherFrame.frameMinSize_le_length _ _ _ _ (hmac _ _ _ rfl) rfl
    have hdrop : List.drop 14 (Output.frame host (host.gatewayAddress m.stack) id
        (.ipv4 protocol data dst)) = _ ++ _ := EtherFrame.drop_frame _ _ _ _ (hmac _ _ _ rfl)
    have hread : Ipv4Body host protocol dst id data (List.drop 14 _) :=
      hdrop ▸ ipv4Body_packetBytes _ hcause.length_le
    exact hread.reads (by rw [List.length_drop]; omega)

/-- A packet waits because it was read. -/
theorem MachineEvent.Step.packets_cases (h : MachineEvent.Step host.config m ev n)
    (hinv : MachineInvariant m) {body : Bytes} (hbody : body ∈ n.packets) :
    body ∈ m.packets ∨
      ∃ frame, ev = .signal (.irq frame) ∧ frameType frame = ipType ∧ body = frameBody frame := by
  obtain ⟨e, heffect, rfl⟩ := h.effect
  cases heffect with
  | @queued frame _ =>
    have hpush := Dispatcher.queuedBodies_push hinv
      (Dispatcher.mem_registered.mpr (Or.inl rfl)) ⟨frameType frame, frameBody frame⟩ true []
    have hpackets : Machine.packets { m with
        protocolQueues := m.protocolQueues.push ⟨frameType frame, frameBody frame⟩ } = _ := hpush
    dsimp only at hbody
    rw [hpackets] at hbody
    rcases List.mem_append.mp hbody with hold | hnew
    · exact Or.inl hold
    · split at hnew
      · rename_i htype
        exact Or.inr ⟨frame, rfl, htype, List.mem_singleton.mp hnew⟩
      · exact absurd hnew List.not_mem_nil
  | dropped _ => exact Or.inl hbody
  | drained _ =>
    rw [Machine.packets, List.filter_map, List.flatMap_map] at hbody
    obtain ⟨_, -, hnone⟩ := List.mem_flatMap.mp hbody
    exact absurd hnone List.not_mem_nil
  | other _ _ => exact Or.inl hbody

/-- Every packet that was handled was for this host. -/
theorem handleProtocolSignal_passedOn (h : (handleProtocolSignal host.config).run m = .done n ()) :
    ∀ body ∈ m.packets, Ipv4Data.PassedOn host body := by
  obtain ⟨⟨queues, s⟩, hdrain, -⟩ := Outcome.mapState_eq_done.mp h
  have hadd : ∀ (type : UInt16) (pd : ProtocolData), (protocolHandlers host.config type pd).Adds
      (fun _ log => ∀ body ∈ log, Ipv4Data.PassedOn host body)
      (if type = ipType then [pd.data] else []) := by
    intro type pd s t v log hlog hdone
    split
    · rename_i hip
      have hne : ipType ≠ arpType := by decide
      rw [hip, protocolHandlers, if_neg hne, if_pos rfl] at hdone
      rintro body hbody
      rcases List.mem_append.mp hbody with hbody | hbody
      · exact hlog body hbody
      · rw [List.mem_singleton.mp hbody]
        exact (Ipv4ProtocolHandler.handle_eq_done hdone).1
    · rw [List.append_nil]
      exact hlog
  have hall := drainAll_adds (fun type d => if type = ipType then [d.data] else [])
    (fun p _ d _ => hadd p.1 d) (fun _ hb => absurd hb List.not_mem_nil) hdrain
  rw [List.nil_append, flatMap_packets m.protocolQueues fun body => [body],
    List.flatMap_singleton'] at hall
  exact hall

/-- An operation of the application puts nothing on a queue. -/
theorem UdpOp.que_subset {cfg : Config} {op : UdpOp} (hop : op.FromApplication) {s t : Stack}
    (h : ((op.exec cfg).run s).next? = some t) (i : ℕ) : que t i ⊆ que s i := by
  obtain ⟨ret, hstep⟩ := UdpEvent.exists_step h
  have hnone : ∀ d, op = .handle d → ret ≠ .ok (.handled 0) := by
    rintro d rfl
    exact hop.elim
  have hbal := hstep.balance i
  rw [pushed_eq_nil hnone, List.append_nil] at hbal
  intro d hd
  rw [← hbal]
  exact List.mem_append_right _ hd

/-- A datagram waits because it came in a packet for this host. -/
theorem MachineEvent.Step.que_cases (h : MachineEvent.Step host.config m ev n) (hev : ev.Proper)
    {i : ℕ} {d : UdpPcbPayload} (hd : d ∈ que n.stack i) :
    d ∈ que m.stack i ∨
      ev = .signal .SIGUSR1 ∧ ∃ body ∈ m.packets, Ipv4Data.PassedOn host body ∧
        deliveredTo m.stack.udpPcbMgr i body = some d := by
  cases ev with
  | signal sig =>
    cases sig with
    | SIGHUP =>
      cases h
      exact Or.inl hd
    | SIGUSR1 =>
      rw [(handleProtocolSignal_receives h).que i] at hd
      rcases List.mem_append.mp hd with hd | hd
      · exact Or.inl hd
      · obtain ⟨body, hbody, hdelivered⟩ := List.mem_filterMap.mp hd
        exact Or.inr ⟨rfl, body, hbody, handleProtocolSignal_passedOn h body hbody, hdelivered⟩
    | SIGUSR2 =>
      cases h
      have hque : que { m.stack with udpPcbMgr := m.stack.udpPcbMgr.interruptAll } i =
          que m.stack i := que_interruptAll rfl
      rw [← hque]
      exact Or.inl hd
    | irq frame =>
      obtain ⟨_, _, hhandler, hpure⟩ := Comp.bind_eq_done h
      cases hpure
      obtain rfl | ⟨pd, rfl⟩ := EtherDevice.handler_done hhandler <;> exact Or.inl hd
  | call op =>
    have hnext : (((op.exec host.config).run m.stack).mapState fun s =>
        { m with stack := s }).next? = some n := h
    have hstack : ((op.exec host.config).run m.stack).next? = some n.stack := by
      rcases hr : (op.exec host.config).run m.stack with ⟨t, v⟩ | ⟨t, e⟩ | _ | _ <;>
        rw [hr] at hnext <;> cases hnext <;> rfl
    exact Or.inl (UdpOp.que_subset (hev op rfl) hstack i hd)

end

/-! ## The invariant -/

section

variable {H : Type} {net : Network H} {s t : H → Machine} {tr : List (NetworkRecord H)}
  {ev : H × MachineEvent}

theorem Network.Origin.mono {body : Bytes} (h : net.Origin tr body) (r : NetworkRecord H) :
    net.Origin (tr ++ [r]) body := by
  intro hudp g hg
  obtain ⟨q, hq, hsent⟩ := h hudp g hg
  exact ⟨q, List.mem_append_left _ hq, hsent⟩

theorem Network.Delivered.mono {g h : H} {i : ℕ} {d : UdpPcbPayload}
    (hd : net.Delivered tr g h i d) (r : NetworkRecord H) : net.Delivered (tr ++ [r]) g h i d := by
  obtain ⟨before, q, after, rfl, hq⟩ := hd
  exact ⟨before, q, after ++ [r], by rw [List.append_assoc, List.cons_append], hq⟩

/-- Every packet that waits has its call, and every datagram has its way. -/
structure NetworkInvariant (net : Network H) (tr : List (NetworkRecord H)) (s : H → Machine) :
    Prop where
  packets : ∀ h, ∀ body ∈ (s h).packets, net.Origin tr body
  datagrams : ∀ g h i, ∀ d ∈ que (s h).stack i, d.endpoint.addr = (net.host g).unicast →
    net.Delivered tr g h i d

variable [DecidableEq H]

/-- What one host sees of a run. -/
theorem Network.Run.machineRun (hrun : net.Run tr s) (h : H) :
    MachineRun (net.host h).config Machine.init (tr.filterMap (Runs.Record.part h)) (s h) :=
  Runs.Run.part (fun hstep => hstep.part) hrun h

/-- A packet that was carried here has its call. -/
theorem Network.Carried.origin {body : Bytes} (hrun : net.Run tr s) (h : net.Carried s body) :
    net.Origin tr body := by
  intro hudp g hg
  have hicmp : icmpType ≠ udpType := by decide
  obtain ⟨k, sent, hsent, hrelayed⟩ | hnobody := h
  swap
  · exact absurd hg (hnobody g)
  obtain ⟨protocol, data, dst, ⟨r, hr, hcause⟩, hprotocol, hsrc, hdst, hpayload⟩ :=
    (Network.Run.machineRun hrun k).sent_packet hsent hrelayed.etherType
  -- the host in whose name it comes is the one that sent it
  obtain rfl : k = g := net.unicast_inj k g (by rw [← hsrc, ← hrelayed.src, hg])
  have hproto : protocol = udpType := by rw [← hprotocol, ← hrelayed.protocol, hudp]
  obtain ⟨q, hq, hlabel, -, hpost⟩ := Runs.Record.mem_part hr
  obtain ⟨pre, label, post⟩ := r
  cases hcause with
  | echoReply => exact absurd hproto hicmp
  | @datagram sock payload ipv4str port src dest hsentTo =>
    refine ⟨q, hq, sock, payload, ipv4str, port, src, dest, hlabel, ?_, ?_, ?_⟩
    · rw [hpost]
      exact hsentTo
    · rw [hrelayed.dst, hdst]
    · rw [hrelayed.payload, hpayload]

/-- **One step**: what is read has its call, and what is handled had one. -/
theorem NetworkInvariant.step (hinv : NetworkInvariant net tr s) (hrun : net.Run tr s)
    (hstep : net.Step s ev t) : NetworkInvariant net (tr ++ [⟨s, ev, t⟩]) t := by
  obtain ⟨k, event⟩ := ev
  obtain ⟨⟨hpart, hothers⟩, hcarried, hproper⟩ := hstep
  dsimp only at hpart hothers hcarried hproper
  have hmachine := (Network.Run.machineRun hrun k).invariant
  refine ⟨fun h body hbody => ?_, fun g h i d hd hg => ?_⟩
  · by_cases hh : h = k
    · subst hh
      obtain hold | ⟨frame, hev, htype, rfl⟩ := hpart.packets_cases hmachine hbody
      · exact (hinv.packets h body hold).mono _
      · exact ((hcarried frame hev htype).origin hrun).mono _
    · rw [hothers h hh] at hbody
      exact (hinv.packets h body hbody).mono _
  · by_cases hh : h = k
    · subst hh
      obtain hold | ⟨rfl, body, hbody, hpassed, hdelivered⟩ := hpart.que_cases hproper hd
      · exact (hinv.datagrams g h i d hold hg).mono _
      -- the call that was behind the packet when it was read
      rw [deliveredTo] at hdelivered
      split at hdelivered
      swap
      · cases hdelivered
      rename_i hmatch
      obtain rfl := Option.some.inj hdelivered
      obtain ⟨q, hq, sock, payload, ipv4str, port, src, dest, hlabel, hsent, hdst, hsegment⟩ :=
        hinv.packets h body hbody hmatch.1 g hg
      have hfits := hsent.fits
      have hsrcPort : u16 (Ipv4Data.payloadBytes body) 0 = src.port := by
        rw [hsegment]
        exact join16_be16 _
      have hdstPort : u16 (Ipv4Data.payloadBytes body) 2 = dest.port := by
        rw [hsegment]
        exact join16_be16 _
      have hsrc : (⟨u32 body 12, u16 (Ipv4Data.payloadBytes body) 0⟩ : IpEndpoint) = src := by
        rw [hsrcPort]
        exact congrArg (IpEndpoint.mk · src.port) (hg.trans hsent.srcAddr.symm)
      have hdata : UdpData.payloadBytes (Ipv4Data.payloadBytes body) =
          payload ++ List.replicate 8 0 := by
        rw [hsegment]
        refine UdpData.payloadBytes_udpSegment _ _ _ ?_
        rw [UInt16.toNat_ofNat', Nat.mod_eq_of_lt (by omega)]
      refine ⟨tr, _, [], rfl, rfl, q, hq, sock, payload, ipv4str, port, dest, hlabel, ?_, ?_, ?_,
        hdata⟩
      · dsimp only
        rw [hsrc]
        exact hsent
      · rw [← hdst, hpassed.target]
      · rw [← hdst, ← hdstPort]
        exact hmatch.2
    · rw [hothers h hh] at hd
      exact (hinv.datagrams g h i d hd hg).mono _

theorem Network.Run.invariant (hrun : net.Run tr s) : NetworkInvariant net tr s := by
  induction hrun with
  | nil =>
    refine ⟨fun h body hbody => absurd hbody List.not_mem_nil, fun g h i d hd => ?_⟩
    have hnone : que Machine.init.stack i = [] := que_init rfl
    rw [hnone] at hd
    exact absurd hd List.not_mem_nil
  | snoc hrun hstep ih => exact ih.step hrun hstep

/-- **Datagrams are authentic.** Over every run of any number of hosts, however their packets are
delayed, lost, repeated and rewritten on the way: a datagram that waits at a socket, and has the
address of a host as its source, was sent before by an application of that host, from this port, to
the host it waits at and to the port the socket had when it came, with this payload. -/
theorem networkRun_authentic (hrun : net.Run tr s) :
    ∀ g h i, ∀ d ∈ que (s h).stack i, d.endpoint.addr = (net.host g).unicast →
      net.Delivered tr g h i d := (Network.Run.invariant hrun).datagrams

end

/-! ### Two hosts and a gateway -/

/-- 192.0.2.1 and 192.0.2.2 behind 192.0.2.254. -/
def exampleNetwork : Network Bool where
  host g := if g then ⟨peerAddress, 0xC0000201, 0xC00002FE⟩
    else ⟨exampleAddress, 0xC0000202, 0xC00002FE⟩
  unicast_inj := by decide

/-- The states of the two. -/
def hosts (x y : Machine) : Bool → Machine := fun g => if g then x else y

section

variable {x x' y y' : Machine} {ev : MachineEvent}

theorem exampleNetwork_step_first
    (h : MachineEvent.Step (exampleNetwork.host true).config x ev x')
    (hcarried : ∀ frame, ev = .signal (.irq frame) → frameType frame = ipType →
      exampleNetwork.Carried (hosts x y) (frameBody frame)) (hproper : ev.Proper) :
    exampleNetwork.Step (hosts x y) (true, ev) (hosts x' y) where
  part := ⟨h, fun g hg => by
    cases g
    · rfl
    · exact absurd rfl hg⟩
  carried := hcarried
  proper := hproper

theorem exampleNetwork_step_second
    (h : MachineEvent.Step (exampleNetwork.host false).config y ev y')
    (hcarried : ∀ frame, ev = .signal (.irq frame) → frameType frame = ipType →
      exampleNetwork.Carried (hosts x y) (frameBody frame)) (hproper : ev.Proper) :
    exampleNetwork.Step (hosts x y) (false, ev) (hosts x y') where
  part := ⟨h, fun g hg => by
    cases g
    · exact absurd rfl hg
    · rfl⟩
  carried := hcarried
  proper := hproper

end

/-- The gateway speaks to 192.0.2.1. -/
def gatewayRequest : ArpPacket :=
  ArpPacket.request ⟨[0x00, 0x00, 0x5e, 0x00, 0x53, 0xfe], rfl⟩ 0xC00002FE 0xC0000201

def socketOpen : Machine := ⟨protocolQueueInit, withTable (openTable .init 0)⟩

def gatewayHeard : Machine :=
  ⟨[(ipType, []), (arpType, [⟨arpType, frameBody (requestFrame gatewayRequest)⟩])],
    socketOpen.stack⟩

def gatewayKnown : Machine :=
  ⟨protocolQueueInit,
    ArpProtocolHandler.afterPacket peerAddress 0xC0000201 gatewayRequest socketOpen.stack⟩

/-- "hi" was sent to 192.0.2.2:5555, from the first port there is. -/
def datagramSent : Machine :=
  ⟨protocolQueueInit, (exampleNetwork.host true).write
    { gatewayKnown.stack with
      udpPcbMgr := UdpSocket.assignTable gatewayKnown.stack.udpPcbMgr (exampleSocket 0) 39584 }
    (.ipv4 udpType (udpOutput.segmentBytes ⟨0xC0000201, 39584⟩ ⟨0xC0000202, 5555⟩ [0x68, 0x69])
      0xC0000202)⟩

/-- The frame of this. -/
def datagramFrame : Bytes :=
  EtherDevice.frameBytes peerAddress
    (Ipv4Output.packetBytes udpType
      (udpOutput.segmentBytes ⟨0xC0000201, 39584⟩ ⟨0xC0000202, 5555⟩ [0x68, 0x69])
      0xC0000201 0xC0000202 128)
    [0x00, 0x00, 0x5e, 0x00, 0x53, 0xfe] ipType

def socketBound : Machine := ⟨protocolQueueInit, withTable exampleBound⟩

def datagramRead : Machine :=
  ⟨[(ipType, [⟨ipType, frameBody datagramFrame⟩]), (arpType, [])], withTable exampleBound⟩

def datagramQueued : Machine :=
  ⟨protocolQueueInit, withTable (exampleBound.modify 0 fun b => { b with
    que := [⟨[0x68, 0x69] ++ List.replicate 8 0, ⟨0xC0000201, 39584⟩⟩] })⟩

/-- What the application of 192.0.2.1 calls. -/
def sendHi : UdpOp := .sendTo (exampleSocket 0) [0x68, 0x69] "192.0.2.2".toList 5555

def networkTrace : List (NetworkRecord Bool) :=
  [⟨hosts Machine.init Machine.init, (true, .call .open), hosts socketOpen Machine.init⟩,
    ⟨hosts socketOpen Machine.init, (true, .signal (.irq (requestFrame gatewayRequest))),
      hosts gatewayHeard Machine.init⟩,
    ⟨hosts gatewayHeard Machine.init, (true, .signal .SIGUSR1), hosts gatewayKnown Machine.init⟩,
    ⟨hosts gatewayKnown Machine.init, (true, .call sendHi), hosts datagramSent Machine.init⟩,
    ⟨hosts datagramSent Machine.init, (false, .call .open), hosts datagramSent socketOpen⟩,
    ⟨hosts datagramSent socketOpen,
      (false, .call (.bind (exampleSocket 0) "192.0.2.2".toList 5555)),
      hosts datagramSent socketBound⟩,
    ⟨hosts datagramSent socketBound, (false, .signal (.irq datagramFrame)),
      hosts datagramSent datagramRead⟩,
    ⟨hosts datagramSent datagramRead, (false, .signal .SIGUSR1),
      hosts datagramSent datagramQueued⟩]

set_option maxRecDepth 20000 in
/-- The gateway hands the frame on as it is. -/
theorem carried_datagramFrame :
    exampleNetwork.Carried (hosts datagramSent socketBound) (frameBody datagramFrame) :=
  Or.inl ⟨true, datagramFrame, by decide +kernel, rfl, rfl, rfl, rfl, rfl⟩

theorem not_carried_call (op : UdpOp) (s : Bool → Machine) : ∀ frame,
    MachineEvent.call op = .signal (.irq frame) → frameType frame = ipType →
      exampleNetwork.Carried s (frameBody frame) := fun _ h => nomatch h

theorem proper_signal (sig : Signal) : MachineEvent.Proper (.signal sig) := fun _ h => nomatch h

theorem proper_call {op : UdpOp} (hop : op.FromApplication) : MachineEvent.Proper (.call op) := by
  intro op' h
  cases h
  exact hop

set_option maxRecDepth 20000 in
theorem networkTrace_run :
    exampleNetwork.Run networkTrace (hosts datagramSent datagramQueued) := by
  have hinit : hosts Machine.init Machine.init = fun _ => Machine.init :=
    funext fun g => by cases g <;> rfl
  have hnone : ∀ s : Bool → Machine, ∀ frame, MachineEvent.signal .SIGUSR1 = .signal (.irq frame) →
      frameType frame = ipType → exampleNetwork.Carried s (frameBody frame) :=
    fun _ _ h => nomatch h
  have harp : ∀ frame, MachineEvent.signal (.irq (requestFrame gatewayRequest)) =
      .signal (.irq frame) → frameType frame = ipType →
        exampleNetwork.Carried (hosts socketOpen Machine.init) (frameBody frame) := by
    intro frame h htype
    cases h
    exact absurd htype (by decide)
  have hip : ∀ frame, MachineEvent.signal (.irq datagramFrame) = .signal (.irq frame) →
      frameType frame = ipType →
        exampleNetwork.Carried (hosts datagramSent socketBound) (frameBody frame) := by
    intro frame h htype
    cases h
    exact carried_datagramFrame
  have hopened : exampleNetwork.Step (hosts Machine.init Machine.init) (true, .call .open)
      (hosts socketOpen Machine.init) :=
    exampleNetwork_step_first rfl (not_carried_call _ _) (proper_call trivial)
  have hheard : exampleNetwork.Step (hosts socketOpen Machine.init)
      (true, .signal (.irq (requestFrame gatewayRequest))) (hosts gatewayHeard Machine.init) :=
    exampleNetwork_step_first rfl harp (proper_signal _)
  have hknown : exampleNetwork.Step (hosts gatewayHeard Machine.init) (true, .signal .SIGUSR1)
      (hosts gatewayKnown Machine.init) :=
    exampleNetwork_step_first rfl (hnone _) (proper_signal _)
  have hsent : exampleNetwork.Step (hosts gatewayKnown Machine.init) (true, .call sendHi)
      (hosts datagramSent Machine.init) :=
    exampleNetwork_step_first rfl (not_carried_call _ _) (proper_call trivial)
  have hopened' : exampleNetwork.Step (hosts datagramSent Machine.init) (false, .call .open)
      (hosts datagramSent socketOpen) :=
    exampleNetwork_step_second rfl (not_carried_call _ _) (proper_call trivial)
  have hbound : exampleNetwork.Step (hosts datagramSent socketOpen)
      (false, .call (.bind (exampleSocket 0) "192.0.2.2".toList 5555))
      (hosts datagramSent socketBound) :=
    exampleNetwork_step_second rfl (not_carried_call _ _) (proper_call trivial)
  have hread : exampleNetwork.Step (hosts datagramSent socketBound)
      (false, .signal (.irq datagramFrame)) (hosts datagramSent datagramRead) :=
    exampleNetwork_step_second rfl hip (proper_signal _)
  have hqueued : exampleNetwork.Step (hosts datagramSent datagramRead) (false, .signal .SIGUSR1)
      (hosts datagramSent datagramQueued) :=
    exampleNetwork_step_second rfl (hnone _) (proper_signal _)
  rw [Network.Run, ← hinit]
  exact (((((((Runs.Run.nil.snoc hopened).snoc hheard).snoc hknown).snoc hsent).snoc hopened').snoc
    hbound).snoc hread).snoc hqueued

/-- What waits at 192.0.2.2 was sent by 192.0.2.1. -/
theorem networkRun_authentic_hi : (que datagramQueued.stack 0).length = 1 ∧
    ∀ g h i, ∀ d ∈ que (hosts datagramSent datagramQueued h).stack i,
      d.endpoint.addr = (exampleNetwork.host g).unicast →
        exampleNetwork.Delivered networkTrace g h i d :=
  ⟨rfl, networkRun_authentic networkTrace_run⟩

end Suika
