import Suika.Lib.WorkQueue
import Suika.UdpSocket

/-!
# The interrupt thread

`lib/Interrupt.h`, the queues of `lib/Protocol.h`, `EtherDevice::handler`, and the tables `main.cpp`
fills. The device handler queues the body of a frame under its ether type; `handleProtocolSignal`
takes the queues in the order of their keys, IPv4 before ARP, and calls the handler of the type for
every item. Nothing between the handlers and the thread function catches an exception.

`handleProtocolSignal_contained_iff` says when the thread gets past the signal: when every queued
item is one that its handler accepts.
-/

namespace Suika

open Cpp BinaryPayload OnesComplement

/-! ## The queues -/

/-- `protocol::protocolQueues`, in the order of its keys. -/
abbrev ProtocolQueues : Type := List (UInt16 × List ProtocolData)

namespace ProtocolQueues

/-- `insert` with an empty queue: a key that is there keeps its queue. -/
def insert : ProtocolQueues → UInt16 → ProtocolQueues
  | [], key => [(key, [])]
  | (k, q) :: rest, key =>
    if key < k then (key, []) :: (k, q) :: rest
    else if key = k then (k, q) :: rest
    else (k, q) :: insert rest key

/-- `protocolQueues[type].push`, for a type that is there. -/
def push (queues : ProtocolQueues) (d : ProtocolData) : ProtocolQueues :=
  queues.map fun p => (p.1, if p.1 = d.type then p.2 ++ [d] else p.2)

@[simp] theorem keys_push (queues : ProtocolQueues) (d : ProtocolData) :
    (queues.push d).map Prod.fst = queues.map Prod.fst := by
  rw [push, List.map_map]
  rfl

end ProtocolQueues

/-- `protocolQueueInit` -/
def protocolQueueInit : ProtocolQueues := (ProtocolQueues.insert [] arpType).insert ipType

/-- What the threads share: the queues and the stack. -/
structure Machine : Type where
  protocolQueues : ProtocolQueues
  stack : Stack

/-- The state the program starts in. -/
def Machine.init : Machine := ⟨protocolQueueInit, Stack.init⟩

/-- A call over this state. -/
abbrev Thread (α : Type) : Type := Comp Err Machine α

/-- A call over the stack, as one over the whole state. -/
def Thread.ofCall {α : Type} (m : Call α) : Thread α :=
  ⟨fun machine => (m.run machine.stack).mapState fun s => { machine with stack := s }⟩

/-! ## The thread -/

/-- `ipProtocolInit`: the handlers behind IPv4. -/
def ipProtocolInit (cfg : Config) : Ipv4ProtocolHandlers := fun protocol =>
  if protocol = icmpType then some (IcmpHandler.handle cfg)
  else if protocol = udpType then some UdpHandler.handle
  else none

/-- `protocolHandlers[type]->handle`, as `protocolQueueInit` fills the table. A type that is not
there has a null pointer. -/
def protocolHandlers (cfg : Config) (type : UInt16) (protocolData : ProtocolData) : Call ℤ :=
  if type = arpType then ArpProtocolHandler.handle cfg protocolData
  else if type = ipType then
    Ipv4ProtocolHandler.handle cfg (ipProtocolInit cfg) protocolData
  else Comp.undefined

/-- `EtherDevice::handler`. `read` takes one frame off the device, at most 1514 bytes of it. -/
def EtherDevice.handler (frame : Bytes) : Thread ℤ := do
  let frame := frame.take 1514
  let m ← Comp.get
  let type ← EtherFrame.etherType frame
  if type ∈ m.protocolQueues.map Prod.fst then
    let protocolData : ProtocolData := ⟨type, ← EtherFrame.body frame⟩
    Comp.set { m with protocolQueues := m.protocolQueues.push protocolData }
    EtherFrame.info frame
    return 0
  else return 0

/-- `Interrupt::handleProtocolSignal` -/
def handleProtocolSignal (cfg : Config) : Thread Unit :=
  ⟨fun m => (drainAll (protocolHandlers cfg) m.protocolQueues m.stack).mapState
    fun (queues, s) => ⟨queues, s⟩⟩

/-- `Interrupt::handleEventSignal`; `protocolQueueInit` registers one event handler. -/
def handleEventSignal : Thread ℤ := do
  let _ ← Thread.ofCall UdpEventHandler.handle
  return 0

/-- The signals the thread waits for. That of the device comes with the frame it can then read. -/
inductive Signal : Type where
  | SIGHUP | SIGUSR1 | SIGUSR2
  | irq (frame : Bytes)

/-- The `switch` of `interruptThread`. -/
def onSignal (cfg : Config) : Signal → Thread Unit
  | .SIGHUP => return ()
  | .SIGUSR1 => handleProtocolSignal cfg
  | .SIGUSR2 => do
    let _ ← handleEventSignal
    return ()
  | .irq frame => do
    let _ ← EtherDevice.handler frame
    return ()

/-- `Interrupt::interruptThread`, over the signals that arrive. It returns behind the first
`SIGHUP`; without one it waits. -/
def interruptThread (cfg : Config) : List Signal → Thread Unit
  | [] => Comp.hang
  | .SIGHUP :: _ => return ()
  | sig :: signals => do
    onSignal cfg sig
    interruptThread cfg signals

/-! ## Reachable states -/

/-- What happens to the state: the interrupt thread answers a signal, or another thread calls an
operation on sockets. -/
inductive MachineEvent : Type where
  | signal (sig : Signal)
  | call (op : UdpOp)

/-- One event. The application catches the exceptions of its own calls. A signal whose handler
throws has no step: the exception leaves the interrupt thread and ends the program (`Throws`). -/
def MachineEvent.Step (cfg : Config) (m : Machine) (ev : MachineEvent) (n : Machine) : Prop :=
  match ev with
  | .signal sig => (onSignal cfg sig).run m = .done n ()
  | .call op => ((Thread.ofCall (op.exec cfg)).run m).next? = some n

/-- Runs of the program, with their trace. -/
abbrev MachineRun (cfg : Config) := Runs.Run (MachineEvent.Step cfg)

/-- An event that ends the program with an exception. What the handlers did until then, `n`, is not
taken back: a frame that was written has left the host. -/
def MachineEvent.Throws (cfg : Config) (m : Machine) (ev : MachineEvent) (n : Machine) : Prop :=
  match ev with
  | .signal sig => ∃ e, (onSignal cfg sig).run m = .threw n e
  | .call _ => False

/-- What the program has come to: it is running, or its last event ended it with an exception. -/
inductive MachineReaches (cfg : Config) : List (Runs.Record Machine MachineEvent) → Machine → Prop
  | running {tr : List (Runs.Record Machine MachineEvent)} {m : Machine} :
      MachineRun cfg Machine.init tr m → MachineReaches cfg tr m
  | ended {tr : List (Runs.Record Machine MachineEvent)} {m n : Machine} {ev : MachineEvent} :
      MachineRun cfg Machine.init tr m → ev.Throws cfg m n →
      MachineReaches cfg (tr ++ [⟨m, ev, n⟩]) n

/-- There is a queue for IPv4 and one for ARP, and the cache holds Ethernet addresses. -/
structure MachineInvariant (m : Machine) : Prop where
  keys : m.protocolQueues.map Prod.fst = [ipType, arpType]
  cache : EtherCache m.stack

theorem ipProtocolInit_cases {cfg : Config} {protocol : UInt8}
    {handler : Ipv4ProtocolData → Call ℤ} (h : ipProtocolInit cfg protocol = some handler) :
    (protocol = icmpType ∧ handler = IcmpHandler.handle cfg) ∨
      (protocol = udpType ∧ handler = UdpHandler.handle) := by
  unfold ipProtocolInit at h
  split at h
  · rename_i hicmp
    exact Or.inl ⟨hicmp, (Option.some.inj h).symm⟩
  split at h
  · rename_i hudp
    exact Or.inr ⟨hudp, (Option.some.inj h).symm⟩
  · cases h

/-- IPv4 packets change nothing but the output and the queues of the control blocks. -/
theorem ipv4_keeps {Q : Stack → Prop} (hout : IgnoresOutput Q)
    (hQ : ∀ s i datagram, Q s → Q (UdpHandler.deliver s i datagram)) (cfg : Config)
    (pd : ProtocolData) : (Ipv4ProtocolHandler.handle cfg (ipProtocolInit cfg) pd).Keeps Q := by
  refine Ipv4ProtocolHandler.handle_keeps cfg (fun protocol handler h d => ?_) pd
  obtain ⟨-, rfl⟩ | ⟨-, rfl⟩ := ipProtocolInit_cases h
  · exact IcmpHandler.handle_keeps hout cfg d
  · exact UdpHandler.handle_keeps hQ d

theorem protocolHandlers_keeps (cfg : Config) (type : UInt16) (pd : ProtocolData) :
    (protocolHandlers cfg type pd).Keeps EtherCache := by
  unfold protocolHandlers
  split
  · exact ArpProtocolHandler.handle_keeps cfg pd
  split
  · exact ipv4_keeps (fun _ _ _ h => h) (fun _ _ _ h => h) cfg pd
  · exact Comp.Keeps.undefined

/-- What the handler of the device can do: queue a body, or nothing. -/
theorem EtherDevice.handler_next {frame : Bytes} {m n : Machine}
    (h : ((handler frame).run m).next? = some n) :
    n = m ∨ ∃ d, n = { m with protocolQueues := m.protocolQueues.push d } := by
  rw [handler, Comp.run_get_bind] at h
  obtain rfl | ⟨type, -, h⟩ := Comp.next?_lift_bind h
  · exact Or.inl rfl
  split at h
  · obtain rfl | ⟨body, -, h⟩ := Comp.next?_lift_bind h
    · exact Or.inl rfl
    rw [Comp.run_set_bind] at h
    obtain rfl | ⟨_, -, h⟩ := Comp.next?_lift_bind h
    · exact Or.inr ⟨_, rfl⟩
    · cases h
      exact Or.inr ⟨_, rfl⟩
  · cases h
    exact Or.inl rfl

theorem EtherDevice.handler_done {frame : Bytes} {m n : Machine} {v : ℤ}
    (h : (handler frame).run m = .done n v) :
    n = m ∨ ∃ d, n = { m with protocolQueues := m.protocolQueues.push d } :=
  handler_next (congrArg Outcome.next? h)

/-- What `transmit` sends, the handler of the other side queues, with the padding behind it. -/
theorem EtherDevice.handler_frameBytes (address : EtherAddr) {data dst : Bytes} {type : UInt16}
    {m : Machine} (hd : dst.length = 6) (hlen : data.length ≤ 1500)
    (htype : type ∈ m.protocolQueues.map Prod.fst) :
    (handler (frameBytes address data dst type)).run m =
      .done { m with
        protocolQueues :=
          m.protocolQueues.push ⟨type, data ++ List.replicate (46 - data.length) 0⟩ } 0 := by
  have ha := address.length_val
  have hframe :
      (frameBytes address data dst type).take 1514 = frameBytes address data dst type := by
    refine List.take_of_length_le ?_
    simp only [frameBytes, List.length_append, length_be16, List.length_replicate]
    omega
  have hinfo : EtherFrame.info (frameBytes address data dst type) = .ok () := by
    rw [frameBytes, EtherFrame.info, EtherFrame.srcAddr_frame _ _ _ _ hd,
      EtherFrame.dstAddr_frame _ _ _ _ hd, EtherFrame.etherType_frame _ _ _ _ hd]
    rfl
  rw [handler, hframe, Comp.run_get_bind, hinfo, frameBytes, EtherFrame.etherType_frame _ _ _ _ hd,
    Comp.lift_ok_bind, if_pos htype, EtherFrame.body_frame _ _ _ hd (by omega), Comp.lift_ok_bind,
    Comp.run_set_bind, Comp.lift_ok_bind]
  rfl

/-- **One event keeps the invariant.** -/
theorem MachineEvent.Step.invariant {cfg : Config} {m n : Machine} {ev : MachineEvent}
    (hinv : MachineInvariant m) (h : ev.Step cfg m n) : MachineInvariant n := by
  cases ev with
  | signal sig =>
    cases sig with
    | SIGHUP =>
      cases h
      exact hinv
    | SIGUSR1 =>
      -- draining keeps the keys, and every handler keeps the cache
      obtain ⟨⟨queues, s⟩, hdrain, rfl⟩ := Outcome.mapState_eq_done.mp h
      refine ⟨?_, ?_⟩
      · rw [drainAll_eq_done hdrain, List.map_map]
        exact hinv.keys
      · exact drainAll_keeps (protocolHandlers_keeps cfg) hinv.cache hdrain
    | SIGUSR2 =>
      cases h
      exact ⟨hinv.keys, hinv.cache⟩
    | irq frame =>
      obtain ⟨_, _, hhandler, hpure⟩ := Comp.bind_eq_done h
      cases hpure
      obtain rfl | ⟨d, rfl⟩ := EtherDevice.handler_done hhandler
      · exact hinv
      · exact ⟨(ProtocolQueues.keys_push _ d).trans hinv.keys, hinv.cache⟩
  | call op =>
    have hkeep : (op.exec cfg).Keeps EtherCache :=
      op.exec_keeps (fun _ _ _ h => h) (fun _ _ h => h) cfg
    dsimp only [Step, Thread.ofCall] at h
    rcases hr : (op.exec cfg).run m.stack with ⟨s, v⟩ | ⟨s, e⟩ | _ | _ <;> rw [hr] at h <;> cases h
    · exact ⟨hinv.keys, hkeep.of_done hinv.cache hr⟩
    · exact ⟨hinv.keys, hkeep.of_threw hinv.cache hr⟩

theorem MachineRun.invariant {cfg : Config} {tr : List (Runs.Record Machine MachineEvent)}
    {m : Machine} (hrun : MachineRun cfg Machine.init tr m) : MachineInvariant m :=
  Runs.Run.invariant (fun hinv h => MachineEvent.Step.invariant hinv h) hrun
    ⟨rfl, fun _ hc => absurd hc List.not_mem_nil⟩

/-! ## When the signal is survived -/

/-- A body that holds a whole packet of its type. -/
def CompleteBody (type : UInt16) (protocolData : ProtocolData) : Prop :=
  (type = arpType → 28 ≤ protocolData.data.length) ∧
    (type = ipType → Ipv4Data.Complete protocolData.data)

/-- An ARP packet the handler accepts: for 6-byte and 4-byte addresses, for IP, for this host. -/
structure ArpProtocolHandler.Accepts (unicast : UInt32) (data : Bytes) : Prop where
  hardwareLength : u8 data 4 = 6
  protocolLength : u8 data 5 = 4
  protocolType : u16 data 2 = etherTypeIp
  target : u32 data 24 = unicast

/-- An IPv4 packet the handler accepts: its header verifies, it is for this host, and the handler
behind it accepts its payload. -/
structure Ipv4ProtocolHandler.Accepts (unicast gateway : UInt32) (s : Stack) (data : Bytes) :
    Prop where
  header : Ipv4Data.HeaderVerifies data
  target : u32 data 16 = unicast
  icmp : u8 data 9 = icmpType →
    IcmpHandler.Accepts unicast gateway s (u32 data 12) (Ipv4Data.payloadBytes data)
  udp : u8 data 9 = udpType →
    UdpHandler.Accepts s (u32 data 12) (u32 data 16) (Ipv4Data.payloadBytes data)

/-- A queued item its handler accepts. -/
def Contained (unicast gateway : UInt32) (s : Stack) (type : UInt16)
    (protocolData : ProtocolData) : Prop :=
  (type = arpType → ArpProtocolHandler.Accepts unicast protocolData.data) ∧
    (type = ipType → Ipv4ProtocolHandler.Accepts unicast gateway s protocolData.data)

/-- What IPv4 packets are judged by is the same in both states: the ARP cache, and which blocks
`select` finds. -/
def Stack.SameView (s t : Stack) : Prop :=
  t.arpCache = s.arpCache ∧ ∀ a p, t.udpPcbMgr.select a p = s.udpPcbMgr.select a p

theorem Ipv4ProtocolHandler.Accepts.congr {unicast gateway : UInt32} {s t : Stack} {data : Bytes}
    (h : s.SameView t) : Accepts unicast gateway t data ↔ Accepts unicast gateway s data := by
  obtain ⟨hcache, hselect⟩ := h
  refine ⟨?_, ?_⟩
  · rintro ⟨hv, huni, hicmp, hudp⟩
    refine ⟨hv, huni, fun hp => ?_, fun hp => ?_⟩
    · obtain ⟨h8, hev, hc, hecho⟩ := hicmp hp
      exact ⟨h8, hev, hc, by rw [← hcache]; exact hecho⟩
    · obtain ⟨h8, hev, hc, hroom⟩ := hudp hp
      exact ⟨h8, hev, hc, by rw [← hselect]; exact hroom⟩
  · rintro ⟨hv, huni, hicmp, hudp⟩
    refine ⟨hv, huni, fun hp => ?_, fun hp => ?_⟩
    · obtain ⟨h8, hev, hc, hecho⟩ := hicmp hp
      exact ⟨h8, hev, hc, by rw [hcache]; exact hecho⟩
    · obtain ⟨h8, hev, hc, hroom⟩ := hudp hp
      exact ⟨h8, hev, hc, by rw [hselect]; exact hroom⟩

/-- A datagram on a queue changes nothing `select` looks at. -/
theorem UdpHandler.select_deliver (s : Stack) (i : ℕ) (datagram : UdpPcbPayload) (a : UInt32)
    (p : UInt16) : (deliver s i datagram).udpPcbMgr.select a p = s.udpPcbMgr.select a p := by
  refine UdpPcbManager.select_congr fun j => ?_
  by_cases hj : j = i
  · subst hj
    rw [deliver, UdpPcbManager.block?_modify_self, Option.map_map]
    rfl
  · rw [deliver, UdpPcbManager.block?_modify_ne _ (Ne.symm hj)]

theorem ipv4_sameView (s : Stack) (cfg : Config) (pd : ProtocolData) :
    (Ipv4ProtocolHandler.handle cfg (ipProtocolInit cfg) pd).Keeps s.SameView := by
  refine ipv4_keeps (fun _ _ _ h => h) (fun t i datagram h => ⟨h.1, fun a p => ?_⟩) cfg pd
  rw [UdpHandler.select_deliver]
  exact h.2 a p

section

variable {address : EtherAddr} {unicast gateway : UInt32} {s : Stack} {pd : ProtocolData}

/-- **When the IPv4 handler returns**: each of its two checks, and the check of the protocol. -/
theorem Ipv4ProtocolHandler.handle_done_iff (hcache : EtherCache s)
    (hc : Ipv4Data.Complete pd.data) :
    (∃ t v, (handle (Config.ofMain address unicast gateway)
      (ipProtocolInit (Config.ofMain address unicast gateway)) pd).run s = .done t v) ↔
        Accepts unicast gateway s pd.data := by
  have hlen := hc.length_payloadBytes
  rw [handle_packet hc]
  by_cases hv : Ipv4Data.HeaderVerifies pd.data
  swap
  · rw [if_pos hv]
    exact ⟨fun ⟨_, _, h⟩ => (nomatch h), fun h => absurd h.header hv⟩
  by_cases huni : unicast = u32 pd.data 16
  swap
  · rw [if_neg (not_not.mpr hv), if_pos huni]
    exact ⟨fun ⟨_, _, h⟩ => (nomatch h), fun h => absurd h.target.symm huni⟩
  rw [if_neg (not_not.mpr hv), if_neg (not_not.mpr huni)]
  -- three kinds of protocol: ICMP, UDP, and those without a handler
  by_cases hicmp : u8 pd.data 9 = icmpType
  · have hudp : u8 pd.data 9 ≠ udpType := by
      rw [hicmp]
      decide
    have hhandler : ipProtocolInit (Config.ofMain address unicast gateway) (u8 pd.data 9) =
        some (IcmpHandler.handle (Config.ofMain address unicast gateway)) := if_pos hicmp
    rw [hhandler]
    dsimp only
    rw [Comp.bind_pure_done_iff, hicmp, IcmpHandler.handle_done_iff hcache hlen]
    exact ⟨fun h => ⟨hv, huni.symm, fun _ => h, fun hp => absurd hp hudp⟩, fun h => h.icmp hicmp⟩
  by_cases hudp : u8 pd.data 9 = udpType
  · have hhandler : ipProtocolInit (Config.ofMain address unicast gateway) (u8 pd.data 9) =
        some UdpHandler.handle := (if_neg hicmp).trans (if_pos hudp)
    rw [hhandler]
    dsimp only
    rw [Comp.bind_pure_done_iff, UdpHandler.handle_done_iff (by dsimp only; omega)]
    exact ⟨fun h => ⟨hv, huni.symm, fun hp => absurd hp hicmp, fun _ => h⟩, fun h => h.udp hudp⟩
  · have hhandler : ipProtocolInit (Config.ofMain address unicast gateway) (u8 pd.data 9) = none :=
      (if_neg hicmp).trans (if_neg hudp)
    rw [hhandler]
    exact ⟨fun _ => ⟨hv, huni.symm, fun hp => absurd hp hicmp, fun hp => absurd hp hudp⟩,
      fun _ => ⟨_, _, rfl⟩⟩

theorem ArpProtocolHandler.accepts_iff (hlen : 28 ≤ pd.data.length) :
    (∃ t v, (handle (Config.ofMain address unicast gateway) pd).run s = .done t v) ↔
      Accepts unicast pd.data := by
  rw [handle_done_iff hlen]
  exact ⟨fun ⟨hhal, hpal, hpt, htp⟩ => ⟨hhal, hpal, hpt, htp⟩,
    fun ⟨hhal, hpal, hpt, htp⟩ => ⟨hhal, hpal, hpt, htp⟩⟩

/-- The IPv4 queue is judged by the state at the start: no packet changes what the next ones are
judged by. -/
theorem ipQueue_drained_iff {ip : List ProtocolData} (hcache : EtherCache s)
    (hbodies : ∀ d ∈ ip, Ipv4Data.Complete d.data) :
    (∃ u, drain (protocolHandlers (Config.ofMain address unicast gateway) ipType) ip s =
      .done ([], u) ()) ↔
        ∀ d ∈ ip, Ipv4ProtocolHandler.Accepts unicast gateway s d.data := by
  refine drain_done_iff (Q := s.SameView) (fun d _ => ipv4_sameView s _ d) (fun d hd u hu => ?_)
    ⟨rfl, fun _ _ => rfl⟩
  have hcacheu : EtherCache u := by
    rw [EtherCache, hu.1]
    exact hcache
  rw [← Ipv4ProtocolHandler.Accepts.congr hu]
  exact Ipv4ProtocolHandler.handle_done_iff hcacheu (hbodies d hd)

/-- The ARP queue is judged by no state. -/
theorem arpQueue_drained_iff {arp : List ProtocolData}
    (hbodies : ∀ d ∈ arp, 28 ≤ d.data.length) :
    (∃ t, drain (protocolHandlers (Config.ofMain address unicast gateway) arpType) arp s =
      .done ([], t) ()) ↔ ∀ d ∈ arp, ArpProtocolHandler.Accepts unicast d.data :=
  drain_done_iff (Q := fun _ => True) (fun _ _ _ _ _ _ => trivial)
    (fun d hd _ _ => ArpProtocolHandler.accepts_iff (hbodies d hd)) trivial

end

/-- The two queues of a machine. -/
theorem MachineInvariant.exists_queues {m : Machine} (hinv : MachineInvariant m) :
    ∃ ip arp, m.protocolQueues = [(ipType, ip), (arpType, arp)] := by
  obtain ⟨⟨_, ip⟩, rest, hqueues, rfl, hrest⟩ := List.map_eq_cons_iff.mp hinv.keys
  obtain ⟨⟨_, arp⟩, last, rfl, rfl, hlast⟩ := List.map_eq_cons_iff.mp hrest
  obtain rfl := List.map_eq_nil_iff.mp hlast
  exact ⟨ip, arp, hqueues⟩

/-- The condition on all items, queue by queue. -/
theorem forall_contained_iff {unicast gateway : UInt32} {s : Stack} {ip arp : List ProtocolData} :
    (∀ p ∈ [(ipType, ip), (arpType, arp)], ∀ d ∈ p.2, Contained unicast gateway s p.1 d) ↔
      (∀ d ∈ ip, Ipv4ProtocolHandler.Accepts unicast gateway s d.data) ∧
        ∀ d ∈ arp, ArpProtocolHandler.Accepts unicast d.data := by
  have hne : ipType ≠ arpType := by decide
  rw [List.forall_mem_cons, List.forall_mem_singleton]
  refine ⟨fun h => ⟨fun d hd => (h.1 d hd).2 rfl, fun d hd => (h.2 d hd).1 rfl⟩, fun h => ⟨?_, ?_⟩⟩
  · intro d hd
    exact ⟨fun harp => absurd harp hne, fun _ => h.1 d hd⟩
  · intro d hd
    exact ⟨fun _ => h.2 d hd, fun hip => absurd hip.symm hne⟩

/-- **When the interrupt thread survives.** In every state the program reaches, with whole packets
in the queues, `handleProtocolSignal` empties all queues, and the thread goes on with the next
signal, exactly when every queued item is one its handler accepts. -/
theorem handleProtocolSignal_contained_iff {address : EtherAddr} {unicast gateway : UInt32}
    {tr : List (Runs.Record Machine MachineEvent)} {m : Machine}
    (hrun : MachineRun (Config.ofMain address unicast gateway) Machine.init tr m)
    (hbodies : ∀ p ∈ m.protocolQueues, ∀ d ∈ p.2, CompleteBody p.1 d) :
    (∃ n, (handleProtocolSignal (Config.ofMain address unicast gateway)).run m = .done n () ∧
      (∀ p ∈ n.protocolQueues, p.2 = []) ∧
      ∀ signals,
        (interruptThread (Config.ofMain address unicast gateway) (.SIGUSR1 :: signals)).run m =
          (interruptThread (Config.ofMain address unicast gateway) signals).run n) ↔
    ∀ p ∈ m.protocolQueues, ∀ d ∈ p.2, Contained unicast gateway m.stack p.1 d := by
  have hinv := hrun.invariant
  obtain ⟨ip, arp, hqueues⟩ := hinv.exists_queues
  have hipBodies : ∀ d ∈ ip, Ipv4Data.Complete d.data := fun d hd =>
    (hbodies (ipType, ip) (by simp [hqueues]) d hd).2 rfl
  have harpBodies : ∀ d ∈ arp, 28 ≤ d.data.length := fun d hd =>
    (hbodies (arpType, arp) (by simp [hqueues]) d hd).1 rfl
  rw [hqueues, forall_contained_iff, ← ipQueue_drained_iff hinv.cache hipBodies]
  refine ⟨?_, ?_⟩
  · rintro ⟨n, hdone, -, -⟩
    obtain ⟨⟨queues, t⟩, hdrain, rfl⟩ := Outcome.mapState_eq_done.mp hdone
    rw [hqueues] at hdrain
    obtain ⟨u, rest, hfirst, hrest, -⟩ := drainAll_cons_eq_done.mp hdrain
    obtain ⟨v, -, hsecond, -⟩ := drainAll_cons_eq_done.mp hrest
    exact ⟨⟨u, hfirst⟩, (arpQueue_drained_iff harpBodies).mp ⟨v, hsecond⟩⟩
  · rintro ⟨⟨u, hfirst⟩, hrest⟩
    obtain ⟨t, hsecond⟩ := (arpQueue_drained_iff harpBodies).mpr hrest
    have hdrain : drainAll (protocolHandlers (Config.ofMain address unicast gateway))
        m.protocolQueues m.stack = .done ([(ipType, []), (arpType, [])], t) () := by
      rw [hqueues]
      exact drainAll_cons_eq_done.mpr ⟨u, _, hfirst, drainAll_cons_eq_done.mpr ⟨t, [], hsecond,
        rfl, rfl⟩, rfl⟩
    have hdone : (handleProtocolSignal (Config.ofMain address unicast gateway)).run m =
        .done ⟨[(ipType, []), (arpType, [])], t⟩ () :=
      Outcome.mapState_eq_done.mpr ⟨_, hdrain, rfl⟩
    exact ⟨_, hdone, by simp, fun signals => Comp.bind_done hdone⟩

/-! ### A request for another host -/

/-- 192.0.2.1 asks for 192.0.2.3, and 192.0.2.2 hears it. -/
def foreignRequest : ArpPacket :=
  ArpPacket.request peerAddress 0xC0000201 0xC0000203

/-- The same, for 192.0.2.2. -/
def ownRequest : ArpPacket :=
  ArpPacket.request peerAddress 0xC0000201 0xC0000202

/-- The frame of a request. -/
def requestFrame (p : ArpPacket) : Bytes :=
  EtherDevice.frameBytes p.senderHardware p.encode EtherDevice.broadcastAddress arpType

/-- The machine with the request queued. -/
def requestQueued (p : ArpPacket) : Machine :=
  ⟨[(ipType, []), (arpType, [⟨arpType, p.encode ++ List.replicate 18 0⟩])], Stack.init⟩

theorem request_run (p : ArpPacket) : MachineRun exampleConfig Machine.init
    [⟨Machine.init, .signal (.irq (requestFrame p)), requestQueued p⟩] (requestQueued p) := by
  have hdst : EtherDevice.broadcastAddress.length = 6 := rfl
  have hencode := p.length_encode
  have hhandler : (EtherDevice.handler (requestFrame p)).run Machine.init = .done _ 0 :=
    EtherDevice.handler_frameBytes p.senderHardware hdst (by omega) (by decide)
  rw [hencode] at hhandler
  exact Runs.Run.nil.snoc (Comp.bind_done hhandler)

theorem requestQueued_forall {P : UInt16 → ProtocolData → Prop} {p : ArpPacket}
    (h : P arpType ⟨arpType, p.encode ++ List.replicate 18 0⟩) :
    ∀ q ∈ (requestQueued p).protocolQueues, ∀ d ∈ q.2, P q.1 d := by
  rw [requestQueued, List.forall_mem_cons, List.forall_mem_singleton]
  refine ⟨fun d hd => absurd hd List.not_mem_nil, fun d hd => ?_⟩
  obtain rfl := List.mem_singleton.mp hd
  exact h

theorem completeBody_request (p : ArpPacket) :
    CompleteBody arpType ⟨arpType, p.encode ++ List.replicate 18 0⟩ := by
  have hencode := p.length_encode
  refine ⟨fun _ => ?_, fun h => absurd h (by decide)⟩
  rw [List.length_append]
  omega

/-- A request for this host is handled. -/
theorem ownRequest_contained :
    ∃ n, (handleProtocolSignal exampleConfig).run (requestQueued ownRequest) = .done n () ∧
      (∀ p ∈ n.protocolQueues, p.2 = []) ∧
      ∀ signals,
        (interruptThread exampleConfig (.SIGUSR1 :: signals)).run (requestQueued ownRequest) =
          (interruptThread exampleConfig signals).run n :=
  (handleProtocolSignal_contained_iff (request_run ownRequest)
    (requestQueued_forall (completeBody_request ownRequest))).mpr
    (requestQueued_forall (P := fun type d => Contained 0xC0000202 0xC0000201
      (requestQueued ownRequest).stack type d)
      ⟨fun _ => ⟨rfl, rfl, rfl, rfl⟩, fun h => absurd h (by decide)⟩)

/-- A request for another host ends the program. -/
theorem not_forall_contained :
    ¬ ∀ (address : EtherAddr) (unicast gateway : UInt32)
      (tr : List (Runs.Record Machine MachineEvent)) (m : Machine),
      MachineRun (Config.ofMain address unicast gateway) Machine.init tr m →
      (∀ p ∈ m.protocolQueues, ∀ d ∈ p.2, CompleteBody p.1 d) →
      ∃ n, (handleProtocolSignal (Config.ofMain address unicast gateway)).run m = .done n () ∧
        (∀ p ∈ n.protocolQueues, p.2 = []) ∧
        ∀ signals, (interruptThread (Config.ofMain address unicast gateway)
          (.SIGUSR1 :: signals)).run m =
            (interruptThread (Config.ofMain address unicast gateway) signals).run n := by
  intro h
  obtain ⟨n, hn, -⟩ := h _ _ _ _ _ (request_run foreignRequest)
    (requestQueued_forall (completeBody_request foreignRequest))
  have hthrew : (handleProtocolSignal exampleConfig).run (requestQueued foreignRequest) =
      .threw Machine.init _ := rfl
  cases hthrew.symm.trans hn

end Suika
