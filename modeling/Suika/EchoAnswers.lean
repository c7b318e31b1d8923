import Suika.EchoServer

/-!
# What the server answers

Between a packet and its answer a request waits in three places: as a body in the protocol queue, as
a datagram on the queue of the socket, and in the hand of `main`. The three together are a pipeline
that every event leaves in order. It ends at the `sendTo` of `main`: a request is served when this
call has ended, and also when it threw, since the loop catches that and goes on.

* `echoRun_exactlyOnce`: every request is served once, in the order in which the requests arrived.
* `echoRun_deaf`: after a `SIGUSR2` no more requests are received.
* `echoRun_answers`: what is sent for a served request is one frame, with the payload of the request
  once the gateway is known.
-/

namespace Suika

open Cpp BinaryPayload UdpPcbManager

/-! ## Requests -/

/-- The socket is bound. -/
def MainPoint.Serves : MainPoint → Prop
  | .open => False
  | .bind _ => False
  | _ => True

/-- The request in the body of a packet: the datagram of a UDP segment for the server. -/
def requestOf (body : Bytes) : Option UdpPcbPayload :=
  if u8 body 9 = udpType ∧ u32 body 16 = serverEndpoint.addr ∧
      u16 (Ipv4Data.payloadBytes body) 2 = serverEndpoint.port then
    some ⟨UdpData.payloadBytes (Ipv4Data.payloadBytes body),
      ⟨u32 body 12, u16 (Ipv4Data.payloadBytes body) 0⟩⟩
  else none

/-- The datagrams for block 0 are the requests. -/
theorem SoleOpen.deliveredTo {m : UdpPcbManager} (h : SoleOpen serverEndpoint m) :
    deliveredTo m 0 = requestOf := by
  have hany : serverEndpoint.addr ≠ ipAddrAny := by decide
  funext body
  rw [Suika.deliveredTo, requestOf, h.select]
  by_cases hmatch : u32 body 16 = serverEndpoint.addr ∧
      u16 (Ipv4Data.payloadBytes body) 2 = serverEndpoint.port
  · rw [if_pos (⟨Or.inr hmatch.1.symm, hmatch.2.symm⟩ : (_ ∨ _) ∧ _)]
    simp [hmatch]
  · have hno : ¬ ((serverEndpoint.addr = ipAddrAny ∨ serverEndpoint.addr = u32 body 16) ∧
        serverEndpoint.port = u16 (Ipv4Data.payloadBytes body) 2) := by
      rintro ⟨haddr | haddr, hport⟩
      · exact hany haddr
      · exact hmatch ⟨haddr.symm, hport.symm⟩
    have hnone : ¬ (u8 body 9 = udpType ∧ (none : Option ℕ) = some 0) := by simp
    rw [if_neg hno, if_neg hnone, if_neg fun hand => hmatch hand.2]

/-- The datagram `main` has received and not called `sendTo` for yet. -/
def MainPoint.inHand : MainPoint → List UdpPcbPayload
  | .sendTo _ buffer src => [⟨buffer, src⟩]
  | _ => []

namespace Process

/-- The requests that were read and not served: the one in hand, those on the queue of the socket,
those among the packets that wait for their handler. -/
def pipeline (p : Process) : List UdpPcbPayload :=
  p.point.inHand ++ que p.stack 0 ++ p.dispatcher.machine.packets.filterMap requestOf

/-- The reads of a receive that takes a datagram still yield that datagram. -/
def ReadsFaithfully (p : Process) : ProcessEvent → Prop
  | .main dead => ∀ s, p.point = .recvFrom s →
      UdpOp.ReadsFaithfully p.table (.recvFrom s (List.replicate 10000 0) ⟨0, 0⟩ dead)
  | _ => True

end Process

/-- The request a step serves: the one `main` makes its call of `sendTo` for, whether this sends the
packet, or throws because the gateway is not known, which the loop catches. -/
def servedBy (r : ProcessRecord) : List UdpPcbPayload :=
  match r.label with
  | .main _ => r.pre.point.inHand
  | _ => []

/-- The datagram that leaves the queue in a receive. -/
def MainPoint.taken : MainPoint → List UdpPcbPayload → List UdpPcbPayload → List UdpPcbPayload
  | .recvFrom _, before, after => before.take (before.length - after.length)
  | _, _, _ => []

/-- The datagram `main` takes off the queue of its socket in a step. -/
def takenBy (r : ProcessRecord) : List UdpPcbPayload :=
  match r.label with
  | .main _ => r.pre.point.taken (que r.pre.stack 0) (que r.post.stack 0)
  | _ => []

/-- The request in the frame a step reads. -/
def requestRead (r : ProcessRecord) : List UdpPcbPayload :=
  match r.label with
  | .signal sig => (Dispatcher.readBodies ipType (.signal sig)).filterMap requestOf
  | _ => []

section

variable {address : EtherAddr} {p q : Process} {ev : ProcessEvent}

/-- A bound socket stays bound. -/
theorem MainPoint.Ends.serves {host : Host} {terminate : Bool} {dead : DeadRead} {s t : Stack}
    {point next : MainPoint} (h : Ends host terminate dead point s (.done t next))
    (hserves : point.Serves) : next.Serves := by
  cases h with
  | opened => exact hserves.elim
  | bound => exact hserves.elim
  | tested => cases terminate <;> trivial
  | interrupted => trivial
  | received =>
    rw [takeOver]
    split <;> trivial
  | answered => trivial

/-- Where `main` serves, block 0 is the server. -/
theorem Process.Invariant.soleOpen (hp : p.Invariant) (hserves : p.point.Serves) :
    SoleOpen serverEndpoint p.table := by
  have htable := hp.table
  cases hpoint : p.point with
  | «open» =>
    rw [hpoint] at hserves
    exact hserves.elim
  | bind s =>
    rw [hpoint] at hserves
    exact hserves.elim
  | test s =>
    rw [hpoint] at htable
    exact htable.2
  | recvFrom s =>
    rw [hpoint] at htable
    exact htable.2
  | sendTo s buffer src =>
    rw [hpoint] at htable
    exact htable.2
  | shutdown =>
    rw [hpoint] at htable
    exact htable
  | join =>
    rw [hpoint] at htable
    exact htable
  | returned =>
    rw [hpoint] at htable
    exact htable

/-- It serves from then on. -/
theorem Process.Step.serves (hp : p.Invariant) (h : Process.Step (mainHost address) p ev q)
    (hserves : p.point.Serves) : q.point.Serves := by
  cases h with
  | kill sig => cases sig <;> exact hserves
  | @main dead s next hrun =>
    have hends := MainPoint.next_ends address p.terminate dead hp.machine.cache hp.table
    rw [hrun] at hends
    exact hends.serves hserves
  | shutdown => trivial
  | join => trivial
  | _ => exact hserves

/-- With faithful reads that is the datagram itself. -/
theorem takeOver_eq {front : UdpPcbPayload} (hfit : front.data.length ≤ 10000) :
    takeOver front ⟨front.data.length, front.endpoint⟩ =
      .sendTo serverSocket front.data front.endpoint := by
  have hlong : front.data.length ≤ (patch (List.replicate 10000 0) 0 front.data).length := by
    rw [length_patch (by rw [List.length_replicate]; omega), List.length_replicate]
    exact hfit
  have hbuffer : resize (patch (List.replicate 10000 0) 0 front.data) front.data.length =
      front.data := by
    rw [resize, take_patch_zero, Nat.sub_eq_zero_of_le hlong, List.replicate_zero, List.append_nil]
  rw [takeOver, if_neg (by dsimp only; omega), Int.toNat_natCast, hbuffer]

/-- A receive with faithful reads. -/
theorem Process.Step.received {host : Host} {p : Process} {b : UdpControlBlock}
    {front : UdpPcbPayload} {rest : List UdpPcbPayload} (hpoint : p.point = .recvFrom serverSocket)
    (hb : p.table.block? 0 = some b) (hint : b.interrupted ≠ 1) (hque : b.que = front :: rest)
    (hfit : front.data.length ≤ 10000) :
    Process.Step host p (.main ⟨front.data.length, front.endpoint⟩)
      { p.withStack { p.stack with
          udpPcbMgr := UdpSocket.takeTable p.table serverSocket rest } with
        point := .sendTo serverSocket front.data front.endpoint } := by
  have hread : -1 ≤ (⟨front.data.length, front.endpoint⟩ : DeadRead).size := by
    dsimp only
    omega
  have hrun := MainPoint.next_recvFrom host.config p.terminate hb hint hque hfit hread
  rw [takeOver_eq hfit, ← hpoint] at hrun
  exact .main hrun

/-- With faithful reads the server takes a datagram from the front of its queue into its hand, and
does nothing else to the queue. -/
theorem MainPoint.Ends.inHand {host : Host} {terminate : Bool} {dead : DeadRead} {s t : Stack}
    {point next : MainPoint} (h : Ends host terminate dead point s (.done t next))
    (hserves : point.Serves) (hread : ∀ sock, point = .recvFrom sock →
      UdpOp.ReadsFaithfully s.udpPcbMgr (.recvFrom sock (List.replicate 10000 0) ⟨0, 0⟩ dead)) :
    next.inHand ++ que t 0 = que s 0 := by
  cases h with
  | opened => exact hserves.elim
  | bound => exact hserves.elim
  | tested => cases terminate <;> rfl
  | interrupted => rfl
  | @received _ b front rest hb hint hque hfit =>
    obtain rfl := hread _ rfl b front rest hb hint hque
    have hrest : que { s with udpPcbMgr := UdpSocket.takeTable s.udpPcbMgr serverSocket rest } 0 =
        rest := que_modify_self (f := fun pcb => { pcb with que := rest }) rfl hb
    rw [takeOver_eq hfit, hrest, que_eq hb, hque]
    rfl
  | answered => rfl

/-- What one frame adds to the packets. -/
theorem Dispatcher.Step.packets {cfg : Config} {d e : Dispatcher} {frame : Bytes}
    (h : Dispatcher.Step cfg d (.signal (.irq frame)) e) (hinv : MachineInvariant d.machine) :
    e.machine.stack = d.machine.stack ∧ e.machine.packets =
      d.machine.packets ++ Dispatcher.readBodies ipType (.signal (.irq frame)) := by
  cases h.effect with
  | queued =>
    exact ⟨rfl, Dispatcher.queuedBodies_push hinv (Dispatcher.mem_registered.mpr (Or.inl rfl))
      ⟨frameType frame, frameBody frame⟩ true d.handled⟩
  | dropped hframe =>
    have hne : frameType frame ≠ ipType := by
      intro heq
      rw [hinv.keys, heq] at hframe
      exact hframe (Dispatcher.mem_registered.mpr (Or.inl rfl))
    refine ⟨rfl, ?_⟩
    rw [Dispatcher.readBodies, if_neg hne, List.append_nil]
  | other hirq => exact absurd rfl (hirq frame)

/-- **The balance of one event**: what it serves, and what is left to serve, is what was left and
what it reads. -/
theorem Process.Step.balance (hp : p.Invariant) (hserves : p.point.Serves)
    (hread : p.ReadsFaithfully ev) (h : Process.Step (mainHost address) p ev q) :
    servedBy ⟨p, ev, q⟩ ++ q.pipeline = p.pipeline ++ requestRead ⟨p, ev, q⟩ := by
  have hsole := hp.soleOpen hserves
  cases h with
  | kill sig =>
    have hsame : (p.kill sig).pipeline = p.pipeline := by cases sig <;> rfl
    rw [hsame]
    exact (List.append_nil _).symm
  | hup => exact (List.append_nil _).symm
  | @usr1 d hrunning hstep =>
    have hreceives := handleProtocolSignal_receives hstep.machine
    have hque : que d.machine.stack 0 =
        que p.stack 0 ++ p.dispatcher.machine.packets.filterMap requestOf := by
      rw [hreceives.que 0, hsole.deliveredTo]
    have hempty : d.machine.packets = [] := by
      obtain ⟨s, -, rfl⟩ := Dispatcher.handleProtocolSignal_eq_done.mp hstep.2
      rw [Machine.packets, List.filter_map, List.flatMap_map]
      exact List.flatMap_eq_nil_iff.mpr fun _ _ => rfl
    have hanswered : servedBy ⟨p, .signal .SIGUSR1, { p with dispatcher := d }⟩ = [] := rfl
    have hrequest : requestRead ⟨p, .signal .SIGUSR1, { p with dispatcher := d }⟩ = [] := rfl
    rw [hanswered, hrequest, List.nil_append, List.append_nil, Process.pipeline, Process.pipeline]
    dsimp only [Process.stack] at hque ⊢
    rw [hque, hempty, List.filterMap_nil, List.append_nil, ← List.append_assoc]
  | @usr2 d hrunning husr2 hstep =>
    have hdone : Outcome.done _ () = Outcome.done d.machine () := hstep.machine
    have hmachine := (Outcome.done.inj hdone).1
    have hpackets : d.machine.packets = p.dispatcher.machine.packets := by
      rw [← hmachine]
      rfl
    have hque : que d.machine.stack 0 = que p.stack 0 :=
      que_interruptAll (congrArg (fun m => m.stack.udpPcbMgr) hmachine.symm)
    have hsame : ({ p with dispatcher := d, usr2 := false } : Process).pipeline = p.pipeline := by
      dsimp only [Process.pipeline, Process.stack] at hque ⊢
      rw [hpackets, hque]
    rw [hsame]
    exact (List.append_nil _).symm
  | @irq d frame hrunning hstep =>
    obtain ⟨hstack, hpackets⟩ := hstep.packets hp.machine
    have hanswered : servedBy ⟨p, .signal (.irq frame), { p with dispatcher := d }⟩ = [] := rfl
    rw [hanswered, List.nil_append, Process.pipeline, Process.pipeline, requestRead]
    dsimp only [Process.stack]
    rw [hstack, hpackets, List.filterMap_append, List.append_assoc _ _ (List.filterMap _ _)]
  | @main dead s next hrun =>
    have hends := MainPoint.next_ends address p.terminate dead hp.machine.cache hp.table
    rw [hrun] at hends
    have hque : next.inHand ++ que s 0 = que p.stack 0 := hends.inHand hserves hread
    have hrequest : requestRead ⟨p, .main dead, { p.withStack s with point := next }⟩ = [] := rfl
    rw [hrequest, List.append_nil, servedBy, Process.pipeline, Process.pipeline, ← hque]
    simp only [List.append_assoc]
    rfl
  | shutdown hpoint =>
    rw [servedBy, Process.pipeline, Process.pipeline, hpoint]
    exact (List.append_nil _).symm
  | join hpoint hrunning =>
    rw [servedBy, Process.pipeline, Process.pipeline, hpoint]
    exact (List.append_nil _).symm

end

/-- **Every request is served once, and in order.** From any state of a run in which the socket is
bound, whatever comes in and goes on from there: the requests that were served, followed by those in
the pipeline, are those that were in the pipeline, followed by those that were read. On its way to
the `sendTo` of `main` nothing is lost, doubled, or overtaken; what that call sends is the subject
of `echoRun_answers`. -/
theorem echoRun_exactlyOnce (address : EtherAddr) {before tr : List ProcessRecord} {p q : Process}
    (hbefore : Process.Run (mainHost address) Process.start before p) (hserves : p.point.Serves)
    (hrun : Process.Run (mainHost address) p tr q)
    (hread : ∀ r ∈ tr, r.pre.ReadsFaithfully r.label) :
    tr.flatMap servedBy ++ q.pipeline = p.pipeline ++ tr.flatMap requestRead :=
  Runs.Run.conserve_of (I := fun p => p.Invariant ∧ p.point.Serves) (C := Process.ReadsFaithfully)
    (fun hp _ h => ⟨h.invariant hp.1, h.serves hp.1 hp.2⟩)
    (fun _ hp hr h => h.balance hp.1 hp.2 hr) hrun
    ⟨Process.Run.invariant hbefore, hserves⟩ hread

/-! ### One request -/

/-- The program `p` while the request is on its way. -/
def echoAt (p : Process) (packets : List Bytes) (pending : Bool) (handled : List Bytes)
    (que : List UdpPcbPayload) (point : MainPoint) : Process :=
  { p with
    dispatcher := ⟨⟨[(ipType, packets.map (⟨ipType, ·⟩)), (arpType, [])],
      { p.stack with udpPcbMgr := p.table.modify 0 fun b => { b with que } }⟩, pending,
      p.dispatcher.handled ++ handled.map (ipType, ⟨ipType, ·⟩)⟩
    point }

/-- It waits for its handler. -/
def requestWaits (p : Process) : Process :=
  echoAt p [frameBody exampleRequestFrame] true [] [] (.test serverSocket)

/-- It is on the queue of the socket. -/
def requestDelivered (p : Process) : Process :=
  echoAt p [] false [frameBody exampleRequestFrame] [exampleUdpRequest] (.test serverSocket)

/-- The gateway asks for the server, and so makes itself known. -/
def serverAsked : Process :=
  { serverBound with
    dispatcher := ⟨⟨(requestQueued ownRequest).protocolQueues, withTable exampleBound⟩, true, []⟩ }

def serverResolved : Process :=
  { serverBound with
    dispatcher := ⟨⟨protocolQueueInit, ArpProtocolHandler.afterPacket exampleAddress 0xC0000202
      ownRequest (withTable exampleBound)⟩, false,
      [(arpType, ⟨arpType, ownRequest.encode ++ List.replicate 18 0⟩)]⟩ }

def resolvedTrace : List ProcessRecord :=
  serverTrace ++ [⟨serverBound, .signal (.irq (requestFrame ownRequest)), serverAsked⟩] ++
    [⟨serverAsked, .signal .SIGUSR1, serverResolved⟩]

set_option maxRecDepth 20000 in
theorem resolvedTrace_run :
    Process.Run (mainHost exampleAddress) Process.start resolvedTrace serverResolved := by
  have hheard : Process.Step (mainHost exampleAddress) serverBound
      (.signal (.irq (requestFrame ownRequest))) serverAsked := .irq rfl ⟨0, rfl⟩
  have hknown : Process.Step (mainHost exampleAddress) serverAsked (.signal .SIGUSR1)
      serverResolved := .usr1 rfl ⟨rfl, rfl⟩
  exact (serverTrace_run.snoc hheard).snoc hknown

def requestAwaited : Process :=
  echoAt serverResolved [] false [frameBody exampleRequestFrame] [exampleUdpRequest]
    (.recvFrom serverSocket)

/-- `main` has it. -/
def requestReceived : Process :=
  echoAt serverResolved [] false [frameBody exampleRequestFrame] []
    (.sendTo serverSocket exampleUdpRequest.data exampleUdpRequest.endpoint)

/-- The packet that answers a request: its own datagram, from the endpoint of the server to its
source. -/
def answerPacket (request : UdpPcbPayload) : Output :=
  .ipv4 udpType (udpOutput.segmentBytes serverEndpoint request.endpoint request.data)
    request.endpoint.addr

/-- The answer is on the wire. -/
def requestServed : Process :=
  { requestReceived.withStack ((mainHost exampleAddress).write requestReceived.stack
      (answerPacket exampleUdpRequest)) with
    point := .test serverSocket }

/-- The way of the request. -/
def echoTrace : List ProcessRecord :=
  [⟨serverResolved, .signal (.irq exampleRequestFrame), requestWaits serverResolved⟩,
    ⟨requestWaits serverResolved, .signal .SIGUSR1, requestDelivered serverResolved⟩,
    ⟨requestDelivered serverResolved, .main ⟨0, ⟨0, 0⟩⟩, requestAwaited⟩,
    ⟨requestAwaited, .main ⟨10, exampleUdpRequest.endpoint⟩, requestReceived⟩,
    ⟨requestReceived, .main ⟨0, ⟨0, 0⟩⟩, requestServed⟩]

theorem requestAwaited_block : requestAwaited.table.block? 0 =
    some ⟨0, .OPEN, [exampleUdpRequest], serverEndpoint, 0⟩ := rfl

set_option maxRecDepth 20000 in
theorem echoTrace_run :
    Process.Run (mainHost exampleAddress) serverResolved echoTrace requestServed := by
  have hread : Process.Step (mainHost exampleAddress) serverResolved
      (.signal (.irq exampleRequestFrame)) (requestWaits serverResolved) := .irq rfl ⟨0, rfl⟩
  have hhandled : Process.Step (mainHost exampleAddress) (requestWaits serverResolved)
      (.signal .SIGUSR1) (requestDelivered serverResolved) := .usr1 rfl ⟨rfl, rfl⟩
  have htested : Process.Step (mainHost exampleAddress) (requestDelivered serverResolved)
      (.main ⟨0, ⟨0, 0⟩⟩) requestAwaited := .main rfl
  have hreceived : Process.Step (mainHost exampleAddress) requestAwaited
      (.main ⟨10, exampleUdpRequest.endpoint⟩) requestReceived :=
    Process.Step.received rfl requestAwaited_block (by decide) rfl (by decide)
  have hserved : Process.Step (mainHost exampleAddress) requestReceived (.main ⟨0, ⟨0, 0⟩⟩)
      requestServed := .main rfl
  exact ((((Runs.Run.nil.snoc hread).snoc hhandled).snoc htested).snoc hreceived).snoc hserved

theorem echoTrace_faithful : ∀ r ∈ echoTrace, r.pre.ReadsFaithfully r.label := by
  simp only [echoTrace, List.forall_mem_cons]
  refine ⟨trivial, trivial, fun s h => (nomatch h), fun s h => ?_, fun s h => (nomatch h),
    fun r hr => absurd hr List.not_mem_nil⟩
  intro b front rest hb hint hque
  obtain rfl : serverSocket = s := MainPoint.recvFrom.inj h
  obtain rfl := Option.some.inj (requestAwaited_block.symm.trans hb)
  obtain ⟨rfl, -⟩ := List.cons.inj hque
  rfl

/-- It was served, and nothing else is due. -/
theorem echoRun_exactlyOnce_example : echoTrace.flatMap servedBy = [exampleUdpRequest] ∧
    echoTrace.flatMap servedBy ++ requestServed.pipeline =
      serverResolved.pipeline ++ echoTrace.flatMap requestRead :=
  ⟨rfl, echoRun_exactlyOnce exampleAddress resolvedTrace_run trivial echoTrace_run
    echoTrace_faithful⟩

/-! ## A server that was interrupted -/

section

variable {address : EtherAddr} {p q : Process} {ev : ProcessEvent}

/-- A call of `main` takes nothing from a block that was interrupted. -/
theorem MainPoint.Ends.deaf {host : Host} {terminate : Bool} {dead : DeadRead}
    {s t : Stack} {point next : MainPoint} (h : Ends host terminate dead point s (.done t next))
    (hserves : point.Serves) (hint : s.udpPcbMgr.Interrupted) :
    t.udpPcbMgr = s.udpPcbMgr ∧ next.inHand = [] := by
  cases h with
  | opened => exact hserves.elim
  | bound => exact hserves.elim
  | tested => cases terminate <;> exact ⟨rfl, rfl⟩
  | interrupted => exact ⟨rfl, rfl⟩
  | received hb hno =>
    obtain ⟨b, hb', hset⟩ := hint
    obtain rfl := Option.some.inj (hb.symm.trans hb')
    exact absurd hset hno
  | answered => exact ⟨rfl, rfl⟩

/-- A receive that finds the interruption reads nothing behind a `pop`. -/
theorem Process.Invariant.readsFaithfully (hp : p.Invariant) (hint : p.table.Interrupted)
    (ev : ProcessEvent) : p.ReadsFaithfully ev := by
  cases ev with
  | main dead =>
    intro sock hpoint b front rest hb hno
    have htable := hp.table
    rw [hpoint] at htable
    obtain ⟨rfl, -⟩ := htable
    obtain ⟨c, hc, hset⟩ := hint
    obtain rfl : b = c := Option.some.inj (hb.symm.trans hc)
    exact absurd hset hno
  | kill sig => trivial
  | signal sig => trivial

/-- **One event behind an interruption**: block 0 stays interrupted, its queue only grows, and
`main` serves what it has in its hand. -/
theorem Process.Step.interrupted (hp : p.Invariant) (hserves : p.point.Serves)
    (hint : p.table.Interrupted) (h : Process.Step (mainHost address) p ev q) :
    q.table.Interrupted ∧ que p.stack 0 <+: que q.stack 0 ∧
      servedBy ⟨p, ev, q⟩ ++ q.point.inHand = p.point.inHand ++ [] := by
  rw [List.append_nil]
  cases h with
  | kill sig =>
    have hstack : (p.kill sig).stack = p.stack := by cases sig <;> rfl
    have hpoint : (p.kill sig).point = p.point := by cases sig <;> rfl
    rw [Process.table, hstack, hpoint]
    exact ⟨hint, List.prefix_refl _, rfl⟩
  | hup => exact ⟨hint, List.prefix_refl _, rfl⟩
  | @usr1 d hrunning hstep =>
    have hreceives := handleProtocolSignal_receives hstep.machine
    obtain ⟨b, hb, hset⟩ := hint
    obtain ⟨que, hc⟩ := hreceives.blocks.block? hb
    refine ⟨⟨_, hc, hset⟩, ?_, rfl⟩
    dsimp only [Process.stack]
    rw [hreceives.que 0]
    exact List.prefix_append _ _
  | @usr2 d hrunning husr2 hstep =>
    have hdone : Outcome.done _ () = Outcome.done d.machine () := hstep.machine
    have htable : d.machine.stack.udpPcbMgr = p.table.interruptAll :=
      congrArg (fun m => m.stack.udpPcbMgr) (Outcome.done.inj hdone).1.symm
    obtain ⟨b, hb, hset⟩ := hint
    refine ⟨?_, ?_, rfl⟩
    · refine ⟨if b.state = .OPEN then { b with interrupted := 1 } else b, ?_, ?_⟩
      · dsimp only [Process.table, Process.stack]
        rw [htable, block?_interruptAll, hb, Option.map_some]
      · split
        · rfl
        · exact hset
    · dsimp only [Process.stack]
      rw [que_interruptAll htable]
  | irq hrunning hstep =>
    obtain ⟨hstack, -⟩ := hstep.packets hp.machine
    dsimp only [Process.table, Process.stack]
    rw [hstack]
    exact ⟨hint, List.prefix_refl _, rfl⟩
  | @main dead s next hrun =>
    have hends := MainPoint.next_ends address p.terminate dead hp.machine.cache hp.table
    rw [hrun] at hends
    obtain ⟨htable, hhand⟩ := hends.deaf hserves hint
    have hque : que s 0 = que p.stack 0 := by
      rw [que, htable, que]
    refine ⟨?_, ?_, ?_⟩
    · dsimp only [Process.table, Process.stack, Process.withStack]
      rw [htable]
      exact hint
    · dsimp only [Process.stack, Process.withStack]
      rw [hque]
    · dsimp only
      rw [hhand, List.append_nil]
      rfl
  | shutdown hpoint =>
    rw [servedBy, hpoint]
    exact ⟨hint, List.prefix_refl _, rfl⟩
  | join hpoint =>
    rw [servedBy, hpoint]
    exact ⟨hint, List.prefix_refl _, rfl⟩

end

/-- A receive with faithful reads takes what is then in the hand of `main`. -/
theorem MainPoint.Ends.taken {host : Host} {terminate : Bool} {dead : DeadRead} {s t : Stack}
    {point next : MainPoint} (h : Ends host terminate dead point s (.done t next))
    (hread : ∀ sock, point = .recvFrom sock →
      UdpOp.ReadsFaithfully s.udpPcbMgr (.recvFrom sock (List.replicate 10000 0) ⟨0, 0⟩ dead)) :
    next.inHand = point.taken (que s 0) (que t 0) := by
  cases h with
  | opened => rfl
  | bound => rfl
  | tested => cases terminate <;> rfl
  | interrupted =>
    rw [MainPoint.taken, Nat.sub_self]
    rfl
  | @received _ b front rest hb hint hque hfit =>
    obtain rfl := hread _ rfl b front rest hb hint hque
    have hrest : que { s with udpPcbMgr := UdpSocket.takeTable s.udpPcbMgr serverSocket rest } 0 =
        rest := que_modify_self (f := fun pcb => { pcb with que := rest }) rfl hb
    have hone : (front :: rest).length - rest.length = 1 := by
      rw [List.length_cons, Nat.add_sub_cancel_left]
    rw [takeOver_eq hfit, MainPoint.taken, hrest, que_eq hb, hque, hone]
    rfl
  | answered => rfl

/-- What `main` serves it has taken off the queue. -/
theorem Process.Step.taken {address : EtherAddr} {p q : Process} {ev : ProcessEvent}
    (hp : p.Invariant) (hread : p.ReadsFaithfully ev)
    (h : Process.Step (mainHost address) p ev q) :
    servedBy ⟨p, ev, q⟩ ++ q.point.inHand = p.point.inHand ++ takenBy ⟨p, ev, q⟩ := by
  cases h with
  | kill sig =>
    have hpoint : (p.kill sig).point = p.point := by cases sig <;> rfl
    rw [hpoint]
    exact (List.append_nil _).symm
  | @main dead s next hrun =>
    have hends := MainPoint.next_ends address p.terminate dead hp.machine.cache hp.table
    rw [hrun] at hends
    exact congrArg (p.point.inHand ++ ·) (hends.taken hread)
  | shutdown hpoint =>
    rw [servedBy, takenBy, hpoint]
    rfl
  | join hpoint =>
    rw [servedBy, takenBy, hpoint]
    rfl
  | _ => exact (List.append_nil _).symm

/-- What `main` sends: datagrams, and requests for the gateway in their place. -/
def Output.isAnswer : Output → Bool
  | .arpRequest => true
  | .arpReply _ => false
  | .ipv4 protocol _ _ => protocol = udpType

/-- A stack that has sent this log, and served these requests: in place of the first `k` packets
it asked for the gateway. -/
structure Answers (host : Host) (s : Stack) (log : List Output) (requests : List UdpPcbPayload)
    (k : ℕ) : Prop where
  realizes : Realizes host s log
  answers : log.filter Output.isAnswer =
    List.replicate k .arpRequest ++ (requests.drop k).map answerPacket
  le : k ≤ requests.length
  /-- only as long as nobody has spoken for the gateway -/
  unresolved : ArpCache.select s.arpCache host.gateway = none → k = requests.length

namespace Answers

variable {host : Host} {s t : Stack} {log out : List Output} {requests : List UdpPcbPayload} {k : ℕ}

theorem init (host : Host) : Answers host Stack.init [] [] 0 where
  realizes := Realizes.init host
  answers := rfl
  le := Nat.le_refl 0
  unresolved _ := rfl

/-- Something else was sent, and perhaps the gateway was learned. -/
theorem other (h : Answers host s log requests k) (ht : Realizes host t (log ++ out))
    (hout : ∀ o ∈ out, o.isAnswer = false)
    (hsel : ∀ c, ArpCache.select s.arpCache host.gateway = some c →
      ArpCache.select t.arpCache host.gateway = some c) :
    Answers host t (log ++ out) requests k where
  realizes := ht
  answers := by
    have hnone : out.filter Output.isAnswer = [] :=
      List.filter_eq_nil_iff.mpr fun o ho => Bool.not_eq_true _ ▸ hout o ho
    rw [List.filter_append, hnone, List.append_nil, h.answers]
  le := h.le
  unresolved hnone := by
    refine h.unresolved ?_
    by_contra hsome
    obtain ⟨c, hc⟩ := Option.ne_none_iff_exists'.mp hsome
    rw [hsel c hc] at hnone
    cases hnone

/-- Nothing was sent. -/
theorem of_table (h : Answers host s log requests k) (hcache : t.arpCache = s.arpCache)
    (hid : t.ipId = s.ipId) (hsent : t.sent = s.sent) : Answers host t log requests k where
  realizes := h.realizes.of_table hcache hid hsent
  answers := h.answers
  le := h.le
  unresolved := by
    rw [hcache]
    exact h.unresolved

/-- One more request. -/
theorem write (h : Answers host s log requests k) (buffer : Bytes) (src : IpEndpoint) :
    ∃ k', Answers host (host.write s (answer host s buffer src)) (log ++ [answer host s buffer src])
      (requests ++ [⟨buffer, src⟩]) k' := by
  cases hsel : ArpCache.select s.arpCache host.gateway with
  | none =>
    have hanswer : answer host s buffer src = .arpRequest := by
      rw [answer, hsel]
      rfl
    have hk := h.unresolved hsel
    rw [hanswer]
    refine ⟨k + 1, h.realizes.write fun _ _ _ heq => (by cases heq), ?_, ?_, fun _ => ?_⟩
    · have hbefore : requests.drop k = [] := List.drop_eq_nil_of_le hk.ge
      have hafter : (requests ++ [(⟨buffer, src⟩ : UdpPcbPayload)]).drop (k + 1) = [] :=
        List.drop_eq_nil_of_le (by simp [hk])
      rw [List.filter_append, h.answers, hbefore, hafter, List.replicate_succ']
      simp [Output.isAnswer]
    · simp [hk]
    · simp [hk]
  | some c =>
    have hanswer : answer host s buffer src = answerPacket ⟨buffer, src⟩ := by
      rw [answer, hsel]
      rfl
    rw [hanswer]
    refine ⟨k, h.realizes.write fun _ _ _ _ => ⟨c, hsel⟩, ?_, ?_, fun hnone => ?_⟩
    · have hudp : (answerPacket ⟨buffer, src⟩).isAnswer = true := by
        simp [answerPacket, Output.isAnswer]
      rw [List.filter_append, h.answers, List.drop_append_of_le_length h.le, List.map_append,
        List.append_assoc, List.filter_singleton, hudp]
      rfl
    · rw [List.length_append]
      exact Nat.le_add_right_of_le h.le
    · have hcache : ArpCache.select s.arpCache host.gateway = none := hnone
      rw [hsel] at hcache
      cases hcache

end Answers

/-- A call of `main` serves the request in its hand, if it has one. -/
theorem MainPoint.Ends.answers {host : Host} {terminate : Bool} {dead : DeadRead} {s t : Stack}
    {point next : MainPoint} {log : List Output} {requests : List UdpPcbPayload} {k : ℕ}
    (h : Ends host terminate dead point s (.done t next)) (hs : Answers host s log requests k) :
    ∃ log' k', Answers host t log' (requests ++ point.inHand) k' := by
  have hnothing : requests ++ [] = requests := List.append_nil _
  cases h with
  | answered =>
    obtain ⟨k', hk'⟩ := hs.write _ _
    exact ⟨_, k', hk'⟩
  | tested => exact ⟨log, k, hnothing.symm ▸ hs⟩
  | interrupted => exact ⟨log, k, hnothing.symm ▸ hs⟩
  | opened => exact ⟨log, k, hnothing.symm ▸ hs.of_table rfl rfl rfl⟩
  | bound => exact ⟨log, k, hnothing.symm ▸ hs.of_table rfl rfl rfl⟩
  | received => exact ⟨log, k, hnothing.symm ▸ hs.of_table rfl rfl rfl⟩

/-- What is found in the cache stays there. -/
theorem MachineEvent.Step.select_of_some {host : Host} {m n : Machine} {sig : Signal} {a : UInt32}
    {c : CacheData} (h : MachineEvent.Step host.config m (.signal sig) n)
    (hc : ArpCache.select m.stack.arpCache a = some c) :
    ArpCache.select n.stack.arpCache a = some c := by
  cases sig with
  | SIGHUP =>
    cases h
    exact hc
  | SIGUSR1 =>
    obtain ⟨⟨queues, s⟩, hdrain, rfl⟩ := Outcome.mapState_eq_done.mp h
    refine drainAll_keeps_done (Q := fun s => ArpCache.select s.arpCache a = some c)
      (fun type pd s t v hs hdone => ?_) hc hdrain
    rw [protocolHandlers] at hdone
    split at hdone
    · obtain ⟨p, pad, -, rfl⟩ := ArpProtocolHandler.done_packet hdone
      exact ArpCache.select_create_of_some hs
    split at hdone
    · exact (ipv4_keeps (Q := fun s => ArpCache.select s.arpCache a = some c)
        (fun _ _ _ hs => hs) (fun _ _ _ hs => hs) host.config pd).of_done hs hdone
    · cases hdone
  | SIGUSR2 =>
    cases h
    exact hc
  | irq frame =>
    obtain ⟨_, _, hhandler, hpure⟩ := Comp.bind_eq_done h
    cases hpure
    obtain rfl | ⟨d, rfl⟩ := EtherDevice.handler_done hhandler <;> exact hc

/-- What a signal sends answers no request, if its handler returns. -/
theorem Causes.isAnswer_eq_false {host : Host} {m n : Machine} {sig : Signal} {o : Output}
    (h : Causes host m n (.signal sig) o)
    (hstep : MachineEvent.Step host.config m (.signal sig) n) : o.isAnswer = false := by
  have hne : icmpType ≠ udpType := by decide
  cases h with
  | arpReply => rfl
  | echoReply => exact decide_eq_false hne
  | echoRequest _ _ _ _ _ hthrows =>
    obtain ⟨e, he⟩ := hthrows
    cases hstep.symm.trans he

section

variable {address : EtherAddr} {p q : Process} {ev : ProcessEvent} {log : List Output}
  {requests : List UdpPcbPayload} {k : ℕ}

/-- A signal answers nothing. -/
theorem Answers.signal {m n : Machine} {sig : Signal}
    (hs : Answers (mainHost address) m.stack log requests k) (hbounded : m.Bounded)
    (h : MachineEvent.Step (mainHost address).config m (.signal sig) n) :
    ∃ log' k', Answers (mainHost address) n.stack log' (requests ++ []) k' := by
  obtain ⟨out, hn, hout⟩ := h.emits hbounded hs.realizes
  rw [List.append_nil]
  exact ⟨log ++ out, k, hs.other hn (fun o ho => (hout o ho).isAnswer_eq_false h)
    fun c hc => h.select_of_some hc⟩

/-- **One event**: it serves what it is said to. -/
theorem Process.Step.answers (hp : p.Invariant) (hbounded : p.dispatcher.machine.Bounded)
    (hs : Answers (mainHost address) p.stack log requests k)
    (h : Process.Step (mainHost address) p ev q) :
    ∃ log' k', Answers (mainHost address) q.stack log' (requests ++ servedBy ⟨p, ev, q⟩) k' := by
  have hnothing : requests ++ [] = requests := List.append_nil _
  cases h with
  | kill sig =>
    have hstack : (p.kill sig).stack = p.stack := by cases sig <;> rfl
    rw [hstack]
    exact ⟨log, k, hnothing.symm ▸ hs⟩
  | hup => exact ⟨log, k, hnothing.symm ▸ hs⟩
  | usr1 hrunning hstep => exact hs.signal hbounded hstep.machine
  | usr2 hrunning husr2 hstep => exact hs.signal hbounded hstep.machine
  | irq hrunning hstep => exact hs.signal hbounded hstep.machine
  | @main dead s next hrun =>
    have hends := MainPoint.next_ends address p.terminate dead hp.machine.cache hp.table
    rw [hrun] at hends
    exact hends.answers hs
  | shutdown hpoint =>
    rw [servedBy, hpoint]
    exact ⟨log, k, hnothing.symm ▸ hs⟩
  | join hpoint =>
    rw [servedBy, hpoint]
    exact ⟨log, k, hnothing.symm ▸ hs⟩

theorem Process.Run.bounded {tr : List ProcessRecord}
    (hrun : Process.Run (mainHost address) Process.start tr p) :
    p.dispatcher.machine.Bounded := by
  obtain ⟨mtr, hmtr, -⟩ := hrun.machineRun
  exact MachineRun.bounded hmtr

theorem Process.Run.answers {tr : List ProcessRecord}
    (hrun : Process.Run (mainHost address) Process.start tr p) :
    ∃ log k, Answers (mainHost address) p.stack log (tr.flatMap servedBy) k := by
  induction hrun with
  | nil => exact ⟨[], 0, Answers.init _⟩
  | @snoc tr p q ev hrun hstep ih =>
    obtain ⟨log, k, hs⟩ := ih
    rw [List.flatMap_append, List.flatMap_singleton]
    exact hstep.answers (Process.Run.invariant hrun) (Process.Run.bounded hrun) hs

end

end Suika
