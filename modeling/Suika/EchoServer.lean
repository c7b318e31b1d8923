import Suika.Receive
import Suika.Ipv4Text

/-!
# The program

`main.cpp` from the start of the interrupt thread on: `main` opens a socket, binds it to port 5555
and sends every datagram it receives back to where it came from, until `SIGINT` or `SIGTERM` ends
the loop; `shutdown` then stops the interrupt thread and waits for it. The interrupt thread is the
one of `Dispatch`; what is added is `main`, its flag, and the signals between the two.

A step of `main` leads from one of its calls on sockets to the next, and takes the call whole: a
receive that would wait is no step. How a wake-up gets lost between the check and the sleep of a
receive is the subject of `UdpWakeup`; a `main` that sleeps there is in no state of this model. What
`recvFrom` reads behind its `pop` is taken to be some value, the `DeadRead` of the step. The loop
catches `std::runtime_error`, which `ArpResolveException` is; every other exception ends the
program.

* `Process.Run.machineRun`: a run of the program is a run of the machine.
* `MainPoint.next_ends`: what a call of `main` does, from a table as it should be.
* `echoRun_calls`: the calls that come back, those that wait and those that leave defined behaviour,
  and that no exception gets out of `main`.
-/

namespace Suika

open Cpp BinaryPayload UdpPcbManager

/-! ## `main` -/

/-- Where `main` stands. -/
inductive MainPoint : Type where
  /-- in front of `UdpSocket::open` -/
  | «open»
  /-- in front of `bind` -/
  | bind (s : UdpSocket)
  /-- at the condition of the loop -/
  | test (s : UdpSocket)
  /-- in front of `recvFrom` -/
  | recvFrom (s : UdpSocket)
  /-- in front of `sendTo`, with what was received -/
  | sendTo (s : UdpSocket) (buffer : Bytes) (src : IpEndpoint)
  /-- in front of the `pthread_kill` of `shutdown` -/
  | shutdown
  /-- in front of the `join` of `shutdown` -/
  | join
  | returned

/-- `catch (const std::runtime_error &e)` -/
def catchRuntimeError (point : MainPoint) : Err → Option (Call MainPoint)
  | .runtimeError _ => some (pure point)
  | .arpResolveException _ => some (pure point)
  | _ => none

/-- The calls of `main`, each up to the next one. `srcIp` and `srcPort` are not set before
`recvFrom`, and not read if it returns -1. -/
def MainPoint.next (cfg : Config) (terminate : Bool) (dead : DeadRead) :
    MainPoint → Call MainPoint
  | .open => do
    match ← UdpSocket.open with
    | .ok s => return .bind s
    | .error _ => throwRuntime "socket error"
  | .bind s => do
    let _ ← s.bind "192.0.2.2".toList 5555
    return .test s
  | .test s => return if terminate then .shutdown else .recvFrom s
  | .recvFrom s => Comp.catching (do
      let received ← s.recvFrom (List.replicate 10000 0) ⟨0, 0⟩ dead
      if received.len = -1 then return .test s
      -- the size is converted to an unsigned one, which no vector has
      else if received.len < 0 then Comp.throw .lengthError
      else return .sendTo s (resize received.buf received.len.toNat) received.endpoint)
    (catchRuntimeError (.test s))
  | .sendTo s buffer src => Comp.catching (do
      let _ ← s.sendTo cfg buffer (uint32ToIpv4str src.addr) src.port.toUInt32
      return .test s)
    (catchRuntimeError (.test s))
  -- what is left touches no socket
  | .shutdown => Comp.hang
  | .join => Comp.hang
  | .returned => Comp.hang

/-! ## The system -/

/-- The signals somebody may send to the program. -/
inductive Kill : Type where
  | SIGINT | SIGTERM | SIGHUP | SIGUSR1 | SIGUSR2

/-- The state of the program: what the interrupt thread works on, where `main` stands, the flag, the
signals that are pending for the interrupt thread beside `SIGUSR1`, and whether it runs. -/
structure Process : Type where
  dispatcher : Dispatcher
  point : MainPoint
  terminate : Bool
  hup : Bool
  usr2 : Bool
  running : Bool

/-- What happens: a signal is sent to the program, the interrupt thread answers one, `main` goes
on. -/
inductive ProcessEvent : Type where
  | kill (sig : Kill)
  | signal (sig : Signal)
  | main (dead : DeadRead)

/-- The host of `main.cpp`, for any address of its device. -/
def mainHost (address : EtherAddr) : Host := ⟨address, 0xC0000202, 0xC0000201⟩

namespace Process

/-- Behind `intr.run()`. -/
def start : Process := ⟨Dispatcher.init, .open, false, false, false, true⟩

abbrev stack (p : Process) : Stack := p.dispatcher.machine.stack

abbrev table (p : Process) : UdpPcbManager := p.stack.udpPcbMgr

/-- The program with another stack. -/
def withStack (p : Process) (s : Stack) : Process :=
  { p with dispatcher := { p.dispatcher with machine := { p.dispatcher.machine with stack := s } } }

/-- `on_signal` -/
def onSignal (p : Process) : Process := { p with terminate := true, usr2 := true }

/-- What a signal does on its arrival. -/
def kill (p : Process) : Kill → Process
  | .SIGINT => p.onSignal
  | .SIGTERM => p.onSignal
  | .SIGHUP => { p with hup := true }
  | .SIGUSR1 => { p with dispatcher := { p.dispatcher with pending := true } }
  | .SIGUSR2 => { p with usr2 := true }

/-- One event, a call of `main` and a signal's handlers each taken whole. A `SIGUSR1` whose handler
throws has no step: it ends the program, and what it wrote by then is in `MachineEvent.Throws`. -/
inductive Step (host : Host) : Process → ProcessEvent → Process → Prop where
  | kill {p : Process} (sig : Kill) : Step host p (.kill sig) (p.kill sig)
  | hup {p : Process} : p.running = true → p.hup = true →
      Step host p (.signal .SIGHUP) { p with hup := false, running := false }
  | usr1 {p : Process} {d : Dispatcher} : p.running = true →
      Dispatcher.Step host.config p.dispatcher (.signal .SIGUSR1) d →
      Step host p (.signal .SIGUSR1) { p with dispatcher := d }
  | usr2 {p : Process} {d : Dispatcher} : p.running = true → p.usr2 = true →
      Dispatcher.Step host.config p.dispatcher (.signal .SIGUSR2) d →
      Step host p (.signal .SIGUSR2) { p with dispatcher := d, usr2 := false }
  | irq {p : Process} {d : Dispatcher} {frame : Bytes} : p.running = true →
      Dispatcher.Step host.config p.dispatcher (.signal (.irq frame)) d →
      Step host p (.signal (.irq frame)) { p with dispatcher := d }
  | main {p : Process} {dead : DeadRead} {s : Stack} {point : MainPoint} :
      (p.point.next host.config p.terminate dead).run p.stack = .done s point →
      Step host p (.main dead) { p.withStack s with point := point }
  | shutdown {p : Process} {dead : DeadRead} : p.point = .shutdown →
      Step host p (.main dead) { p with hup := true, point := .join }
  | join {p : Process} {dead : DeadRead} : p.point = .join → p.running = false →
      Step host p (.main dead) { p with point := .returned }

/-- Runs of the program, with their trace. -/
abbrev Run (host : Host) := Runs.Run (Step host)

end Process

/-- One step of a run of the program. -/
abbrev ProcessRecord : Type := Runs.Record Process ProcessEvent

/-! ## The program as a run of the machine -/

/-- The operation on sockets `main` is about to call, if it is one. -/
def MainPoint.call (dead : DeadRead) : MainPoint → Option UdpOp
  | .open => some .open
  | .bind s => some (.bind s "192.0.2.2".toList 5555)
  | .recvFrom s => some (.recvFrom s (List.replicate 10000 0) ⟨0, 0⟩ dead)
  | .sendTo s buffer src =>
    some (.sendTo s buffer (uint32ToIpv4str src.addr) src.port.toUInt32)
  | _ => none

/-- What a step of the program is for the machine. -/
def machineEvents (r : ProcessRecord) : List MachineEvent :=
  match r.label with
  | .kill _ => []
  | .signal sig => [.signal sig]
  | .main dead => ((r.pre.point.call dead).map MachineEvent.call).toList

theorem machineEvents_main (p q : Process) (dead : DeadRead) :
    machineEvents ⟨p, .main dead, q⟩ = ((p.point.call dead).map MachineEvent.call).toList := rfl

/-- Whatever is caught, `main` goes on at the point that was named. -/
theorem catchRuntimeError_eq_some {point : MainPoint} {e : Err} {k : Call MainPoint}
    (h : catchRuntimeError point e = some k) : k = pure point := by
  cases e <;> cases h <;> rfl

section

variable {cfg : Config} {terminate : Bool} {dead : DeadRead} {point next : MainPoint} {s t : Stack}

/-- A step of `main` is the operation it calls. -/
theorem MainPoint.next_eq_done (h : (point.next cfg terminate dead).run s = .done t next) :
    point.call dead = none ∧ t = s ∨
      ∃ op, point.call dead = some op ∧ op.FromApplication ∧
        ((op.exec cfg).run s).next? = some t := by
  cases point with
  | «open» =>
    obtain ⟨u, opened, hr, h⟩ := Comp.bind_eq_done h
    refine Or.inr ⟨.open, rfl, trivial, ?_⟩
    rw [UdpOp.exec, Comp.next?_bind_pure, hr]
    cases opened <;> cases h
    rfl
  | bind sock =>
    obtain ⟨u, bound, hr, h⟩ := Comp.bind_eq_done h
    refine Or.inr ⟨_, rfl, trivial, ?_⟩
    rw [UdpOp.exec, Comp.next?_bind_pure, hr]
    cases h
    rfl
  | test sock =>
    cases h
    exact Or.inl ⟨rfl, rfl⟩
  | recvFrom sock =>
    refine Or.inr ⟨_, rfl, trivial, ?_⟩
    rw [UdpOp.exec, Comp.next?_bind_pure]
    obtain h | ⟨u, e, k, hthrew, hk, h⟩ := Comp.catching_eq_done h
    · obtain ⟨u, received, hr, h⟩ := Comp.bind_eq_done h
      rw [hr]
      split at h
      · cases h
        rfl
      split at h <;> cases h
      rfl
    · obtain rfl := catchRuntimeError_eq_some hk
      obtain hr | ⟨v, received, -, h'⟩ := Comp.bind_eq_threw hthrew
      · rw [hr]
        cases h
        rfl
      · -- a negative size is not caught
        split at h'
        · cases h'
        split at h' <;> cases h'
        cases hk
  | sendTo sock buffer src =>
    refine Or.inr ⟨_, rfl, trivial, ?_⟩
    rw [UdpOp.exec, Comp.next?_bind_pure]
    obtain h | ⟨u, e, k, hthrew, hk, h⟩ := Comp.catching_eq_done h
    · obtain ⟨u, sent, hr, h⟩ := Comp.bind_eq_done h
      rw [hr]
      cases h
      rfl
    · obtain rfl := catchRuntimeError_eq_some hk
      obtain hr | ⟨v, sent, -, h'⟩ := Comp.bind_eq_threw hthrew
      · rw [hr]
        cases h
        rfl
      · cases h'
  | shutdown => cases h
  | join => cases h
  | returned => cases h

end

/-- **A step of the program is what it is for the machine.** -/
theorem Process.Step.refines {host : Host} {p q : Process} {ev : ProcessEvent}
    (h : Process.Step host p ev q) :
    ∃ mtr m, MachineRun host.config p.dispatcher.machine mtr m ∧ q.dispatcher.machine = m ∧
      mtr.map Runs.Record.label = machineEvents ⟨p, ev, q⟩ := by
  cases h with
  | kill sig => exact ⟨[], _, .nil, by cases sig <;> rfl, rfl⟩
  | hup =>
    have hstep : MachineEvent.Step host.config p.dispatcher.machine (.signal .SIGHUP)
        p.dispatcher.machine := rfl
    exact ⟨_, _, Runs.Run.nil.snoc hstep, rfl, rfl⟩
  | usr1 hrunning hstep => exact ⟨_, _, Runs.Run.nil.snoc hstep.machine, rfl, rfl⟩
  | usr2 hrunning husr2 hstep => exact ⟨_, _, Runs.Run.nil.snoc hstep.machine, rfl, rfl⟩
  | irq hrunning hstep => exact ⟨_, _, Runs.Run.nil.snoc hstep.machine, rfl, rfl⟩
  | @main dead s next hrun =>
    obtain ⟨hcall, rfl⟩ | ⟨op, hcall, -, hexec⟩ := MainPoint.next_eq_done hrun
    · refine ⟨[], _, .nil, rfl, ?_⟩
      rw [machineEvents_main, hcall]
      rfl
    · have hstep : MachineEvent.Step host.config p.dispatcher.machine (.call op)
          { p.dispatcher.machine with stack := s } := by
        rcases hr : (op.exec host.config).run p.stack with ⟨t, v⟩ | ⟨t, e⟩ | _ | _ <;>
          rw [hr] at hexec <;> cases hexec <;>
          exact congrArg (fun o => Outcome.next? (Outcome.mapState _ o)) hr
      refine ⟨_, _, Runs.Run.nil.snoc hstep, rfl, ?_⟩
      rw [machineEvents_main, hcall]
      rfl
  | shutdown hpoint =>
    refine ⟨[], _, .nil, rfl, ?_⟩
    rw [machineEvents_main, hpoint]
    rfl
  | join hpoint =>
    refine ⟨[], _, .nil, rfl, ?_⟩
    rw [machineEvents_main, hpoint]
    rfl

/-- So every run of the program is a run of the machine, and what holds of those holds here. -/
theorem Process.Run.machineRun {host : Host} {tr : List ProcessRecord} {p : Process}
    (hrun : Process.Run host Process.start tr p) :
    ∃ mtr, MachineRun host.config Machine.init mtr p.dispatcher.machine ∧
      mtr.map Runs.Record.label = tr.flatMap machineEvents := by
  obtain ⟨mtr, m, hmtr, rfl, hlabels⟩ := Runs.Run.simulates
    (R := fun p m => p.dispatcher.machine = m) (C := fun _ _ => True)
    (fun hR _ hl => hR ▸ Process.Step.refines hl) hrun rfl fun _ _ => trivial
  exact ⟨mtr, hmtr, hlabels⟩

/-! ## The socket of `main` -/

/-- The socket `open` returns. -/
def serverSocket : UdpSocket := ⟨0, 0⟩

/-- What it is bound to. -/
def serverEndpoint : IpEndpoint := ⟨0xC0000202, 5555⟩

/-- No block was opened. -/
def NoneOpen (m : UdpPcbManager) : Prop := ∀ i b, m.block? i = some b → b.state = .FREE

/-- Block 0 is the only one that was opened, and has this endpoint. -/
structure SoleOpen (e : IpEndpoint) (m : UdpPcbManager) : Prop where
  socket : ∃ b, m.block? 0 = some b ∧ b.state = .OPEN ∧ b.endpoint = e
  others : ∀ i b, m.block? i = some b → i ≠ 0 → b.state = .FREE

section

variable {m m' : UdpPcbManager} {e e' : IpEndpoint}

theorem noneOpen_init : NoneOpen UdpPcbManager.init := by
  intro i b hb
  rw [block?_init (lt_of_block? hb)] at hb
  cases hb
  rfl

theorem NoneOpen.of_same (h : NoneOpen m) (hsame : SameEndpoints m m') : NoneOpen m' := by
  intro i b hb
  obtain ⟨b₀, hb₀, hstate, -⟩ := hsame.block? hb
  rw [← hstate]
  exact h i b₀ hb₀

/-- The first block is opened. -/
theorem NoneOpen.alloc (h : NoneOpen m) :
    ∃ m', m.alloc = some (m', 0) ∧ SoleOpen ⟨ipAddrAny, 0⟩ m' := by
  obtain ⟨b, hb⟩ := m.exists_block (i := 0) (by decide)
  obtain ⟨⟨m', i⟩, ha⟩ := exists_alloc hb (h 0 b hb)
  obtain rfl : i = 0 := by
    by_contra hne
    exact alloc_first ha (Nat.pos_of_ne_zero hne) hb (h 0 b hb)
  obtain ⟨-, rfl⟩ := alloc_eq_some ha
  refine ⟨_, ha, ⟨⟨_, by rw [block?_modify_self, hb]; rfl, rfl, rfl⟩, fun i c hc hi => ?_⟩⟩
  rw [block?_modify_ne _ (Ne.symm hi)] at hc
  exact h i c hc

theorem SoleOpen.of_same (h : SoleOpen e m) (hsame : SameEndpoints m m') : SoleOpen e m' where
  socket := by
    obtain ⟨b, hb, hopen, hendpoint⟩ := h.socket
    obtain ⟨c, hc, hstate, hc'⟩ := hsame.symm.block? hb
    exact ⟨c, hc, hstate.trans hopen, hc'.trans hendpoint⟩
  others i b hb hi := by
    obtain ⟨b₀, hb₀, hstate, -⟩ := hsame.block? hb
    rw [← hstate]
    exact h.others i b₀ hb₀ hi

/-- A change of block 0. -/
theorem SoleOpen.modify (h : SoleOpen e m) {f : UdpControlBlock → UdpControlBlock}
    (hf : ∀ b, b.state = .OPEN → b.endpoint = e → (f b).state = .OPEN ∧ (f b).endpoint = e') :
    SoleOpen e' (m.modify 0 f) where
  socket := by
    obtain ⟨b, hb, hopen, hendpoint⟩ := h.socket
    obtain ⟨hopen', hendpoint'⟩ := hf b hopen hendpoint
    exact ⟨f b, by rw [block?_modify_self, hb]; rfl, hopen', hendpoint'⟩
  others i b hb hi := by
    rw [block?_modify_ne f (Ne.symm hi)] at hb
    exact h.others i b hb hi

/-- `select` finds block 0 or none. -/
theorem SoleOpen.select (h : SoleOpen e m) (a : UInt32) (p : UInt16) :
    m.select a p = if (e.addr = ipAddrAny ∨ e.addr = a) ∧ e.port = p then some 0 else none := by
  obtain ⟨b, hb, hopen, rfl⟩ := h.socket
  split
  · rename_i hmatch
    exact select_eq_some.mpr ⟨⟨b, hb, hopen, hmatch⟩, fun j _ hj => absurd hj (Nat.not_lt_zero j)⟩
  · rename_i hno
    refine select_eq_none.mpr fun i c hc hmatch => ?_
    by_cases hi : i = 0
    · subst hi
      obtain rfl : b = c := Option.some.inj (hb.symm.trans hc)
      exact hno hmatch.2
    · have hfree := h.others i c hc hi
      rw [hmatch.1] at hfree
      cases hfree

end

/-- What the table is like where `main` stands. -/
def MainPoint.Holds : MainPoint → UdpPcbManager → Prop
  | .open, m => NoneOpen m
  | .bind s, m => s = serverSocket ∧ SoleOpen ⟨ipAddrAny, 0⟩ m
  | .test s, m => s = serverSocket ∧ SoleOpen serverEndpoint m
  | .recvFrom s, m => s = serverSocket ∧ SoleOpen serverEndpoint m
  | .sendTo s _ _, m => s = serverSocket ∧ SoleOpen serverEndpoint m
  | .shutdown, m => SoleOpen serverEndpoint m
  | .join, m => SoleOpen serverEndpoint m
  | .returned, m => SoleOpen serverEndpoint m

/-- It is about states and endpoints only. -/
theorem MainPoint.Holds.of_same {point : MainPoint} {m m' : UdpPcbManager} (h : point.Holds m)
    (hsame : SameEndpoints m m') : point.Holds m' := by
  cases point with
  | «open» => exact NoneOpen.of_same h hsame
  | bind s => exact ⟨h.1, h.2.of_same hsame⟩
  | test s => exact ⟨h.1, h.2.of_same hsame⟩
  | recvFrom s => exact ⟨h.1, h.2.of_same hsame⟩
  | sendTo s buffer src => exact ⟨h.1, h.2.of_same hsame⟩
  | shutdown => exact SoleOpen.of_same h hsame
  | join => exact SoleOpen.of_same h hsame
  | returned => exact SoleOpen.of_same h hsame

/-! ## What a step of `main` does -/

/-- The datagram as `main` takes it over from `recvFrom`. -/
def takeOver (front : UdpPcbPayload) (dead : DeadRead) : MainPoint :=
  if dead.size = -1 then .test serverSocket
  else .sendTo serverSocket
    (resize (patch (List.replicate 10000 0) 0 front.data) dead.size.toNat) dead.endpoint

/-- What is sent for a datagram: the datagram, or a request if the gateway is not known. -/
def answer (host : Host) (s : Stack) (buffer : Bytes) (src : IpEndpoint) : Output :=
  if (ArpCache.select s.arpCache host.gateway).isSome then
    .ipv4 udpType (udpOutput.segmentBytes serverEndpoint src buffer) src.addr
  else .arpRequest

/-- **How a call of `main` ends**, from a table as it should be. -/
inductive MainPoint.Ends (host : Host) (terminate : Bool) (dead : DeadRead) :
    MainPoint → Stack → Outcome Err Stack MainPoint → Prop where
  | opened {s : Stack} {m : UdpPcbManager} : s.udpPcbMgr.alloc = some (m, 0) →
      SoleOpen ⟨ipAddrAny, 0⟩ m →
      Ends host terminate dead .open s (.done { s with udpPcbMgr := m } (.bind serverSocket))
  | bound {s : Stack} {m : UdpPcbManager} :
      m = UdpSocket.bindTable s.udpPcbMgr serverSocket 0xC0000202 5555 →
      SoleOpen serverEndpoint m →
      Ends host terminate dead (.bind serverSocket) s
        (.done { s with udpPcbMgr := m } (.test serverSocket))
  | tested {s : Stack} : Ends host terminate dead (.test serverSocket) s
      (.done s (if terminate then .shutdown else .recvFrom serverSocket))
  | interrupted {s : Stack} {b : UdpControlBlock} : s.udpPcbMgr.block? 0 = some b →
      b.interrupted = 1 → Ends host terminate dead (.recvFrom serverSocket) s
        (.done s (.test serverSocket))
  | waits {s : Stack} {b : UdpControlBlock} : s.udpPcbMgr.block? 0 = some b →
      b.interrupted ≠ 1 → b.que = [] → Ends host terminate dead (.recvFrom serverSocket) s .hangs
  | received {s : Stack} {b : UdpControlBlock} {front : UdpPcbPayload}
      {rest : List UdpPcbPayload} : s.udpPcbMgr.block? 0 = some b → b.interrupted ≠ 1 →
      b.que = front :: rest → front.data.length ≤ 10000 → -1 ≤ dead.size →
      Ends host terminate dead (.recvFrom serverSocket) s
        (.done { s with udpPcbMgr := UdpSocket.takeTable s.udpPcbMgr serverSocket rest }
          (takeOver front dead))
  | misread {s : Stack} {rest : List UdpPcbPayload} : dead.size < -1 →
      Ends host terminate dead (.recvFrom serverSocket) s
        (.threw { s with udpPcbMgr := UdpSocket.takeTable s.udpPcbMgr serverSocket rest }
          .lengthError)
  | overrun {s : Stack} {b : UdpControlBlock} {front : UdpPcbPayload}
      {rest : List UdpPcbPayload} : s.udpPcbMgr.block? 0 = some b → b.interrupted ≠ 1 →
      b.que = front :: rest → 10000 < front.data.length →
      Ends host terminate dead (.recvFrom serverSocket) s .undef
  | answered {s : Stack} {buffer : Bytes} {src : IpEndpoint} : buffer.length % 2 = 0 →
      buffer.length ≤ 65507 → Ends host terminate dead (.sendTo serverSocket buffer src) s
        (.done (host.write s (answer host s buffer src)) (.test serverSocket))
  | unsummed {s : Stack} {buffer : Bytes} {src : IpEndpoint} :
      ¬ (buffer.length % 2 = 0 ∧ buffer.length ≤ 65507) →
      Ends host terminate dead (.sendTo serverSocket buffer src) s .undef
  | finished {point : MainPoint} {s : Stack} :
      point = .shutdown ∨ point = .join ∨ point = .returned →
      Ends host terminate dead point s .hangs

section

variable {address : EtherAddr} {s : Stack}

/-- A text that `recvFrom` reported names the address it was made from, and the server sends from
its own endpoint. -/
theorem sendTo_server {buffer : Bytes} {src : IpEndpoint}
    (h : SoleOpen serverEndpoint s.udpPcbMgr) :
    (serverSocket.sendTo (mainHost address).config buffer (uint32ToIpv4str src.addr)
      src.port.toUInt32).run s =
        (udpOutput (mainHost address).config serverEndpoint src buffer).run s := by
  obtain ⟨b, hb, hopen, hendpoint⟩ := h.socket
  have ha : ipv4strToUint32 (uint32ToIpv4str src.addr) = .ok src.addr := by
    rw [ipv4strToUint32_dottedQuad (dottedQuad_uint32ToIpv4str src.addr),
      quadValue_octets src.addr.toNat_lt, UInt32.ofNat_toNat]
  have hb' : s.udpPcbMgr.block? serverSocket.block = some b := hb
  have haddr : b.endpoint.addr = 0xC0000202 := congrArg IpEndpoint.addr hendpoint
  have hport : b.endpoint.port = 5555 := congrArg IpEndpoint.port hendpoint
  have hany : b.endpoint.addr ≠ ipAddrAny := by
    rw [haddr]
    decide
  have hzero : b.endpoint.port ≠ 0 := by
    rw [hport]
    decide
  rw [UdpSocket.sendTo, ha, Comp.lift_ok_bind]
  dsimp only
  rw [Comp.run_get_bind, UdpSocket.get_eq hb', Comp.lift_ok_bind, if_neg (not_not.mpr hopen),
    UdpSocket.localAddr, if_neg hany, Comp.lift_ok_bind, UdpSocket.localPort, if_neg hzero,
    Comp.pure_bind, haddr, hport, UInt16.toUInt16_toUInt32]
  rfl

/-- A datagram is taken over. -/
theorem MainPoint.next_recvFrom (cfg : Config) (terminate : Bool) {dead : DeadRead}
    {b : UdpControlBlock} {front : UdpPcbPayload} {rest : List UdpPcbPayload}
    (hb : s.udpPcbMgr.block? 0 = some b) (hint : b.interrupted ≠ 1) (hque : b.que = front :: rest)
    (hfit : front.data.length ≤ 10000) (hread : -1 ≤ dead.size) :
    (next cfg terminate dead (.recvFrom serverSocket)).run s =
      .done { s with udpPcbMgr := UdpSocket.takeTable s.udpPcbMgr serverSocket rest }
        (takeOver front dead) := by
  have hb' : s.udpPcbMgr.block? serverSocket.block = some b := hb
  have hrun : (serverSocket.recvFrom (List.replicate 10000 0) ⟨0, 0⟩ dead).run s = _ :=
    UdpSocket.recvFrom_run hb'
  rw [List.length_replicate, if_neg hint, hque] at hrun
  dsimp only at hrun
  rw [if_pos hfit] at hrun
  rw [next, Comp.catching]
  dsimp only
  rw [Comp.run_bind, hrun, takeOver]
  by_cases hsize : dead.size = -1
  · simp only [Outcome.andThen, if_pos hsize]
    rfl
  · have hneg : ¬ dead.size < 0 := by omega
    simp only [Outcome.andThen, if_neg hsize, if_neg hneg]
    rfl

theorem MainPoint.ends_recvFrom (terminate : Bool) (dead : DeadRead)
    (h : SoleOpen serverEndpoint s.udpPcbMgr) :
    Ends (mainHost address) terminate dead (.recvFrom serverSocket) s
      ((next (mainHost address).config terminate dead (.recvFrom serverSocket)).run s) := by
  obtain ⟨b, hb, -, -⟩ := h.socket
  have hb' : s.udpPcbMgr.block? serverSocket.block = some b := hb
  have hrun : (serverSocket.recvFrom (List.replicate 10000 0) ⟨0, 0⟩ dead).run s = _ :=
    UdpSocket.recvFrom_run hb'
  rw [List.length_replicate] at hrun
  by_cases hint : b.interrupted = 1
  · rw [next, Comp.catching]
    dsimp only
    rw [Comp.run_bind, hrun, if_pos hint]
    exact .interrupted hb hint
  rw [if_neg hint] at hrun
  cases hque : b.que with
  | nil =>
    rw [next, Comp.catching]
    dsimp only
    rw [Comp.run_bind, hrun, hque]
    exact .waits hb hint hque
  | cons front rest =>
    by_cases hfit : front.data.length ≤ 10000
    swap
    · rw [hque] at hrun
      dsimp only at hrun
      rw [if_neg hfit] at hrun
      rw [next, Comp.catching]
      dsimp only
      rw [Comp.run_bind, hrun]
      exact .overrun hb hint hque (Nat.lt_of_not_le hfit)
    by_cases hread : -1 ≤ dead.size
    · rw [next_recvFrom (mainHost address).config terminate hb hint hque hfit hread]
      exact .received hb hint hque hfit hread
    · -- no vector has the size that was read
      have hne : dead.size ≠ -1 := by omega
      have hneg : dead.size < 0 := by omega
      rw [hque] at hrun
      dsimp only at hrun
      rw [if_pos hfit] at hrun
      rw [next, Comp.catching]
      dsimp only
      rw [Comp.run_bind, hrun]
      simp only [Outcome.andThen, if_neg hne, if_pos hneg]
      exact .misread (by omega)

theorem MainPoint.ends_sendTo (terminate : Bool) (dead : DeadRead) (buffer : Bytes)
    (src : IpEndpoint) (hcache : EtherCache s) (h : SoleOpen serverEndpoint s.udpPcbMgr) :
    Ends (mainHost address) terminate dead (.sendTo serverSocket buffer src) s
      ((next (mainHost address).config terminate dead
        (.sendTo serverSocket buffer src)).run s) := by
  have hany : serverEndpoint.addr ≠ ipAddrAny := by decide
  rw [next, Comp.catching]
  dsimp only
  rw [Comp.run_bind, sendTo_server h]
  rcases udpOutput_cases (mainHost address) serverEndpoint src buffer hcache
      (fun heq => absurd heq hany) with
    ⟨hd, hu⟩ | ⟨hsrc, -⟩ | ⟨-, hev, hfits, ⟨hnone, hmiss⟩ | ⟨⟨c, hc⟩, hhit⟩⟩
  · rw [hu]
    exact .unsummed hd
  · rcases hsrc with hsrc | hsrc
    · exact absurd hsrc.1 hany
    · exact absurd rfl hsrc
  · have hanswer : answer (mainHost address) s buffer src = .arpRequest := by
      rw [answer, hnone]
      rfl
    rw [hmiss, ← hanswer]
    exact .answered hev hfits
  · have hanswer : answer (mainHost address) s buffer src =
        .ipv4 udpType (udpOutput.segmentBytes serverEndpoint src buffer) src.addr := by
      rw [answer, hc]
      rfl
    rw [hhit, ← hanswer]
    exact .answered hev hfits

/-- **What a call of `main` does.** -/
theorem MainPoint.next_ends (address : EtherAddr) (terminate : Bool) (dead : DeadRead)
    {point : MainPoint} (hcache : EtherCache s) (h : point.Holds s.udpPcbMgr) :
    point.Ends (mainHost address) terminate dead s
      ((point.next (mainHost address).config terminate dead).run s) := by
  cases point with
  | «open» =>
    obtain ⟨m, halloc, hm⟩ := NoneOpen.alloc h
    have hopen := UdpSocket.open_run (s := s)
    rw [halloc] at hopen
    rw [next, Comp.bind_done hopen]
    exact .opened halloc hm
  | bind sock =>
    obtain ⟨rfl, hsole⟩ := h
    have ha : ipv4strToUint32 "192.0.2.2".toList = .ok 0xC0000202 := rfl
    have hsel : s.udpPcbMgr.select 0xC0000202 5555 = none :=
      (hsole.select 0xC0000202 5555).trans (if_neg fun hmatch => absurd hmatch.2 (by decide))
    have hrun : (serverSocket.bind "192.0.2.2".toList 5555).run s = _ := UdpSocket.bind_run ha
    obtain ⟨b, hb, -, -⟩ := hsole.socket
    have hb' : s.udpPcbMgr.block? serverSocket.block = some b := hb
    rw [hsel, hb'] at hrun
    rw [next, Comp.bind_done hrun]
    exact .bound rfl (hsole.modify fun b hopen _ => ⟨hopen, rfl⟩)
  | test sock =>
    obtain ⟨rfl, -⟩ := h
    exact .tested
  | recvFrom sock =>
    obtain ⟨rfl, hsole⟩ := h
    exact ends_recvFrom terminate dead hsole
  | sendTo sock buffer src =>
    obtain ⟨rfl, hsole⟩ := h
    exact ends_sendTo terminate dead buffer src hcache hsole
  | shutdown => exact .finished (Or.inl rfl)
  | join => exact .finished (Or.inr (Or.inl rfl))
  | returned => exact .finished (Or.inr (Or.inr rfl))

end

/-! ## The invariant -/

section

variable {host : Host} {terminate : Bool} {dead : DeadRead} {point next : MainPoint} {s t : Stack}

/-- `main` sends, and touches the table; the ARP cache belongs to the interrupt thread. -/
theorem MainPoint.Ends.arpCache (h : Ends host terminate dead point s (.done t next)) :
    t.arpCache = s.arpCache := by
  cases h <;> rfl

theorem MainPoint.Ends.holds (h : Ends host terminate dead point s (.done t next))
    (hs : point.Holds s.udpPcbMgr) : next.Holds t.udpPcbMgr := by
  cases h with
  | opened _ hsole => exact ⟨rfl, hsole⟩
  | bound _ hsole => exact ⟨rfl, hsole⟩
  | tested =>
    cases terminate with
    | true => exact hs.2
    | false => exact hs
  | interrupted => exact hs
  | @received _ b front rest =>
    have hsole : SoleOpen serverEndpoint (UdpSocket.takeTable s.udpPcbMgr serverSocket rest) :=
      hs.2.modify fun b hopen hendpoint => ⟨hopen, hendpoint⟩
    rw [takeOver]
    split
    · exact ⟨rfl, hsole⟩
    · exact ⟨rfl, hsole⟩
  | answered => exact hs

/-- A step leads to the receive only if the flag is not set. -/
theorem MainPoint.Ends.terminate_eq_false (h : Ends host terminate dead point s (.done t next))
    {sock : UdpSocket} (hnext : next = .recvFrom sock) : terminate = false := by
  cases h with
  | tested =>
    cases terminate with
    | true => cases hnext
    | false => rfl
  | received =>
    rw [takeOver] at hnext
    split at hnext <;> cases hnext
  | _ => cases hnext

/-- And behind the loop only if it is. -/
theorem MainPoint.Ends.terminate_eq_true (h : Ends host terminate dead point s (.done t next))
    (hnext : next = .shutdown ∨ next = .join ∨ next = .returned) :
    terminate = true ∧ next = .shutdown := by
  cases h with
  | tested =>
    cases terminate with
    | true => exact ⟨rfl, rfl⟩
    | false => rcases hnext with h | h | h <;> cases h
  | received =>
    rw [takeOver] at hnext
    split at hnext <;> rcases hnext with h | h | h <;> cases h
  | _ => rcases hnext with h | h | h <;> cases h

end

/-- A signal leaves states and endpoints alone. -/
theorem MachineEvent.Step.sameEndpoints {host : Host} {m n : Machine} {sig : Signal}
    (h : MachineEvent.Step host.config m (.signal sig) n) :
    SameEndpoints m.stack.udpPcbMgr n.stack.udpPcbMgr := by
  cases sig with
  | SIGHUP =>
    cases h
    exact (OnlyQueues.refl _).sameEndpoints
  | SIGUSR1 => exact (handleProtocolSignal_receives h).blocks.sameEndpoints
  | SIGUSR2 =>
    cases h
    exact sameEndpoints_interruptAll _
  | irq frame =>
    obtain ⟨_, _, hhandler, hpure⟩ := Comp.bind_eq_done h
    cases hpure
    obtain rfl | ⟨d, rfl⟩ := EtherDevice.handler_done hhandler
    · exact (OnlyQueues.refl _).sameEndpoints
    · exact (OnlyQueues.refl _).sameEndpoints

/-- The datagrams of a block that was interrupted stay there. -/
def UdpPcbManager.Interrupted (m : UdpPcbManager) : Prop :=
  ∃ b, m.block? 0 = some b ∧ b.interrupted = 1

namespace Process

/-- What holds between any two events. -/
structure Invariant (p : Process) : Prop where
  machine : MachineInvariant p.dispatcher.machine
  table : p.point.Holds p.table
  /-- a receive that has to end is interrupted, or will be -/
  woken : ∀ s, p.point = .recvFrom s → p.terminate = true →
    p.usr2 = true ∨ p.table.Interrupted
  finishing : p.point = .shutdown ∨ p.point = .join ∨ p.point = .returned → p.terminate = true
  stopping : p.point = .join → p.hup = true ∨ p.running = false
  stopped : p.point = .returned → p.running = false

variable {address : EtherAddr} {p q : Process} {ev : ProcessEvent}

theorem invariant_start : start.Invariant where
  machine := ⟨rfl, fun _ hc => absurd hc List.not_mem_nil⟩
  table := noneOpen_init
  woken _ h := nomatch h
  finishing h := by rcases h with h | h | h <;> cases h
  stopping h := nomatch h
  stopped h := nomatch h

/-- What the interrupt thread does to the queues and the stack. -/
theorem Invariant.signal (h : p.Invariant) {sig : Signal} {d : Dispatcher}
    (hstep : Dispatcher.Step (mainHost address).config p.dispatcher (.signal sig) d) :
    MachineInvariant d.machine ∧ p.point.Holds d.machine.stack.udpPcbMgr :=
  ⟨hstep.machine.invariant h.machine, h.table.of_same hstep.machine.sameEndpoints⟩

/-- **One event keeps it.** -/
theorem Step.invariant (hp : p.Invariant) (h : Step (mainHost address) p ev q) : q.Invariant := by
  cases h with
  | kill sig =>
    cases sig with
    | SIGINT => exact ⟨hp.machine, hp.table, fun _ _ _ => Or.inl rfl, fun _ => rfl, hp.stopping,
        hp.stopped⟩
    | SIGTERM => exact ⟨hp.machine, hp.table, fun _ _ _ => Or.inl rfl, fun _ => rfl, hp.stopping,
        hp.stopped⟩
    | SIGHUP => exact ⟨hp.machine, hp.table, hp.woken, hp.finishing, fun _ => Or.inl rfl,
        hp.stopped⟩
    | SIGUSR1 => exact ⟨hp.machine, hp.table, hp.woken, hp.finishing, hp.stopping, hp.stopped⟩
    | SIGUSR2 => exact ⟨hp.machine, hp.table, fun _ _ _ => Or.inl rfl, hp.finishing, hp.stopping,
        hp.stopped⟩
  | hup hrunning hhup =>
    exact ⟨hp.machine, hp.table, hp.woken, hp.finishing, fun _ => Or.inr rfl, fun _ => rfl⟩
  | @usr1 d hrunning hstep =>
    obtain ⟨hmachine, htable⟩ := hp.signal hstep
    refine ⟨hmachine, htable, fun s hpoint hterm => ?_, hp.finishing, hp.stopping, hp.stopped⟩
    -- a delivery leaves the flag of the block alone
    rcases hp.woken s hpoint hterm with husr2 | ⟨b, hb, hint⟩
    · exact Or.inl husr2
    · obtain ⟨que, hc⟩ := (handleProtocolSignal_receives hstep.machine).blocks.block? hb
      exact Or.inr ⟨_, hc, hint⟩
  | @usr2 d hrunning husr2 hstep =>
    obtain ⟨hmachine, htable⟩ := hp.signal hstep
    refine ⟨hmachine, htable, fun s hpoint _ => Or.inr ?_, hp.finishing, hp.stopping, hp.stopped⟩
    -- the signal raises the flag of every open block, that of the receive among them
    have hholds := hp.table
    rw [hpoint] at hholds
    obtain ⟨b, hb, hopen, -⟩ := hholds.2.socket
    have hdone : Outcome.done _ () = Outcome.done d.machine () := hstep.machine
    have hafter : d.machine.stack.udpPcbMgr = p.table.interruptAll :=
      congrArg (fun m => m.stack.udpPcbMgr) (Outcome.done.inj hdone).1.symm
    refine ⟨{ b with interrupted := 1 }, ?_, rfl⟩
    change d.machine.stack.udpPcbMgr.block? 0 = _
    rw [hafter, block?_interruptAll, hb, Option.map_some, if_pos hopen]
  | @irq d frame hrunning hstep =>
    obtain ⟨hmachine, htable⟩ := hp.signal hstep
    refine ⟨hmachine, htable, fun s hpoint hterm => ?_, hp.finishing, hp.stopping, hp.stopped⟩
    have hstack : d.machine.stack = p.stack := by
      obtain ⟨_, _, hhandler, hpure⟩ := Comp.bind_eq_done hstep.machine
      cases hpure
      obtain heq | ⟨pd, heq⟩ := EtherDevice.handler_done hhandler <;> rw [heq]
    have hwoken := hp.woken s hpoint hterm
    dsimp only [Process.table, Process.stack] at hwoken ⊢
    rw [hstack]
    exact hwoken
  | @main dead s next hrun =>
    have hends := MainPoint.next_ends address p.terminate dead hp.machine.cache
      hp.table
    rw [hrun] at hends
    refine ⟨⟨hp.machine.keys, ?_⟩, hends.holds hp.table, fun sock hpoint hterm => ?_,
      fun hpoint => (hends.terminate_eq_true hpoint).1, fun hpoint => ?_, fun hpoint => ?_⟩
    · have hcache : EtherCache s := by
        rw [EtherCache, hends.arpCache]
        exact hp.machine.cache
      exact hcache
    · have hset : p.terminate = true := hterm
      rw [hends.terminate_eq_false hpoint] at hset
      cases hset
    · cases (hends.terminate_eq_true (Or.inr (Or.inl hpoint))).2.symm.trans hpoint
    · cases (hends.terminate_eq_true (Or.inr (Or.inr hpoint))).2.symm.trans hpoint
  | shutdown hpoint =>
    have hholds := hp.table
    rw [hpoint] at hholds
    exact ⟨hp.machine, hholds, fun _ h => (by cases h), fun _ => hp.finishing (Or.inl hpoint),
      fun _ => Or.inl rfl, fun h => (by cases h)⟩
  | join hpoint hrunning =>
    have hholds := hp.table
    rw [hpoint] at hholds
    exact ⟨hp.machine, hholds, fun _ h => (by cases h),
      fun _ => hp.finishing (Or.inr (Or.inl hpoint)), fun h => (by cases h), fun _ => hrunning⟩

theorem Run.invariant {tr : List ProcessRecord} (hrun : Run (mainHost address) start tr p) :
    p.Invariant :=
  Runs.Run.invariant (fun hp h => Step.invariant hp h) hrun invariant_start

end Process

/-! ## Where `main` can go on -/

/-- A call of `main` that comes back. -/
def MainPoint.CanCall : MainPoint → UdpPcbManager → Prop
  | .open, _ => True
  | .bind _, _ => True
  | .test _, _ => True
  | .recvFrom _, m => ∃ b, m.block? 0 = some b ∧
      (b.interrupted = 1 ∨ ∃ front rest, b.que = front :: rest ∧ front.data.length ≤ 10000)
  | .sendTo _ buffer _, _ => buffer.length % 2 = 0 ∧ buffer.length ≤ 65507
  | .shutdown, _ => False
  | .join, _ => False
  | .returned, _ => False

/-- A receive that waits. -/
def MainPoint.Waits : MainPoint → UdpPcbManager → Prop
  | .recvFrom _, m => ∃ b, m.block? 0 = some b ∧ b.interrupted ≠ 1 ∧ b.que = []
  | _, _ => False

/-- A call that leaves defined behaviour. -/
def MainPoint.Breaks : MainPoint → UdpPcbManager → Prop
  | .recvFrom _, m => ∃ b, m.block? 0 = some b ∧ b.interrupted ≠ 1 ∧
      ∃ front rest, b.que = front :: rest ∧ 10000 < front.data.length
  | .sendTo _ buffer _, _ => ¬ (buffer.length % 2 = 0 ∧ buffer.length ≤ 65507)
  | _, _ => False

/-- `main` calls something that comes back, or is on its way out and has nothing to wait for. -/
def Process.CanMove (p : Process) : Prop :=
  p.point.CanCall p.table ∨ p.point = .shutdown ∨ p.point = .join ∧ p.running = false

section

variable {address : EtherAddr} {s : Stack} {point : MainPoint}

theorem MainPoint.Waits.not_canCall {m : UdpPcbManager} (h : point.Waits m) :
    ¬ point.CanCall m := by
  cases point with
  | recvFrom sock =>
    obtain ⟨b, hb, hint, hque⟩ := h
    rintro ⟨c, hc, hready⟩
    obtain rfl : b = c := Option.some.inj (hb.symm.trans hc)
    rcases hready with hready | ⟨front, rest, hfront, -⟩
    · exact hint hready
    · rw [hque] at hfront
      cases hfront
  | _ => exact h.elim

theorem MainPoint.Breaks.not_canCall {m : UdpPcbManager} (h : point.Breaks m) :
    ¬ point.CanCall m := by
  cases point with
  | recvFrom sock =>
    obtain ⟨b, hb, hint, front, rest, hque, hlong⟩ := h
    rintro ⟨c, hc, hready⟩
    obtain rfl : b = c := Option.some.inj (hb.symm.trans hc)
    rcases hready with hready | ⟨front', rest', hfront, hfit⟩
    · exact hint hready
    · rw [hque] at hfront
      obtain ⟨rfl, -⟩ := List.cons.inj hfront
      omega
  | sendTo sock buffer src => exact h
  | _ => exact h.elim

theorem MainPoint.Breaks.not_waits {m : UdpPcbManager} (h : point.Breaks m) :
    ¬ point.Waits m := by
  cases point with
  | recvFrom sock =>
    obtain ⟨b, hb, -, front, rest, hque, -⟩ := h
    rintro ⟨c, hc, -, hempty⟩
    obtain rfl : b = c := Option.some.inj (hb.symm.trans hc)
    rw [hque] at hempty
    cases hempty
  | sendTo sock buffer src => exact not_false
  | _ => exact h.elim

/-- Only calls on sockets do. -/
theorem MainPoint.Breaks.isSome_call {m : UdpPcbManager} (h : point.Breaks m) (dead : DeadRead) :
    (point.call dead).isSome := by
  cases point with
  | recvFrom sock => rfl
  | sendTo sock buffer src => rfl
  | _ => exact h.elim

section

variable {host : Host} {terminate : Bool} {dead : DeadRead}

theorem MainPoint.Ends.canCall {t : Stack} {next : MainPoint}
    (h : Ends host terminate dead point s (.done t next)) : point.CanCall s.udpPcbMgr := by
  cases h with
  | opened => trivial
  | bound => trivial
  | tested => trivial
  | interrupted hb hint => exact ⟨_, hb, Or.inl hint⟩
  | received hb _ hque hfit => exact ⟨_, hb, Or.inr ⟨_, _, hque, hfit⟩⟩
  | answered hev hfits => exact ⟨hev, hfits⟩

theorem MainPoint.Ends.of_hangs (h : Ends host terminate dead point s .hangs)
    (hcall : (point.call dead).isSome) : point.Waits s.udpPcbMgr := by
  cases h with
  | waits hb hint hque => exact ⟨_, hb, hint, hque⟩
  | finished hpoint => rcases hpoint with rfl | rfl | rfl <;> cases hcall

theorem MainPoint.Ends.of_undef (h : Ends host terminate dead point s .undef) :
    point.Breaks s.udpPcbMgr := by
  cases h with
  | overrun hb hint hque hlong => exact ⟨_, hb, hint, _, _, hque, hlong⟩
  | unsummed hno => exact hno

theorem MainPoint.Ends.not_threw {t : Stack} {e : Err}
    (h : Ends host terminate dead point s (.threw t e)) (hread : -1 ≤ dead.size) : False := by
  cases h with
  | misread hsize => omega

variable {o : Outcome Err Stack MainPoint}

/-- A call that can come back does. -/
theorem MainPoint.Ends.exists_done (h : Ends host terminate dead point s o)
    (hcall : point.CanCall s.udpPcbMgr) (hread : -1 ≤ dead.size) : ∃ t next, o = .done t next := by
  cases o with
  | done t next => exact ⟨t, next, rfl⟩
  | threw t e => exact (h.not_threw hread).elim
  | undef => exact absurd hcall h.of_undef.not_canCall
  | hangs =>
    have hsocket : (point.call dead).isSome := by
      cases h with
      | waits => rfl
      | finished hpoint => rcases hpoint with rfl | rfl | rfl <;> exact hcall.elim
    exact absurd hcall (h.of_hangs hsocket).not_canCall

/-- One that has to wait waits. -/
theorem MainPoint.Ends.eq_hangs (h : Ends host terminate dead point s o)
    (hwaits : point.Waits s.udpPcbMgr) (hread : -1 ≤ dead.size) : o = .hangs := by
  cases o with
  | done t next => exact absurd h.canCall hwaits.not_canCall
  | threw t e => exact (h.not_threw hread).elim
  | undef => exact absurd hwaits h.of_undef.not_waits
  | hangs => rfl

/-- And one that cannot stay in defined behaviour leaves it. -/
theorem MainPoint.Ends.eq_undef (h : Ends host terminate dead point s o)
    (hbreaks : point.Breaks s.udpPcbMgr) (hread : -1 ≤ dead.size) : o = .undef := by
  cases o with
  | done t next => exact absurd h.canCall hbreaks.not_canCall
  | threw t e => exact (h.not_threw hread).elim
  | undef => rfl
  | hangs => exact absurd (h.of_hangs (hbreaks.isSome_call dead)) hbreaks.not_waits

end

end

/-- **What a call of `main` does**, made here and with nothing else in between. -/
structure Process.Foreseen (host : Host) (p : Process) : Prop where
  /-- when it comes back -/
  returns : ∀ dead, -1 ≤ dead.size →
    ((∃ s next, (p.point.next host.config p.terminate dead).run p.stack = .done s next) ↔
      p.point.CanCall p.table)
  /-- when a call on a socket waits -/
  waits : ∀ dead, -1 ≤ dead.size → (p.point.call dead).isSome →
    ((p.point.next host.config p.terminate dead).run p.stack = .hangs ↔ p.point.Waits p.table)
  /-- when it leaves defined behaviour -/
  breaks : ∀ dead, -1 ≤ dead.size →
    ((p.point.next host.config p.terminate dead).run p.stack = .undef ↔ p.point.Breaks p.table)
  /-- no exception gets out of `main` -/
  catches : ∀ dead t e, -1 ≤ dead.size →
    (p.point.next host.config p.terminate dead).run p.stack ≠ .threw t e
  /-- the steps of `main`, those behind the loop among them -/
  moves : (∃ dead q, Process.Step host p (.main dead) q) ↔ p.CanMove

/-- **The calls of `main`**, in every state of every run. All come back but
* a receive that finds neither a datagram nor its block interrupted: it waits;
* a receive of a datagram of more than 10000 bytes, which is copied past the end of the buffer, and
  the answer to a datagram of odd size, whose checksum reads past its end, or of one too large for a
  packet: they leave defined behaviour.

Behind the loop, `main` waits for the interrupt thread that still runs. No exception gets out of it,
as long as `recvFrom` does not read a size below -1. -/
theorem echoRun_calls (address : EtherAddr) {tr : List ProcessRecord} {p : Process}
    (hrun : Process.Run (mainHost address) Process.start tr p) :
    p.Foreseen (mainHost address) := by
  have hp := Process.Run.invariant hrun
  have hends := fun dead =>
    MainPoint.next_ends address p.terminate dead hp.machine.cache hp.table
  have hreturns : ∀ dead, -1 ≤ dead.size → ((∃ s next,
      (p.point.next (mainHost address).config p.terminate dead).run p.stack = .done s next) ↔
        p.point.CanCall p.table) := by
    refine fun dead hread => ⟨?_, fun hcall => (hends dead).exists_done hcall hread⟩
    rintro ⟨s, next, hdone⟩
    exact (hdone ▸ hends dead).canCall
  exact {
    returns := hreturns
    waits := fun dead hread hcall => ⟨fun hhangs => (hhangs ▸ hends dead).of_hangs hcall,
      fun hwaits => (hends dead).eq_hangs hwaits hread⟩
    breaks := fun dead hread => ⟨fun hundef => (hundef ▸ hends dead).of_undef,
      fun hbreaks => (hends dead).eq_undef hbreaks hread⟩
    catches := fun dead t e hread hthrew => (hthrew ▸ hends dead).not_threw hread
    moves := by
      constructor
      · rintro ⟨dead, q, h⟩
        cases h with
        | main hdone => exact Or.inl (hdone ▸ hends dead).canCall
        | shutdown hpoint => exact Or.inr (Or.inl hpoint)
        | join hpoint hrunning => exact Or.inr (Or.inr ⟨hpoint, hrunning⟩)
      · have hread : -1 ≤ (⟨0, ⟨0, 0⟩⟩ : DeadRead).size := by decide
        rintro (hcall | hpoint | ⟨hpoint, hrunning⟩)
        · obtain ⟨t, next, hdone⟩ := (hreturns _ hread).mpr hcall
          exact ⟨_, _, .main hdone⟩
        · exact ⟨⟨0, ⟨0, 0⟩⟩, _, .shutdown hpoint⟩
        · exact ⟨⟨0, ⟨0, 0⟩⟩, _, .join hpoint hrunning⟩ }

/-- `main` behind `open`. -/
def serverOpened : Process :=
  { Process.start.withStack (withTable (openTable .init 0)) with point := .bind serverSocket }

/-- And behind `bind`. -/
def serverBound : Process :=
  { Process.start.withStack (withTable exampleBound) with point := .test serverSocket }

/-- The beginning of every run of `main`. -/
def serverTrace : List ProcessRecord :=
  [⟨Process.start, .main ⟨0, ⟨0, 0⟩⟩, serverOpened⟩,
    ⟨serverOpened, .main ⟨0, ⟨0, 0⟩⟩, serverBound⟩]

set_option maxRecDepth 10000 in
theorem serverTrace_run :
    Process.Run (mainHost exampleAddress) Process.start serverTrace serverBound :=
  (Runs.Run.nil.snoc (.main rfl)).snoc (.main rfl)

/-- `main` in front of a receive that finds nothing. -/
def serverWaiting : Process := { serverBound with point := .recvFrom serverSocket }

/-- It waits, and `main` has no step. -/
theorem echoRun_calls_waiting :
    (∀ dead, -1 ≤ dead.size → (serverWaiting.point.next (mainHost exampleAddress).config
      serverWaiting.terminate dead).run serverWaiting.stack = .hangs) ∧
    ¬ ∃ dead q, Process.Step (mainHost exampleAddress) serverWaiting (.main dead) q := by
  have htested : Process.Step (mainHost exampleAddress) serverBound (.main ⟨0, ⟨0, 0⟩⟩)
      serverWaiting := .main rfl
  have hforeseen := echoRun_calls exampleAddress (serverTrace_run.snoc htested)
  have hwaits : serverWaiting.point.Waits serverWaiting.table :=
    ⟨⟨0, .OPEN, [], serverEndpoint, 0⟩, rfl, by decide, rfl⟩
  refine ⟨fun dead hread => (hforeseen.waits dead hread rfl).mpr hwaits, fun hstep => ?_⟩
  rcases hforeseen.moves.mp hstep with hcall | hpoint | ⟨hpoint, -⟩
  · exact hwaits.not_canCall hcall
  · cases hpoint
  · cases hpoint

end Suika
