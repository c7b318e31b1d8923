import Suika.Interrupt

/-!
# From the device to the protocol handlers

The same queues as in `Interrupt`, together with the signal that links their two ends. The handler
of the device pushes the body of a frame and raises `SIGUSR1` on the thread it runs on;
`handleProtocolSignal` takes everything out again when the thread gets to that signal. A signal that
is pending is not counted: raised twice, it is delivered once. That is enough, since one delivery
empties all queues.

`dispatch_exactlyOnce`: over every run, what the handlers of a type were given, followed by what
waits in its queue, is what was read for that type, in order.
-/

namespace Suika

open Cpp BinaryPayload

/-! ## The signal and the record of calls -/

/-- The state of the program, whether a `SIGUSR1` is pending for the interrupt thread, and a record
of what the protocol handlers were called with. -/
structure Dispatcher : Type where
  machine : Machine
  pending : Bool
  handled : List (UInt16 × ProtocolData)

namespace Dispatcher

/-- The state the program starts in. -/
def init : Dispatcher := ⟨Machine.init, false, []⟩

/-- `pthread_kill(pthread, SIGUSR1)` -/
def pthreadKill : Comp Err Dispatcher Unit :=
  ⟨fun d => .done { d with pending := true } ()⟩

/-- `EtherDevice::handler`, with the signal it raises. -/
def handler (frame : Bytes) : Comp Err Dispatcher ℤ := do
  let frame := frame.take 1514
  let d ← Comp.get
  let type ← EtherFrame.etherType frame
  if type ∈ d.machine.protocolQueues.map Prod.fst then
    let protocolData : ProtocolData := ⟨type, ← EtherFrame.body frame⟩
    Comp.set { d with
      machine := { d.machine with protocolQueues := d.machine.protocolQueues.push protocolData } }
    EtherFrame.info frame
    pthreadKill
    return 0
  else return 0

/-- `Interrupt::handleProtocolSignal`, with a record of the calls it makes. -/
def handleProtocolSignal (cfg : Config) : Comp Err Dispatcher Unit :=
  ⟨fun d => (drainAll (logged (protocolHandlers cfg)) d.machine.protocolQueues
      (d.machine.stack, d.handled)).mapState
    fun (queues, s, handled) => { d with machine := ⟨queues, s⟩, handled }⟩

/-- One event. `sigwait` returns a `SIGUSR1` only when one is pending, and takes it away. -/
def Step (cfg : Config) (d : Dispatcher) (ev : MachineEvent) (e : Dispatcher) : Prop :=
  match ev with
  | .signal (.irq frame) => ∃ v, (handler frame).run d = .done e v
  | .signal .SIGUSR1 =>
    d.pending = true ∧ (handleProtocolSignal cfg).run { d with pending := false } = .done e ()
  | ev => ∃ m, MachineEvent.Step cfg d.machine ev m ∧ e = { d with machine := m }

/-- Runs of the program, with their trace. -/
abbrev Run (cfg : Config) := Runs.Run (Step cfg)

end Dispatcher

/-! ## Frames -/

/-- The ether type of the frame that was read. -/
def frameType (frame : Bytes) : UInt16 := u16 (frame.take 1514) 12

/-- What it carries. -/
def frameBody (frame : Bytes) : Bytes := (frame.take 1514).drop 14

namespace EtherFrame

variable {data : Bytes}

theorem etherType_eq (h : 14 ≤ data.length) : etherType data = .ok (u16 data 12) :=
  readUint16_eq (by omega)

theorem info_eq (h : 14 ≤ data.length) : info data = .ok () := by
  have hread : ∀ offset, offset + 6 ≤ 14 → ∃ addr, readEtherAddr data offset = .ok addr := by
    intro offset ho
    rw [readEtherAddr, byteAt_eq (by omega), byteAt_eq (by omega), byteAt_eq (by omega),
      byteAt_eq (by omega), byteAt_eq (by omega), byteAt_eq (by omega)]
    exact ⟨_, rfl⟩
  obtain ⟨src, hsrc⟩ := hread 6 (by decide)
  obtain ⟨dst, hdst⟩ := hread 0 (by decide)
  rw [info, srcAddr, hsrc, Eval.ok_bind, dstAddr, hdst, Eval.ok_bind, etherType_eq h]
  rfl

end EtherFrame

namespace Dispatcher

variable {cfg : Config} {d e : Dispatcher} {frame : Bytes} {ev : MachineEvent}

/-- **What the device handler does** with every frame that has a header. -/
theorem handler_run (h14 : 14 ≤ frame.length) (d : Dispatcher) :
    (handler frame).run d =
      if frameType frame ∈ d.machine.protocolQueues.map Prod.fst then
        .done { d with
          machine := { d.machine with
            protocolQueues :=
              d.machine.protocolQueues.push ⟨frameType frame, frameBody frame⟩ }
          pending := true } 0
      else .done d 0 := by
  have hlen : 14 ≤ (frame.take 1514).length := by
    rw [List.length_take]
    omega
  have hfit : (frame.take 1514).length < 2147483648 := by
    rw [List.length_take]
    omega
  have hread : u16 (frame.take 1514) 12 = frameType frame := rfl
  rw [handler]
  dsimp only
  rw [Comp.run_get_bind, EtherFrame.etherType_eq hlen, Comp.lift_ok_bind, hread]
  by_cases htype : frameType frame ∈ d.machine.protocolQueues.map Prod.fst
  · rw [if_pos htype, if_pos htype, EtherFrame.body_eq hlen hfit, Comp.lift_ok_bind,
      Comp.run_set_bind, EtherFrame.info_eq hlen, Comp.lift_ok_bind]
    rfl
  · rw [if_neg htype, if_neg htype]
    rfl

/-- A frame without a header leaves defined behaviour. -/
theorem handler_short (h : frame.length < 14) (d : Dispatcher) :
    (handler frame).run d = .undef := by
  have hlen : (frame.take 1514).length < 14 := by
    rw [List.length_take]
    omega
  rw [handler]
  dsimp only
  rw [Comp.run_get_bind, EtherFrame.etherType, readUint16_undefined (by omega)]
  rfl

/-- **What the drain does**: the queues are empty, and their items were handled in order. -/
theorem handleProtocolSignal_eq_done :
    (handleProtocolSignal cfg).run d = .done e () ↔
      ∃ s, drainAll (protocolHandlers cfg) d.machine.protocolQueues d.machine.stack =
          .done (d.machine.protocolQueues.map fun p => (p.1, []), s) () ∧
        e = { d with
          machine := ⟨d.machine.protocolQueues.map fun p => (p.1, []), s⟩
          handled := d.handled ++
            d.machine.protocolQueues.flatMap fun p => p.2.map fun x => (p.1, x) } := by
  rw [handleProtocolSignal, Outcome.mapState_eq_done]
  refine ⟨?_, ?_⟩
  · rintro ⟨⟨queues, s, handled⟩, hdrain, rfl⟩
    obtain ⟨hdone, rfl⟩ := drainAll_logged.mp hdrain
    obtain rfl := drainAll_eq_done hdone
    exact ⟨s, hdone, rfl⟩
  · rintro ⟨s, hdrain, rfl⟩
    exact ⟨_, drainAll_logged.mpr ⟨hdrain, rfl⟩, rfl⟩

/-! ## What an event does -/

/-- **All an event can do** to the queues, the signal and the record. -/
inductive Effect (d : Dispatcher) : MachineEvent → Dispatcher → Prop where
  | queued {frame : Bytes} : frameType frame ∈ d.machine.protocolQueues.map Prod.fst →
      Effect d (.signal (.irq frame)) { d with
        machine := { d.machine with
          protocolQueues := d.machine.protocolQueues.push ⟨frameType frame, frameBody frame⟩ }
        pending := true }
  | dropped {frame : Bytes} : frameType frame ∉ d.machine.protocolQueues.map Prod.fst →
      Effect d (.signal (.irq frame)) d
  | drained {s : Stack} : d.pending = true →
      Effect d (.signal .SIGUSR1) {
        machine := ⟨d.machine.protocolQueues.map fun p => (p.1, []), s⟩
        pending := false
        handled := d.handled ++
          d.machine.protocolQueues.flatMap fun p => p.2.map fun x => (p.1, x) }
  | other {ev : MachineEvent} {s : Stack} : (∀ frame, ev ≠ .signal (.irq frame)) →
      ev ≠ .signal .SIGUSR1 → Effect d ev { d with machine := { d.machine with stack := s } }

/-- Neither the application nor the other signals touch the queues. -/
theorem machine_eq_of_other {m n : Machine} (h : MachineEvent.Step cfg m ev n)
    (hirq : ∀ frame, ev ≠ .signal (.irq frame)) (husr : ev ≠ .signal .SIGUSR1) :
    ∃ s, n = { m with stack := s } := by
  cases ev with
  | signal sig =>
    cases sig with
    | SIGHUP =>
      cases h
      exact ⟨m.stack, rfl⟩
    | SIGUSR1 => exact absurd rfl husr
    | SIGUSR2 =>
      cases h
      exact ⟨_, rfl⟩
    | irq frame => exact absurd rfl (hirq frame)
  | call op =>
    have hnext : (((op.exec cfg).run m.stack).mapState fun s => { m with stack := s }).next? =
        some n := h
    rcases hr : (op.exec cfg).run m.stack with ⟨s, v⟩ | ⟨s, err⟩ | _ | _ <;> rw [hr] at hnext <;>
      cases hnext
    · exact ⟨s, rfl⟩
    · exact ⟨s, rfl⟩

/-- **Every step has one of these effects.** -/
theorem Step.effect (h : Step cfg d ev e) : Effect d ev e := by
  by_cases hirq : ∃ frame, ev = .signal (.irq frame)
  · obtain ⟨frame, rfl⟩ := hirq
    obtain ⟨v, hrun⟩ := h
    by_cases h14 : 14 ≤ frame.length
    · rw [handler_run h14] at hrun
      split at hrun
      · rename_i htype
        cases hrun
        exact .queued htype
      · rename_i htype
        cases hrun
        exact .dropped htype
    · rw [handler_short (Nat.lt_of_not_le h14)] at hrun
      cases hrun
  · by_cases husr : ev = .signal .SIGUSR1
    · subst husr
      obtain ⟨hpending, hrun⟩ := h
      obtain ⟨s, -, rfl⟩ := handleProtocolSignal_eq_done.mp hrun
      exact .drained hpending
    · have hother : ∃ m, MachineEvent.Step cfg d.machine ev m ∧ e = { d with machine := m } := by
        rcases ev with (_ | _ | _ | frame) | op
        · exact h
        · exact absurd rfl husr
        · exact h
        · exact absurd ⟨frame, rfl⟩ hirq
        · exact h
      have hno : ∀ frame, ev ≠ .signal (.irq frame) := fun frame heq => hirq ⟨frame, heq⟩
      obtain ⟨m, hm, rfl⟩ := hother
      obtain ⟨s, rfl⟩ := machine_eq_of_other hm hno husr
      exact .other hno husr

/-- Without the signal, the device handler is the one of the machine. -/
theorem handler_machine (frame : Bytes) (d : Dispatcher) :
    ((handler frame).run d).mapState Dispatcher.machine =
      (EtherDevice.handler frame).run d.machine := by
  rw [handler, EtherDevice.handler]
  dsimp only
  rw [Comp.run_get_bind, Comp.run_get_bind]
  rcases EtherFrame.etherType (frame.take 1514) with (_ | err) | type
  · rfl
  · rfl
  rw [Comp.lift_ok_bind, Comp.lift_ok_bind]
  split
  · rcases EtherFrame.body (frame.take 1514) with (_ | err) | body
    · rfl
    · rfl
    rcases EtherFrame.info (frame.take 1514) with (_ | err) | _ <;> rfl
  · rfl

/-- The signal and the record change nothing for the rest: a step of the dispatcher is a step of the
machine. -/
theorem Step.machine (h : Step cfg d ev e) : MachineEvent.Step cfg d.machine ev e.machine := by
  cases ev with
  | signal sig =>
    cases sig with
    | SIGHUP =>
      obtain ⟨m, hm, rfl⟩ := h
      exact hm
    | SIGUSR1 =>
      obtain ⟨s, hdrain, rfl⟩ := handleProtocolSignal_eq_done.mp h.2
      exact Outcome.mapState_eq_done.mpr ⟨_, hdrain, rfl⟩
    | SIGUSR2 =>
      obtain ⟨m, hm, rfl⟩ := h
      exact hm
    | irq frame =>
      obtain ⟨v, hrun⟩ := h
      have hhandler : (EtherDevice.handler frame).run d.machine = .done e.machine v := by
        rw [← handler_machine, hrun]
        rfl
      exact Comp.bind_done hhandler
  | call op =>
    obtain ⟨m, hm, rfl⟩ := h
    exact hm

/-! ## Exactly once, and in order -/

/-- The ether types that have a queue. -/
def registered : List UInt16 := protocolQueueInit.map Prod.fst

theorem mem_registered {type : UInt16} : type ∈ registered ↔ type = ipType ∨ type = arpType := by
  have hlist : registered = [ipType, arpType] := rfl
  rw [hlist, List.mem_cons, List.mem_singleton]

/-- The bodies the handler of a type was given. -/
def handledBodies (d : Dispatcher) (type : UInt16) : List Bytes :=
  (d.handled.filter fun p => p.1 = type).map fun p => p.2.data

/-- The bodies that wait in the queue of a type. -/
def queuedBodies (d : Dispatcher) (type : UInt16) : List Bytes :=
  (d.machine.protocolQueues.filter fun p => p.1 = type).flatMap fun p => p.2.map ProtocolData.data

/-- The body an event reads for a type. -/
def readBodies (type : UInt16) : MachineEvent → List Bytes
  | .signal (.irq frame) => if frameType frame = type then [frameBody frame] else []
  | _ => []

/-- What a drain hands out, seen by one handler. -/
theorem records_filter (queues : ProtocolQueues) (type : UInt16) :
    ((queues.flatMap fun p => p.2.map fun x => (p.1, x)).filter fun p => p.1 = type).map
        (fun p => p.2.data) =
      (queues.filter fun p => p.1 = type).flatMap fun p => p.2.map ProtocolData.data := by
  induction queues with
  | nil => rfl
  | cons p queues ih =>
    rw [List.flatMap_cons, List.filter_append, List.map_append, ih, List.filter_map,
      List.filter_cons]
    by_cases hp : p.1 = type
    · simp [Function.comp_def, hp]
    · simp [Function.comp_def, hp]

/-- Pushing a body puts it behind those of its type. -/
theorem queuedBodies_push {m : Machine} (hinv : MachineInvariant m) {type : UInt16}
    (htype : type ∈ registered) (x : ProtocolData) (pending : Bool)
    (handled : List (UInt16 × ProtocolData)) :
    queuedBodies ⟨{ m with protocolQueues := m.protocolQueues.push x }, pending, handled⟩ type =
      queuedBodies ⟨m, pending, handled⟩ type ++ if x.type = type then [x.data] else [] := by
  obtain ⟨ip, arp, hqueues⟩ := hinv.exists_queues
  have hne : ipType ≠ arpType := by decide
  simp only [queuedBodies, hqueues, ProtocolQueues.push, List.map_cons, List.map_nil]
  rcases mem_registered.mp htype with rfl | rfl
  · by_cases hx : x.type = ipType
    · simp [hx, hne.symm]
    · simp [hx, Ne.symm hx, hne.symm]
  · by_cases hx : x.type = arpType
    · simp [hx, hne]
    · simp [hx, Ne.symm hx, hne]

/-- **The balance of one event**: what it reads for a type is added behind what was handled of that
type and what waits. -/
theorem Effect.balance (h : Effect d ev e) (hinv : MachineInvariant d.machine) {type : UInt16}
    (htype : type ∈ registered) :
    e.handledBodies type ++ e.queuedBodies type =
      d.handledBodies type ++ d.queuedBodies type ++ readBodies type ev := by
  cases h with
  | @queued frame hframe =>
    rw [queuedBodies_push hinv htype ⟨frameType frame, frameBody frame⟩ true d.handled,
      ← List.append_assoc]
    rfl
  | @dropped frame hframe =>
    have hne : frameType frame ≠ type := by
      rintro rfl
      rw [hinv.keys] at hframe
      exact hframe htype
    rw [readBodies, if_neg hne, List.append_nil]
  | drained hpending =>
    have hempty : ((d.machine.protocolQueues.map fun p => (p.1, ([] : List ProtocolData))).filter
        fun p => p.1 = type).flatMap (fun p => p.2.map ProtocolData.data) = [] := by
      rw [List.filter_map, List.flatMap_map]
      exact List.flatMap_eq_nil_iff.mpr fun _ _ => rfl
    have hnothing : readBodies type (.signal .SIGUSR1) = [] := rfl
    rw [queuedBodies, handledBodies, hempty, List.filter_append, List.map_append, records_filter,
      hnothing, List.append_nil, List.append_nil]
    rfl
  | other hirq husr =>
    have hnothing : readBodies type ev = [] := by
      rcases ev with (_ | _ | _ | frame) | op
      · rfl
      · rfl
      · rfl
      · exact absurd rfl (hirq frame)
      · rfl
    rw [hnothing, List.append_nil]
    rfl

/-- A frame of any other type changes nothing. -/
theorem Effect.unregistered (h : Effect d (.signal (.irq frame)) e)
    (hinv : MachineInvariant d.machine) (hframe : frameType frame ∉ registered) : e = d := by
  cases h with
  | queued hkey =>
    rw [hinv.keys] at hkey
    exact absurd hkey hframe
  | dropped => rfl
  | other hirq _ => exact absurd rfl (hirq frame)

/-- A delivery of the signal leaves nothing waiting. -/
theorem Effect.queues_empty (h : Effect d (.signal .SIGUSR1) e) :
    ∀ p ∈ e.machine.protocolQueues, p.2 = [] := by
  intro p hp
  cases h with
  | drained =>
    obtain ⟨q, -, rfl⟩ := List.mem_map.mp hp
    rfl
  | other _ husr => exact absurd rfl husr

/-- What holds between any two events. -/
structure Invariant (d : Dispatcher) : Prop where
  machine : MachineInvariant d.machine
  typed : ∀ p ∈ d.machine.protocolQueues, ∀ x ∈ p.2, x.type = p.1
  handled : ∀ p ∈ d.handled, p.1 ∈ registered ∧ p.2.type = p.1
  pending : ∀ p ∈ d.machine.protocolQueues, p.2 ≠ [] → d.pending = true

/-- **One event keeps it.** -/
theorem Step.invariant (h : Step cfg d ev e) (hinv : Invariant d) : Invariant e := by
  have hmachine := h.machine.invariant hinv.machine
  have heffect := h.effect
  cases heffect with
  | queued hframe =>
    refine ⟨hmachine, ?_, hinv.handled, fun _ _ _ => rfl⟩
    intro p hp x hx
    obtain ⟨q, hq, rfl⟩ := List.mem_map.mp hp
    dsimp only at hx ⊢
    split at hx
    · rename_i hkey
      rcases List.mem_append.mp hx with hx | hx
      · exact hinv.typed q hq x hx
      · obtain rfl := List.mem_singleton.mp hx
        exact hkey.symm
    · exact hinv.typed q hq x hx
  | dropped hframe => exact hinv
  | drained hpending =>
    refine ⟨hmachine, ?_, ?_, ?_⟩
    · intro p hp x hx
      obtain ⟨q, -, rfl⟩ := List.mem_map.mp hp
      exact absurd hx List.not_mem_nil
    · intro p hp
      rcases List.mem_append.mp hp with hp | hp
      · exact hinv.handled p hp
      · obtain ⟨q, hq, hp⟩ := List.mem_flatMap.mp hp
        obtain ⟨x, hx, rfl⟩ := List.mem_map.mp hp
        refine ⟨?_, hinv.typed q hq x hx⟩
        have hkey : q.1 ∈ d.machine.protocolQueues.map Prod.fst := List.mem_map_of_mem hq
        rw [hinv.machine.keys] at hkey
        exact hkey
    · intro p hp hne
      obtain ⟨q, -, rfl⟩ := List.mem_map.mp hp
      exact absurd rfl hne
  | other hirq husr => exact ⟨hmachine, hinv.typed, hinv.handled, hinv.pending⟩

theorem invariant_init : Invariant init := by
  have hempty : ∀ p ∈ protocolQueueInit, p.2 = [] := by decide
  refine ⟨⟨rfl, fun _ hc => absurd hc List.not_mem_nil⟩, ?_, ?_, ?_⟩
  · intro p hp x hx
    rw [hempty p hp] at hx
    exact absurd hx List.not_mem_nil
  · exact fun _ hp => absurd hp List.not_mem_nil
  · exact fun p hp hne => absurd (hempty p hp) hne

theorem invariant_of_run {tr : List (Runs.Record Dispatcher MachineEvent)}
    (hrun : Run cfg init tr d) : Invariant d :=
  hrun.invariant (fun hinv h => Step.invariant h hinv) invariant_init

/-- **The balance of a run**: what was handled of a type, followed by what waits, is what was
read. -/
theorem balance_of_run {tr : List (Runs.Record Dispatcher MachineEvent)} (hrun : Run cfg init tr d)
    {type : UInt16} (htype : type ∈ registered) :
    d.handledBodies type ++ d.queuedBodies type = tr.flatMap fun r => readBodies type r.label := by
  -- by induction on the run: the balance of its last event extends the balance so far
  induction hrun with
  | nil => rcases mem_registered.mp htype with rfl | rfl <;> rfl
  | snoc hrun hstep ih =>
    rw [List.flatMap_append, List.flatMap_singleton, ← ih]
    exact hstep.effect.balance (invariant_of_run hrun).machine htype

end Dispatcher

/-- Every frame of a registered type is handled exactly once and in order, and none is stranded. -/
structure DispatchedOnce (cfg : Config) (tr : List (Runs.Record Dispatcher MachineEvent))
    (d : Dispatcher) : Prop where
  /-- what was handled, followed by what waits, is what was read -/
  conserved : ∀ type ∈ Dispatcher.registered,
    d.handledBodies type ++ d.queuedBodies type =
      tr.flatMap fun r => Dispatcher.readBodies type r.label
  /-- a frame of any other type changes nothing -/
  unregistered : ∀ r ∈ tr, ∀ frame, r.label = .signal (.irq frame) →
    frameType frame ∉ Dispatcher.registered → r.post = r.pre
  /-- a handler is called with items of its own type -/
  handled : ∀ p ∈ d.handled, p.1 ∈ Dispatcher.registered ∧ p.2.type = p.1
  /-- whatever waits will be fetched -/
  pending : ∀ p ∈ d.machine.protocolQueues, p.2 ≠ [] → d.pending = true
  /-- and then nothing waits -/
  drained : ∀ r ∈ tr, r.label = .signal .SIGUSR1 → ∀ p ∈ r.post.machine.protocolQueues, p.2 = []
  /-- no frame with a header stops the device -/
  reads : ∀ frame, 14 ≤ frame.length → ∃ e, Dispatcher.Step cfg d (.signal (.irq frame)) e

/-- **Exactly once, and in order**, over every run: frames and deliveries of the signal in any
order, with handlers that return, and whatever else happens in between. -/
theorem dispatch_exactlyOnce (cfg : Config) {tr : List (Runs.Record Dispatcher MachineEvent)}
    {d : Dispatcher} (hrun : Dispatcher.Run cfg Dispatcher.init tr d) :
    DispatchedOnce cfg tr d := by
  have hinv := Dispatcher.invariant_of_run hrun
  refine ⟨fun type htype => Dispatcher.balance_of_run hrun htype, ?_, hinv.handled, hinv.pending,
    ?_, ?_⟩
  · rintro ⟨pre, label, post⟩ hr frame rfl hframe
    obtain ⟨hstep, before, after, -, hbefore⟩ := hrun.record _ hr
    exact hstep.effect.unregistered (Dispatcher.invariant_of_run hbefore).machine hframe
  · rintro ⟨pre, label, post⟩ hr rfl
    exact (hrun.record _ hr).1.effect.queues_empty
  · intro frame h14
    by_cases hkey : frameType frame ∈ d.machine.protocolQueues.map Prod.fst
    · exact ⟨_, 0, by rw [Dispatcher.handler_run h14, if_pos hkey]⟩
    · exact ⟨_, 0, by rw [Dispatcher.handler_run h14, if_neg hkey]⟩

/-- A request for this host is read, and handled at the next signal. -/
theorem dispatch_exactlyOnce_request :
    ∃ tr d, tr.length = 2 ∧
      d.handledBodies arpType = [ownRequest.encode ++ List.replicate 18 0] ∧
      DispatchedOnce exampleConfig tr d := by
  have hread : Dispatcher.Step exampleConfig Dispatcher.init
      (.signal (.irq (requestFrame ownRequest))) ⟨requestQueued ownRequest, true, []⟩ := ⟨0, rfl⟩
  have hdrain : ∃ s, Dispatcher.Step exampleConfig ⟨requestQueued ownRequest, true, []⟩
      (.signal .SIGUSR1) ⟨⟨[(ipType, []), (arpType, [])], s⟩, false,
        [(arpType, ⟨arpType, ownRequest.encode ++ List.replicate 18 0⟩)]⟩ := ⟨_, rfl, rfl⟩
  obtain ⟨s, hdrain⟩ := hdrain
  exact ⟨_, _, rfl, rfl, dispatch_exactlyOnce exampleConfig ((Runs.Run.nil.snoc hread).snoc hdrain)⟩

end Suika
