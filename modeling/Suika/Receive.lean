import Suika.Sent
import Suika.UdpChannel

/-!
# The receive path, and the program as a run of socket operations

A delivery of `SIGUSR1` hands every waiting body to its handler. Seen from the control blocks, all
that matters of it are the UDP segments, in the order in which they wait: each one goes to the
queue of the block `select` finds, and nothing else about any block changes
(`handleProtocolSignal_receives`).

So for the table of control blocks the whole program is a run of socket operations: those the
application calls, `handle` for each segment that arrives, and `interruptAll`
(`machineRun_refines`). Neither the ARP cache nor the output can be told from the table.
-/

namespace Suika

open Cpp BinaryPayload UdpPcbManager

/-! ## Queues and the rest -/

/-- The tables differ in the queues of their blocks at most. -/
def OnlyQueues (m m' : UdpPcbManager) : Prop :=
  ∀ i, (m'.block? i).map (fun b => { b with que := [] }) =
    (m.block? i).map fun b => { b with que := [] }

namespace OnlyQueues

variable {m m' m'' : UdpPcbManager}

theorem refl (m : UdpPcbManager) : OnlyQueues m m := fun _ => rfl

theorem trans (h : OnlyQueues m m') (h' : OnlyQueues m' m'') : OnlyQueues m m'' :=
  fun i => (h' i).trans (h i)

/-- A block is the one it was, but for its queue. -/
theorem block? (h : OnlyQueues m m') {i : ℕ} {b : UdpControlBlock} (hb : m.block? i = some b) :
    ∃ que, m'.block? i = some { b with que := que } := by
  have hi := h i
  rw [hb, Option.map_some] at hi
  obtain ⟨c, hc, heq⟩ := Option.map_eq_some_iff.mp hi
  refine ⟨c.que, ?_⟩
  obtain ⟨id, state, que, endpoint, interrupted⟩ := c
  cases heq
  exact hc

theorem modify (i : ℕ) {f : UdpControlBlock → UdpControlBlock}
    (hf : ∀ b, { f b with que := [] } = { b with que := [] }) :
    OnlyQueues m (m.modify i f) := by
  intro j
  by_cases hj : i = j
  · subst hj
    rw [block?_modify_self, Option.map_map]
    congr 1
    exact funext hf
  · rw [block?_modify_ne f hj]

/-- States and endpoints are the same. -/
theorem sameEndpoints (h : OnlyQueues m m') : SameEndpoints m m' := by
  intro i
  cases hb : m.block? i with
  | some b =>
    obtain ⟨que, hc⟩ := h.block? hb
    rw [hc]
    rfl
  | none =>
    have hi := h i
    rw [hb] at hi
    rw [Option.map_eq_none_iff.mp hi]

/-- And `select` finds the same. -/
theorem select (h : OnlyQueues m m') (a : UInt32) (p : UInt16) : m'.select a p = m.select a p :=
  select_congr h.sameEndpoints

end OnlyQueues

/-! ## What a delivery of the signal puts on the queues -/

/-- The segment in the body of a packet, as the IPv4 handler passes it on. -/
def Ipv4Data.segment (host : Host) (body : Bytes) : Ipv4ProtocolData :=
  ⟨u8 body 9, payloadBytes body, u32 body 12, u32 body 16, ⟨interfaceFamilyIp, host.unicast⟩⟩

/-- The datagram a packet puts on the queue of block `i`: that of a UDP segment which `select` gives
to this block. -/
def deliveredTo (m : UdpPcbManager) (i : ℕ) (body : Bytes) : Option UdpPcbPayload :=
  if u8 body 9 = udpType ∧
      m.select (u32 body 16) (u16 (Ipv4Data.payloadBytes body) 2) = some i then
    some ⟨UdpData.payloadBytes (Ipv4Data.payloadBytes body),
      ⟨u32 body 12, u16 (Ipv4Data.payloadBytes body) 0⟩⟩
  else none

/-- Between the two states these packets arrived, and nothing else happened to the table. -/
structure Receives (s t : Stack) (packets : List Bytes) : Prop where
  blocks : OnlyQueues s.udpPcbMgr t.udpPcbMgr
  que : ∀ i, que t i = que s i ++ packets.filterMap (deliveredTo s.udpPcbMgr i)

namespace Receives

variable {s t u : Stack} {packets : List Bytes} {body : Bytes}

theorem refl (s : Stack) : Receives s s [] := ⟨OnlyQueues.refl _, fun _ => (List.append_nil _).symm⟩

/-- The output and the ARP cache are not part of it. -/
theorem of_table (h : Receives s t packets) (hu : u.udpPcbMgr = t.udpPcbMgr) :
    Receives s u packets where
  blocks := by
    rw [hu]
    exact h.blocks
  que i := by
    rw [← h.que i, Suika.que, Suika.que, hu]

/-- A packet that is for no block. -/
theorem ignore (h : Receives s t packets)
    (hbody : u8 body 9 ≠ udpType ∨
      t.udpPcbMgr.select (u32 body 16) (u16 (Ipv4Data.payloadBytes body) 2) = none) :
    Receives s t (packets ++ [body]) where
  blocks := h.blocks
  que i := by
    have hnone : deliveredTo s.udpPcbMgr i body = none := by
      rw [h.blocks.select] at hbody
      refine if_neg fun hboth => ?_
      rcases hbody with hbody | hbody
      · exact hbody hboth.1
      · rw [hbody] at hboth
        cases hboth.2
    have hlast : [body].filterMap (deliveredTo s.udpPcbMgr i) = [] := by
      rw [List.filterMap_cons, hnone, List.filterMap_nil]
    rw [h.que i, List.filterMap_append, hlast, List.append_nil]

/-- A segment for block `k`. -/
theorem deliver (h : Receives s t packets) (host : Host) {k : ℕ} (hudp : u8 body 9 = udpType)
    (hsel : t.udpPcbMgr.select (u32 body 16) (u16 (Ipv4Data.payloadBytes body) 2) = some k) :
    Receives s (UdpHandler.deliver t k (UdpHandler.datagram (Ipv4Data.segment host body)))
      (packets ++ [body]) where
  blocks := h.blocks.trans (OnlyQueues.modify _ fun _ => rfl)
  que i := by
    obtain ⟨⟨b, hb, -⟩, -⟩ := select_eq_some.mp hsel
    rw [h.blocks.select] at hsel
    rw [List.filterMap_append, ← List.append_assoc, ← h.que i, List.filterMap_cons,
      List.filterMap_nil, deliveredTo]
    by_cases hi : k = i
    · subst hi
      rw [if_pos ⟨hudp, hsel⟩, que_eq hb,
        que_modify_self (t := UdpHandler.deliver t k _) rfl hb]
      rfl
    · have hne : ¬ (u8 body 9 = udpType ∧ s.udpPcbMgr.select (u32 body 16)
          (u16 (Ipv4Data.payloadBytes body) 2) = some i) := by
        rintro ⟨-, hi'⟩
        exact hi (Option.some.inj (hsel.symm.trans hi'))
      rw [if_neg hne, List.append_nil]
      exact que_modify_ne rfl hi

end Receives

/-- The bodies that wait for the handler of IPv4. -/
def Machine.packets (m : Machine) : List Bytes :=
  (m.protocolQueues.filter fun p => p.1 = ipType).flatMap fun p => p.2.map ProtocolData.data

/-- What is read off the packets among all items is read off the waiting packets. -/
theorem flatMap_packets {α : Type} (queues : ProtocolQueues) (f : Bytes → List α) :
    (queues.flatMap fun p => p.2.flatMap fun d => if p.1 = ipType then f d.data else []) =
      ((queues.filter fun p => p.1 = ipType).flatMap fun p =>
        p.2.map ProtocolData.data).flatMap f := by
  induction queues with
  | nil => rfl
  | cons p queues ih =>
    rw [List.flatMap_cons, ih]
    by_cases hp : p.1 = ipType
    · simp [List.flatMap_map, hp]
    · simp [hp]

section

variable {host : Host} {s : Stack}

theorem ipv4_receives (pd : ProtocolData) :
    (Ipv4ProtocolHandler.handle host.config (ipProtocolInit host.config) pd).Adds (Receives s)
      [pd.data] := by
  intro t u v log ht h
  obtain ⟨-, hend⟩ := Ipv4ProtocolHandler.handle_eq_done h
  cases hhandler : ipProtocolInit host.config (u8 pd.data 9) with
  | none =>
    rw [hhandler] at hend
    obtain rfl : u = t := hend
    refine ht.ignore (Or.inl fun hudp => ?_)
    rw [hudp] at hhandler
    cases hhandler
  | some handler =>
    rw [hhandler] at hend
    obtain ⟨w, hw⟩ := hend
    obtain ⟨hicmp, rfl⟩ | ⟨hudp, rfl⟩ := ipProtocolInit_cases hhandler
    · -- an answer leaves the table alone
      have htable : u.udpPcbMgr = t.udpPcbMgr :=
        (IcmpHandler.handle_keeps (Q := fun u => u.udpPcbMgr = t.udpPcbMgr) (fun _ _ _ hu => hu)
          host.config _).of_done rfl hw
      have hne : icmpType ≠ udpType := by decide
      exact (ht.ignore (Or.inl (hicmp ▸ hne))).of_table htable
    · obtain ⟨-, rfl, hsel⟩ | ⟨k, -, hsel, rfl⟩ := UdpHandler.handle_eq_done hw
      · exact ht.ignore (Or.inr hsel)
      · exact ht.deliver host hudp hsel

theorem protocolHandlers_receives (type : UInt16) (pd : ProtocolData) :
    (protocolHandlers host.config type pd).Adds (Receives s)
      (if type = ipType then [pd.data] else []) := by
  have hne : arpType ≠ ipType := by decide
  by_cases harp : type = arpType
  · rw [protocolHandlers, if_pos harp, if_neg (harp ▸ hne)]
    intro t u v log ht h
    obtain ⟨p, pad, -, rfl⟩ := ArpProtocolHandler.done_packet h
    rw [List.append_nil]
    exact ht.of_table rfl
  by_cases hip : type = ipType
  · rw [protocolHandlers, if_neg harp, if_pos hip, if_pos hip]
    exact ipv4_receives pd
  · rw [protocolHandlers, if_neg harp, if_neg hip, if_neg hip]
    intro t u v log ht h
    cases h

end

/-- **What a delivery of the signal does to the control blocks.** -/
theorem handleProtocolSignal_receives {host : Host} {m n : Machine}
    (h : (handleProtocolSignal host.config).run m = .done n ()) :
    Receives m.stack n.stack m.packets := by
  obtain ⟨⟨queues, s⟩, hdrain, rfl⟩ := Outcome.mapState_eq_done.mp h
  have hadds := drainAll_adds (fun type d => if type = ipType then [d.data] else [])
    (fun p _ d _ => protocolHandlers_receives p.1 d) (Receives.refl m.stack) hdrain
  rw [List.nil_append, flatMap_packets m.protocolQueues fun body => [body],
    List.flatMap_singleton'] at hadds
  exact hadds

/-! ## The program as a run of socket operations -/

/-- The operations the application calls. The other two belong to the interrupt thread. -/
def UdpOp.FromApplication : UdpOp → Prop
  | .handle _ => False
  | .interruptAll => False
  | _ => True

/-- An event is from outside, or a call of the application. -/
def MachineEvent.Proper (ev : MachineEvent) : Prop := ∀ op, ev = .call op → op.FromApplication

/-- What a packet means for the table. -/
def handleOps (host : Host) (body : Bytes) : List UdpOp :=
  if u8 body 9 = udpType then [.handle (Ipv4Data.segment host body)] else []

/-- What a step of the program means for the table. -/
def tableOps (host : Host) (r : Runs.Record Machine MachineEvent) : List UdpOp :=
  match r.label with
  | .call op => [op]
  | .signal .SIGUSR1 => r.pre.packets.flatMap (handleOps host)
  | .signal .SIGUSR2 => [.interruptAll]
  | .signal .SIGHUP => []
  | .signal (.irq _) => []

/-- The operation of a step of sockets. -/
def udpOpOf (r : UdpRecord) : UdpOp := r.label.op

section

variable {host : Host} {s t u : Stack}

/-- A call that ends is a step. -/
theorem UdpEvent.exists_step {cfg : Config} {op : UdpOp}
    (h : ((op.exec cfg).run s).next? = some t) :
    ∃ ret, UdpEvent.Step cfg s ⟨op, ret⟩ t := by
  rcases hr : (op.exec cfg).run s with ⟨u, v⟩ | ⟨u, e⟩ | _ | _ <;> rw [hr] at h <;> cases h
  · exact ⟨.ok v, hr⟩
  · exact ⟨.error e, hr⟩

/-- Whether `udp_output` leaves defined behaviour does not depend on the state, and what it does to
the table is nothing. -/
theorem udpOutput_congr {src dest : IpEndpoint} {d : Bytes} (ht : EtherCache t)
    (hsrc : src.addr = ipAddrAny → src.addr = host.unicast)
    (h : ((udpOutput host.config src dest d).run s).next? = some u) :
    u.udpPcbMgr = s.udpPcbMgr ∧
      ∃ v, ((udpOutput host.config src dest d).run t).next? = some v ∧
        v.udpPcbMgr = t.udpPcbMgr := by
  have hkeeps : ∀ m, (udpOutput host.config src dest d).Keeps fun s => s.udpPcbMgr = m :=
    fun m => udpOutput_keeps (fun _ _ _ h => h) host.config src dest d
  refine ⟨hkeeps _ s u rfl h, ?_⟩
  have hnext : ∃ v, ((udpOutput host.config src dest d).run t).next? = some v := by
    rcases udpOutput_cases host src dest d ht hsrc with
      ⟨-, hu⟩ | ⟨-, what, hw⟩ | ⟨-, -, -, ⟨-, hmiss⟩ | ⟨-, hhit⟩⟩
    · -- then it left defined behaviour in the first state too
      have hundef : (udpOutput host.config src dest d).run s = .undef := by
        rcases hseg : udpOutput.segment src dest d with (_ | e) | segment
        · rw [udpOutput, hseg]
          rfl
        · rw [udpOutput, hseg] at hu
          cases hu
        obtain ⟨-, -, rfl⟩ := udpOutput.segment_eq_ok hseg
        have hlen := udpOutput.length_segmentBytes src dest d
        have h8 : 8 ≤ (udpOutput.segmentBytes src dest d).length := by omega
        obtain ⟨text, htext⟩ := UdpData.exists_info h8
        rw [udpOutput, hseg, Comp.lift_ok_bind, htext, Comp.lift_ok_bind] at hu ⊢
        exact ipv4Output_undef_congr ht hsrc hu
      rw [hundef] at h
      cases h
    · exact ⟨_, by rw [hw]; rfl⟩
    · exact ⟨_, by rw [hmiss]; rfl⟩
    · exact ⟨_, by rw [hhit]; rfl⟩
  obtain ⟨v, hv⟩ := hnext
  exact ⟨v, hv, hkeeps _ t v rfl hv⟩

/-- **The table decides.** An operation of the application that ends in one state ends in every
state with the same table, and leaves the same table behind. -/
theorem UdpOp.exec_congr {op : UdpOp} (hop : op.FromApplication) (ht : EtherCache t)
    (htable : t.udpPcbMgr = s.udpPcbMgr)
    (h : ((op.exec host.config).run s).next? = some u) :
    ∃ v, ((op.exec host.config).run t).next? = some v ∧ v.udpPcbMgr = u.udpPcbMgr := by
  cases op with
  | «open» =>
    rw [UdpOp.exec, Comp.next?_bind_pure, UdpSocket.open_run] at h ⊢
    rw [htable]
    cases halloc : s.udpPcbMgr.alloc with
    | none =>
      rw [halloc] at h
      cases h
      exact ⟨t, rfl, htable⟩
    | some mi =>
      rw [halloc] at h
      cases h
      exact ⟨_, rfl, rfl⟩
  | bind sock ipv4str port =>
    rw [UdpOp.exec, Comp.next?_bind_pure] at h ⊢
    rcases ha : ipv4strToUint32 ipv4str with (_ | e) | a
    · rw [UdpSocket.bind, ha] at h
      cases h
    · rw [UdpSocket.bind, ha] at h ⊢
      cases h
      exact ⟨t, rfl, htable⟩
    · rw [UdpSocket.bind_run ha] at h ⊢
      rw [htable]
      cases hsel : s.udpPcbMgr.select a port with
      | some i =>
        rw [hsel] at h
        cases h
        exact ⟨t, rfl, htable⟩
      | none =>
        rw [hsel] at h
        cases hb : s.udpPcbMgr.block? sock.block with
        | some b =>
          rw [hb] at h
          cases h
          exact ⟨_, rfl, rfl⟩
        | none =>
          rw [hb] at h
          cases h
          exact ⟨t, rfl, htable⟩
  | sendTo sock payload ipv4str port =>
    rw [UdpOp.exec, Comp.next?_bind_pure] at h ⊢
    rcases sendTo_reduces host s.udpPcbMgr sock payload ipv4str port with
      hu | ⟨e, -, he⟩ | ⟨m, b, a, addr, -, haddr, -, -, -, hrun⟩
    · rw [hu s rfl] at h
      cases h
    · rw [he s rfl] at h
      cases h
      rw [he t htable]
      exact ⟨t, rfl, htable⟩
    · rw [hrun s rfl] at h
      obtain ⟨hu, v, hv, hvt⟩ := udpOutput_congr (s := { s with udpPcbMgr := m })
        (t := { t with udpPcbMgr := m }) ht (localAddr_config haddr) h
      rw [hrun t htable]
      exact ⟨v, hv, hvt.trans hu.symm⟩
  | recvFrom sock buf endpoint dead =>
    rw [UdpOp.exec, Comp.next?_bind_pure] at h ⊢
    cases hb : s.udpPcbMgr.block? sock.block with
    | none =>
      rw [UdpSocket.recvFrom_throws hb] at h
      cases h
      rw [UdpSocket.recvFrom_throws (htable ▸ hb)]
      exact ⟨t, rfl, htable⟩
    | some b =>
      rw [UdpSocket.recvFrom_run hb] at h
      rw [UdpSocket.recvFrom_run (htable ▸ hb), htable]
      by_cases hint : b.interrupted = 1
      · rw [if_pos hint] at h ⊢
        cases h
        exact ⟨t, rfl, htable⟩
      rw [if_neg hint] at h ⊢
      cases hque : b.que with
      | nil =>
        rw [hque] at h
        cases h
      | cons payload rest =>
        rw [hque] at h
        dsimp only at h ⊢
        by_cases hfit : payload.data.length ≤ buf.length
        · rw [if_pos hfit] at h ⊢
          cases h
          exact ⟨_, rfl, rfl⟩
        · rw [if_neg hfit] at h
          cases h
  | handle d => exact hop.elim
  | interruptAll => exact hop.elim

/-- A segment that was handled is a step of sockets, in every state with the same table. -/
theorem UdpHandler.handle_refines {cfg : Config} {d : Ipv4ProtocolData} {s' : Stack} {v : ℤ}
    (htable : t.udpPcbMgr = s.udpPcbMgr) (h : (handle d).run s = .done s' v) :
    ∃ t', UdpEvent.Step cfg t ⟨.handle d, .ok (.handled v)⟩ t' ∧
      t'.udpPcbMgr = s'.udpPcbMgr ∧ t'.arpCache = t.arpCache := by
  obtain ⟨h8, hc⟩ := accepted_of_done h
  have hrun := handle_accepted (s := t) h8 hc
  rw [htable] at hrun
  rw [handle_accepted h8 hc] at h
  cases hsel : s.udpPcbMgr.select d.dst (u16 d.data 2) with
  | none =>
    rw [hsel] at h hrun
    cases h
    exact ⟨t, Comp.bind_done hrun, htable, rfl⟩
  | some i =>
    rw [hsel] at h hrun
    dsimp only at h hrun
    split at h
    · rename_i hfit
      rw [if_pos hfit] at hrun
      cases h
      refine ⟨_, Comp.bind_done hrun, ?_, rfl⟩
      rw [deliver, deliver, htable]
    · cases h

/-- And a packet is, if it carries one. -/
theorem ipv4_refines {pd : ProtocolData} {s' : Stack} {v : ℤ} (htable : t.udpPcbMgr = s.udpPcbMgr)
    (h : (Ipv4ProtocolHandler.handle host.config (ipProtocolInit host.config) pd).run s =
      .done s' v) :
    ∃ tr t', UdpRun host.config t tr t' ∧ t'.udpPcbMgr = s'.udpPcbMgr ∧
      t'.arpCache = t.arpCache ∧ tr.map udpOpOf = handleOps host pd.data := by
  obtain ⟨-, hend⟩ := Ipv4ProtocolHandler.handle_eq_done h
  cases hhandler : ipProtocolInit host.config (u8 pd.data 9) with
  | none =>
    rw [hhandler] at hend
    obtain rfl : s' = s := hend
    have hne : u8 pd.data 9 ≠ udpType := by
      intro hudp
      rw [hudp] at hhandler
      cases hhandler
    refine ⟨[], t, .nil, htable, rfl, ?_⟩
    rw [handleOps, if_neg hne]
    rfl
  | some handler =>
    rw [hhandler] at hend
    obtain ⟨w, hw⟩ := hend
    obtain ⟨hicmp, rfl⟩ | ⟨hudp, rfl⟩ := ipProtocolInit_cases hhandler
    · have hsame : s'.udpPcbMgr = s.udpPcbMgr :=
        (IcmpHandler.handle_keeps (Q := fun u => u.udpPcbMgr = s.udpPcbMgr) (fun _ _ _ hu => hu)
          host.config _).of_done rfl hw
      have hne : u8 pd.data 9 ≠ udpType := by
        rw [hicmp]
        decide
      refine ⟨[], t, .nil, htable.trans hsame.symm, rfl, ?_⟩
      rw [handleOps, if_neg hne]
      rfl
    · have hops : handleOps host pd.data = [.handle (Ipv4Data.segment host pd.data)] :=
        if_pos hudp
      obtain ⟨t', hstep, ht', hcache⟩ := UdpHandler.handle_refines htable hw
      exact ⟨_, t', Runs.Run.nil.snoc hstep, ht', hcache, hops.symm⟩

end

/-- The program and a run of sockets agree on the table. -/
structure SameTable (m : Machine) (s : Stack) : Prop where
  table : s.udpPcbMgr = m.stack.udpPcbMgr
  cache : EtherCache s

/-- A delivery of the signal is a run of sockets. -/
theorem handleProtocolSignal_refines {host : Host} {m n : Machine} {s : Stack}
    (h : (handleProtocolSignal host.config).run m = .done n ()) (hs : SameTable m s) :
    ∃ tr t, UdpRun host.config s tr t ∧ SameTable n t ∧
      tr.map udpOpOf = m.packets.flatMap (handleOps host) := by
  obtain ⟨⟨queues, u⟩, hdrain, rfl⟩ := Outcome.mapState_eq_done.mp h
  -- the history of a state: the operations of a run that ends with its table
  have hadd : ∀ (type : UInt16) (pd : ProtocolData),
      (protocolHandlers host.config type pd).Adds
        (fun u log => ∃ tr t, UdpRun host.config s tr t ∧ t.udpPcbMgr = u.udpPcbMgr ∧
          t.arpCache = s.arpCache ∧ tr.map udpOpOf = log)
        (if type = ipType then handleOps host pd.data else []) := by
    rintro type pd u u' v log ⟨tr, t, hrun, htable, hcache, rfl⟩ hdone
    have hne : arpType ≠ ipType := by decide
    by_cases harp : type = arpType
    · rw [protocolHandlers, if_pos harp] at hdone
      obtain ⟨p, pad, -, rfl⟩ := ArpProtocolHandler.done_packet hdone
      rw [if_neg (harp ▸ hne), List.append_nil]
      exact ⟨tr, t, hrun, htable, hcache, rfl⟩
    by_cases hip : type = ipType
    · rw [protocolHandlers, if_neg harp, if_pos hip] at hdone
      obtain ⟨tr', t', hrun', htable', hcache', hops⟩ := ipv4_refines htable hdone
      rw [if_pos hip, ← hops, ← List.map_append]
      exact ⟨tr ++ tr', t', hrun.append hrun', htable', hcache'.trans hcache, rfl⟩
    · rw [protocolHandlers, if_neg harp, if_neg hip] at hdone
      cases hdone
  obtain ⟨tr, t, hrun, htable, hcache, hops⟩ := drainAll_adds
    (fun type d => if type = ipType then handleOps host d.data else [])
    (fun p _ d _ => hadd p.1 d) ⟨[], s, .nil, hs.table, rfl, rfl⟩ hdrain
  refine ⟨tr, t, hrun, ⟨htable, ?_⟩, ?_⟩
  · rw [EtherCache, hcache]
    exact hs.cache
  · rw [hops, List.map_nil, List.nil_append]
    exact flatMap_packets m.protocolQueues (handleOps host)

/-- **A step of the program is a run of sockets.** -/
theorem MachineEvent.Step.refines {host : Host} {m n : Machine} {ev : MachineEvent} {s : Stack}
    (hs : SameTable m s) (hev : ev.Proper) (h : ev.Step host.config m n) :
    ∃ tr t, UdpRun host.config s tr t ∧ SameTable n t ∧
      tr.map udpOpOf = tableOps host ⟨m, ev, n⟩ := by
  cases ev with
  | signal sig =>
    cases sig with
    | SIGHUP =>
      cases h
      exact ⟨[], s, .nil, hs, rfl⟩
    | SIGUSR1 => exact handleProtocolSignal_refines h hs
    | SIGUSR2 =>
      cases h
      have hstep : UdpEvent.Step host.config s ⟨.interruptAll, .ok (.interrupted 0)⟩
          { s with udpPcbMgr := s.udpPcbMgr.interruptAll } := rfl
      exact ⟨_, _, Runs.Run.nil.snoc hstep,
        ⟨congrArg UdpPcbManager.interruptAll hs.table, hs.cache⟩, rfl⟩
    | irq frame =>
      obtain ⟨_, _, hhandler, hpure⟩ := Comp.bind_eq_done h
      cases hpure
      obtain rfl | ⟨d, rfl⟩ := EtherDevice.handler_done hhandler
      · exact ⟨[], s, .nil, hs, rfl⟩
      · exact ⟨[], s, .nil, ⟨hs.table, hs.cache⟩, rfl⟩
  | call op =>
    have hnext : (((op.exec host.config).run m.stack).mapState fun s =>
        { m with stack := s }).next? = some n := h
    have hstack : ((op.exec host.config).run m.stack).next? = some n.stack := by
      rcases hr : (op.exec host.config).run m.stack with ⟨t, v⟩ | ⟨t, e⟩ | _ | _ <;>
        rw [hr] at hnext <;> cases hnext <;> rfl
    obtain ⟨t, ht, htable⟩ := UdpOp.exec_congr (hev op rfl) hs.cache hs.table hstack
    obtain ⟨ret, hstep⟩ := UdpEvent.exists_step ht
    have hcache : EtherCache t :=
      op.exec_keeps (fun _ _ _ h => h) (fun _ _ h => h) host.config s t hs.cache ht
    exact ⟨_, t, Runs.Run.nil.snoc hstep, ⟨htable, hcache⟩, rfl⟩

/-- A datagram from 192.0.2.1 to 192.0.2.2:5555, in its frame. -/
def exampleRequestFrame : Bytes :=
  EtherDevice.frameBytes peerAddress
    (Ipv4Output.packetBytes udpType
      (udpOutput.segmentBytes ⟨0xC0000201, 9000⟩ ⟨0xC0000202, 5555⟩ [0x68, 0x69]) 0xC0000201
      0xC0000202 1)
    exampleAddress.val ipType

/-- What is queued for it. -/
def exampleUdpRequest : UdpPcbPayload :=
  ⟨[0x68, 0x69] ++ List.replicate 8 0, ⟨0xC0000201, 9000⟩⟩

end Suika
