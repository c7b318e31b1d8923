import Suika.UdpCodec
import Suika.UdpTable

/-!
# Sockets as channels

Seen from outside, a control block is a channel: the handler puts datagrams in, `recvFrom` takes
them out. `que` is what is in it, `pushed` what a step put in, `popped` what it took out of the
queue, and `returned` what it gave to the caller.

Between the first three the books always balance (`udpRun_conserve`): nothing is lost, duplicated,
reordered or moved. What is returned is another matter: a receive that takes a datagram reads its
endpoint and its size when it is gone, and the run leaves defined behaviour (`udpRun_fifo_iff`). On
a machine on which these reads still yield the datagram, it is returned (`udpRun_channels`).
-/

namespace Suika

open Cpp UdpPcbManager

/-- One step of a run of socket operations. -/
abbrev UdpRecord : Type := Runs.Record Stack UdpEvent

/-- What waits in block `b`. -/
def que (s : Stack) (b : ℕ) : List UdpPcbPayload :=
  match s.udpPcbMgr.block? b with
  | some pcb => pcb.que
  | none => []

/-- What a step pushed to block `b`: an accepted delivery, if `select` chose this block. -/
def pushed (b : ℕ) (r : UdpRecord) : List UdpPcbPayload :=
  match r.label with
  | ⟨.handle d, .ok (.handled n)⟩ =>
    if n = 0 ∧ r.pre.udpPcbMgr.select d.dst (u16 d.data 2) = some b then [UdpHandler.datagram d]
    else []
  | _ => []

/-- What a successful `recvFrom` on block `b` gave to its caller: the bytes it says it wrote to the
buffer, and the endpoint. -/
def returned (b : ℕ) (r : UdpRecord) : List UdpPcbPayload :=
  match r.label with
  | ⟨.recvFrom sock _ _ _, .ok (.received x)⟩ =>
    if sock.block = b ∧ x.len ≠ -1 then [⟨x.buf.take x.len.toNat, x.endpoint⟩] else []
  | _ => []

/-- What a step took out of the queue of block `b`. -/
def popped (b : ℕ) (r : UdpRecord) : List UdpPcbPayload :=
  match r.label.op with
  | .recvFrom sock _ _ _ =>
    if sock.block = b then
      match r.pre.udpPcbMgr.block? b with
      | some pcb => if pcb.interrupted = 1 then [] else pcb.que.take 1
      | none => []
    else []
  | _ => []

/-! ## The queue -/

section

variable {s t : Stack} {b i : ℕ} {f : UdpControlBlock → UdpControlBlock}

theorem que_eq {pcb : UdpControlBlock} (h : s.udpPcbMgr.block? b = some pcb) :
    que s b = pcb.que := by
  rw [que, h]

/-- A change of a block that leaves its queue alone. -/
theorem que_modify_keep (ht : t.udpPcbMgr = s.udpPcbMgr.modify i f)
    (hf : ∀ pcb, (f pcb).que = pcb.que) :
    que t b = que s b := by
  rw [que, ht]
  by_cases hb : i = b
  · subst hb
    rw [block?_modify_self, que]
    cases s.udpPcbMgr.block? i with
    | none => rfl
    | some pcb => exact hf pcb
  · rw [block?_modify_ne f hb, que]

/-- A change of another block. -/
theorem que_modify_ne (ht : t.udpPcbMgr = s.udpPcbMgr.modify i f) (hb : i ≠ b) :
    que t b = que s b := by
  rw [que, ht, block?_modify_ne f hb, que]

theorem que_modify_self {pcb : UdpControlBlock} (ht : t.udpPcbMgr = s.udpPcbMgr.modify b f)
    (hb : s.udpPcbMgr.block? b = some pcb) : que t b = (f pcb).que := by
  rw [que, ht, block?_modify_self, hb]
  rfl

theorem que_interruptAll (ht : t.udpPcbMgr = s.udpPcbMgr.interruptAll) : que t b = que s b := by
  rw [que, ht, block?_interruptAll, que]
  cases s.udpPcbMgr.block? b with
  | none => rfl
  | some pcb =>
    dsimp only [Option.map_some]
    split <;> rfl

theorem que_init (hs : s.udpPcbMgr = UdpPcbManager.init) : que s b = [] := by
  rw [que, hs]
  cases hb : UdpPcbManager.init.block? b with
  | none => rfl
  | some pcb =>
    rw [block?_init (lt_of_block? hb)] at hb
    cases hb
    rfl

end

/-! ## What a step does to the books -/

section

variable {s t : Stack} {b : ℕ} {op : UdpOp} {ret : Except Err UdpRet}

/-- Only accepted deliveries put in. -/
theorem pushed_eq_nil (hop : ∀ d, op = .handle d → ret ≠ .ok (.handled 0)) :
    pushed b ⟨s, ⟨op, ret⟩, t⟩ = [] := by
  cases op with
  | handle d =>
    rcases ret with e | r
    · rfl
    · cases r with
      | handled n =>
        rw [pushed]
        refine if_neg fun h => hop d rfl ?_
        rw [h.1]
      | _ => rfl
  | _ => rfl

theorem pushed_handle {d : Ipv4ProtocolData} {n : ℤ} :
    pushed b ⟨s, ⟨.handle d, .ok (.handled n)⟩, t⟩ =
      if n = 0 ∧ s.udpPcbMgr.select d.dst (u16 d.data 2) = some b then [UdpHandler.datagram d]
      else [] := rfl

theorem returned_recvFrom {sock : UdpSocket} {buf : Bytes} {endpoint : IpEndpoint} {dead : DeadRead}
    {x : Received} :
    returned b ⟨s, ⟨.recvFrom sock buf endpoint dead, .ok (.received x)⟩, t⟩ =
      if sock.block = b ∧ x.len ≠ -1 then [⟨x.buf.take x.len.toNat, x.endpoint⟩] else [] := rfl

/-- An interrupted receive takes nothing. -/
theorem popped_of_interrupted {sock : UdpSocket} {buf : Bytes} {endpoint : IpEndpoint}
    {dead : DeadRead} (h : ∀ pcb, s.udpPcbMgr.block? sock.block = some pcb → pcb.interrupted = 1) :
    popped b ⟨s, ⟨.recvFrom sock buf endpoint dead, ret⟩, t⟩ = [] := by
  simp only [popped]
  split
  · rename_i hblock
    split
    · rename_i pcb hpcb
      rw [← hblock] at hpcb
      rw [if_pos (h pcb hpcb)]
    · rfl
  · rfl

/-- Any other receive takes the front of the queue. -/
theorem popped_recvFrom {sock : UdpSocket} {buf : Bytes} {endpoint : IpEndpoint}
    {dead : DeadRead} {pcb : UdpControlBlock} {front : UdpPcbPayload} {rest : List UdpPcbPayload}
    (hb : s.udpPcbMgr.block? sock.block = some pcb) (hint : pcb.interrupted ≠ 1)
    (hque : pcb.que = front :: rest) :
    popped b ⟨s, ⟨.recvFrom sock buf endpoint dead, ret⟩, t⟩ =
      if sock.block = b then [front] else [] := by
  simp only [popped]
  split
  · rename_i hblock
    rw [hblock] at hb
    rw [hb]
    dsimp only
    rw [if_neg hint, hque]
    rfl
  · rfl

end

/-- **One step balances**: what it popped and what is left is what was there and what it pushed. -/
theorem UdpEvent.Step.balance {cfg : Config} {s t : Stack} {ev : UdpEvent}
    (h : UdpEvent.Step cfg s ev t) (b : ℕ) :
    popped b ⟨s, ev, t⟩ ++ que t b = que s b ++ pushed b ⟨s, ev, t⟩ := by
  have heffect := h.effect
  -- all but two effects leave every queue alone
  have hquiet : que t b = que s b → popped b ⟨s, ev, t⟩ = [] → pushed b ⟨s, ev, t⟩ = [] →
      popped b ⟨s, ev, t⟩ ++ que t b = que s b ++ pushed b ⟨s, ev, t⟩ := by
    intro hque hpop hpush
    rw [hque, hpop, hpush, List.nil_append, List.append_nil]
  generalize ht : t.udpPcbMgr = m' at heffect
  cases heffect with
  | idle hidle =>
    obtain ⟨op, ret⟩ := ev
    refine hquiet (by rw [que, ht, que]) ?_ ?_
    · cases op with
      | recvFrom sock buf endpoint dead => exact popped_of_interrupted hidle.2
      | _ => rfl
    · refine pushed_eq_nil fun d hop => ?_
      subst hop
      exact hidle
  | opened halloc =>
    obtain ⟨-, rfl⟩ := alloc_eq_some halloc
    exact hquiet (que_modify_keep ht fun _ => rfl) rfl rfl
  | bound =>
    exact hquiet (que_modify_keep ht fun _ => rfl) rfl rfl
  | assigned =>
    exact hquiet (que_modify_keep ht fun _ => rfl) rfl rfl
  | @queued d i hsel =>
    have hpop : popped b ⟨s, ⟨.handle d, .ok (.handled 0)⟩, t⟩ = [] := rfl
    rw [hpop, List.nil_append, pushed_handle]
    by_cases hi : i = b
    · subst hi
      obtain ⟨⟨pcb, hpcb, -⟩, -⟩ := select_eq_some.mp hsel
      rw [if_pos ⟨rfl, hsel⟩, que_modify_self ht hpcb, que_eq hpcb]
    · have hno : ¬ ((0 : ℤ) = 0 ∧ s.udpPcbMgr.select d.dst (u16 d.data 2) = some b) := by
        rintro ⟨-, hb⟩
        exact hi (Option.some.inj (hsel.symm.trans hb))
      rw [if_neg hno, que_modify_ne ht hi, List.append_nil]
  | @taken sock buf endpoint dead pcb payload rest hb hint hque hfit =>
    have hpush : pushed b ⟨s, ⟨.recvFrom sock buf endpoint dead, .ok (.received
        ⟨dead.size, patch buf 0 payload.data, dead.endpoint⟩)⟩, t⟩ = [] := rfl
    rw [hpush, List.append_nil, popped_recvFrom hb hint hque]
    by_cases hblock : sock.block = b
    · rw [hblock] at hb
      rw [if_pos hblock, que_eq hb, hque,
        que_modify_self (by rw [ht, UdpSocket.takeTable, hblock]) hb]
      rfl
    · rw [if_neg hblock, que_modify_ne ht hblock, List.nil_append]
  | interrupted =>
    exact hquiet (que_interruptAll ht) rfl rfl

/-- A block that a step neither pops from nor pushes to. -/
theorem UdpEvent.Step.que_eq {cfg : Config} {s t : Stack} {ev : UdpEvent}
    (h : UdpEvent.Step cfg s ev t) {b : ℕ} (hpopped : popped b ⟨s, ev, t⟩ = [])
    (hpushed : pushed b ⟨s, ev, t⟩ = []) : que t b = que s b := by
  have hbal := h.balance b
  rw [hpopped, hpushed, List.nil_append, List.append_nil] at hbal
  exact hbal

/-- **The books of a run balance**, whatever `recvFrom` returns. -/
theorem udpRun_conserve {cfg : Config} {s t : Stack} {tr : List UdpRecord}
    (hrun : UdpRun cfg s tr t) (b : ℕ) :
    tr.flatMap (popped b) ++ que t b = que s b ++ tr.flatMap (pushed b) :=
  Runs.Run.conserve (q := fun s => que s b) (fun _ h => UdpEvent.Step.balance h b) hrun

/-! ## Channels -/

/-- The reads of a receive that takes a datagram still yield that datagram. -/
def UdpOp.ReadsFaithfully (m : UdpPcbManager) : UdpOp → Prop
  | .recvFrom sock _ _ dead => ∀ pcb front rest, m.block? sock.block = some pcb →
      pcb.interrupted ≠ 1 → pcb.que = front :: rest → dead = ⟨front.data.length, front.endpoint⟩
  | _ => True

/-- A receive that takes a datagram: its block was not interrupted, and something waits there. -/
def UdpOp.Takes (m : UdpPcbManager) : UdpOp → Prop
  | .recvFrom sock _ _ _ => ∃ pcb, m.block? sock.block = some pcb ∧ pcb.interrupted ≠ 1 ∧
      pcb.que ≠ []
  | _ => False

/-- What the books of a run say about every block.
* What was returned, and what is still waiting, is what was pushed, in this order.
* A block is left alone by every step that neither returns something from it nor pushes to it.
* A successful receive returns the length of the datagram at the front of its queue. -/
structure UdpChannels (tr : List UdpRecord) (t : Stack) : Prop where
  channel : ∀ b, tr.flatMap (returned b) ++ que t b = tr.flatMap (pushed b)
  untouched : ∀ r ∈ tr, ∀ b, returned b r = [] → pushed b r = [] → que r.post b = que r.pre b
  result : ∀ r ∈ tr, ∀ sock buf endpoint dead x,
    r.label = ⟨.recvFrom sock buf endpoint dead, .ok (.received x)⟩ → x.len ≠ -1 →
      ∃ front rest, que r.pre sock.block = front :: rest ∧ x.len = front.data.length

/-- Every block is a reliable channel over the run: it is one by the books, and no receive leaves
defined behaviour, behind which the language promises nothing. -/
structure UdpFifo (tr : List UdpRecord) (t : Stack) : Prop extends UdpChannels tr t where
  defined : ∀ r ∈ tr, ∀ sock buf endpoint dead, r.label.op = .recvFrom sock buf endpoint dead →
    Outcome.undef ≠ (sock.recvFromStrict buf endpoint).run r.pre

/-- What a receive returns: nothing if it was interrupted; else what its reads yielded. -/
theorem UdpEvent.Step.recvFrom_cases {cfg : Config} {s t : Stack} {sock : UdpSocket} {buf : Bytes}
    {endpoint : IpEndpoint} {dead : DeadRead} {ret : Except Err UdpRet}
    (h : UdpEvent.Step cfg s ⟨.recvFrom sock buf endpoint dead, ret⟩ t) :
    ((∀ x, ret = .ok (.received x) → x.len = -1) ∧
      ∀ pcb, s.udpPcbMgr.block? sock.block = some pcb → pcb.interrupted = 1) ∨
    ∃ pcb front rest, s.udpPcbMgr.block? sock.block = some pcb ∧ pcb.interrupted ≠ 1 ∧
      pcb.que = front :: rest ∧ front.data.length ≤ buf.length ∧
      ret = .ok (.received ⟨dead.size, patch buf 0 front.data, dead.endpoint⟩) := by
  have heffect := h.effect
  generalize t.udpPcbMgr = m' at heffect
  cases heffect with
  | idle hidle => exact Or.inl hidle
  | taken hb hint hque hfit => exact Or.inr ⟨_, _, _, hb, hint, hque, hfit, rfl⟩

/-- The bytes of a datagram that was copied to the front of a buffer. -/
theorem take_patch_zero {d buf : Bytes} : (patch buf 0 d).take d.length = d := by
  rw [patch, List.take_zero, List.nil_append, List.take_left]

/-- With faithful reads a step returns what it popped. -/
theorem UdpEvent.Step.returned_eq {cfg : Config} {s t : Stack} {ev : UdpEvent}
    (h : UdpEvent.Step cfg s ev t) (hread : ev.op.ReadsFaithfully s.udpPcbMgr) (b : ℕ) :
    returned b ⟨s, ev, t⟩ = popped b ⟨s, ev, t⟩ := by
  obtain ⟨op, ret⟩ := ev
  cases op with
  | recvFrom sock buf endpoint dead =>
    obtain ⟨hlen, hint⟩ | ⟨pcb, front, rest, hb, hint, hque, hfit, rfl⟩ := h.recvFrom_cases
    · rw [popped_of_interrupted hint]
      rcases ret with e | r
      · rfl
      · cases r with
        | received x =>
          rw [returned_recvFrom]
          exact if_neg fun hne => hne.2 (hlen x rfl)
        | _ => rfl
    · obtain rfl := hread pcb front rest hb hint hque
      have hneg : (front.data.length : ℤ) ≠ -1 := by omega
      rw [popped_recvFrom hb hint hque, returned_recvFrom]
      dsimp only
      rw [Int.toNat_natCast, take_patch_zero]
      by_cases hblock : sock.block = b
      · rw [if_pos ⟨hblock, hneg⟩, if_pos hblock]
      · rw [if_neg fun hand => hblock hand.1, if_neg hblock]
  | _ => rfl

section

variable {cfg : Config} {s t : Stack} {tr : List UdpRecord}

/-- From the table of the start, what was popped and what is left is what was pushed. -/
theorem udpRun_books (hrun : UdpRun cfg s tr t) (hs : s.udpPcbMgr = UdpPcbManager.init) (b : ℕ) :
    tr.flatMap (popped b) ++ que t b = tr.flatMap (pushed b) := by
  have hbal := udpRun_conserve hrun b
  rw [que_init hs, List.nil_append] at hbal
  exact hbal

/-- Faithful reads make channels. -/
theorem udpChannels_of_readsFaithfully (hrun : UdpRun cfg s tr t)
    (hs : s.udpPcbMgr = UdpPcbManager.init)
    (h : ∀ r ∈ tr, r.label.op.ReadsFaithfully r.pre.udpPcbMgr) : UdpChannels tr t := by
  have hsame : ∀ b, ∀ r ∈ tr, returned b r = popped b r := fun b r hr =>
    (hrun.record r hr).1.returned_eq (h r hr) b
  refine ⟨fun b => ?_, fun r hr b hreturned hpushed => ?_, ?_⟩
  · rw [← udpRun_books hrun hs b, List.flatMap_congr (hsame b)]
  · have hpopped : popped b r = [] := (hsame b r hr).symm.trans hreturned
    exact (hrun.record r hr).1.que_eq hpopped hpushed
  · intro r hr sock buf endpoint dead x hlabel hlen
    have hstep := (hrun.record r hr).1
    have hread := h r hr
    rw [hlabel] at hstep hread
    obtain ⟨hno, -⟩ | ⟨pcb, front, rest, hb, hint, hque, -, hret⟩ := hstep.recvFrom_cases
    · exact absurd (hno x rfl) hlen
    · cases hret
      refine ⟨front, rest, (que_eq hb).trans hque, ?_⟩
      rw [hread pcb front rest hb hint hque]

/-- A receive that takes a datagram leaves defined behaviour, and no other does. -/
theorem UdpOp.takes_iff (sock : UdpSocket) (buf : Bytes) (endpoint : IpEndpoint) (dead : DeadRead) :
    (UdpOp.recvFrom sock buf endpoint dead).Takes s.udpPcbMgr ↔
      (sock.recvFromStrict buf endpoint).run s = .undef := by
  cases hb : s.udpPcbMgr.block? sock.block with
  | none =>
    rw [UdpSocket.recvFromStrict_throws hb]
    refine ⟨?_, fun h => nomatch h⟩
    rintro ⟨pcb, hpcb, -⟩
    rw [hb] at hpcb
    cases hpcb
  | some pcb =>
    rw [UdpSocket.recvFromStrict_run hb]
    refine ⟨?_, ?_⟩
    · rintro ⟨pcb', hpcb, hint, hque⟩
      obtain rfl := Option.some.inj (hb.symm.trans hpcb)
      rw [if_neg hint, if_neg hque]
    · intro h
      split at h
      · cases h
      rename_i hint
      split at h
      · cases h
      · rename_i hque
        exact ⟨pcb, hb, hint, hque⟩

/-- **Channels are reliable** over a run exactly as long as nothing is received from them. -/
theorem udpRun_fifo_iff (hrun : UdpRun cfg s tr t) (hs : s.udpPcbMgr = UdpPcbManager.init) :
    UdpFifo tr t ↔ ∀ r ∈ tr, ¬ r.label.op.Takes r.pre.udpPcbMgr := by
  refine ⟨fun h r hr htakes => ?_, fun h => ⟨?_, ?_⟩⟩
  · obtain ⟨s', ⟨op, ret⟩, t'⟩ := r
    cases op with
    | recvFrom sock buf endpoint dead =>
      exact h.defined _ hr sock buf endpoint dead rfl ((UdpOp.takes_iff _ _ _ _).mp htakes).symm
    | _ => exact htakes
  · -- where nothing is taken, nothing is read
    refine udpChannels_of_readsFaithfully hrun hs fun r hr => ?_
    have hno := h r hr
    generalize r.label.op = op at hno
    cases op with
    | recvFrom sock buf endpoint dead =>
      intro pcb front rest hb hint hque
      exact absurd ⟨pcb, hb, hint, hque ▸ List.cons_ne_nil front rest⟩ hno
    | _ => trivial
  · intro r hr sock buf endpoint dead hop hundef
    refine h r hr ?_
    rw [hop]
    exact (UdpOp.takes_iff _ _ _ _).mpr hundef.symm

/-- **Queues are reliable** over every run, whatever the reads behind a pop yield: what was popped
from a block and what still waits there is what was pushed to it, in this order; a block is left
alone by every step that does neither; and the bytes of what was popped are in the buffer. Where the
reads yield what was popped, the books are those of channels. -/
theorem udpRun_channels (hrun : UdpRun cfg s tr t) (hs : s.udpPcbMgr = UdpPcbManager.init) :
    (∀ b, tr.flatMap (popped b) ++ que t b = tr.flatMap (pushed b)) ∧
      (∀ r ∈ tr, ∀ b, popped b r = [] → pushed b r = [] → que r.post b = que r.pre b) ∧
      (∀ r ∈ tr, ∀ sock buf endpoint dead x front,
        r.label = ⟨.recvFrom sock buf endpoint dead, .ok (.received x)⟩ →
          popped sock.block r = [front] → x.buf = patch buf 0 front.data) ∧
      ((∀ r ∈ tr, r.label.op.ReadsFaithfully r.pre.udpPcbMgr) → UdpChannels tr t) := by
  refine ⟨udpRun_books hrun hs, fun r hr b => (hrun.record r hr).1.que_eq, ?_,
    udpChannels_of_readsFaithfully hrun hs⟩
  intro r hr sock buf endpoint dead x front hlabel hpopped
  have hstep := (hrun.record r hr).1
  obtain ⟨s', ev, t'⟩ := r
  dsimp only at hlabel
  subst hlabel
  obtain ⟨-, hint⟩ | ⟨pcb, front', rest, hb, hint, hque, -, hret⟩ := hstep.recvFrom_cases
  · rw [popped_of_interrupted hint] at hpopped
    cases hpopped
  · rw [popped_recvFrom hb hint hque, if_pos rfl] at hpopped
    cases hpopped
    cases hret
    rfl

end

/-! ### A datagram received -/

/-- A header with 8 bytes of payload from 192.0.2.1:1000 to 192.0.2.2:5555. -/
def exampleDatagram : Ipv4ProtocolData := bareSegment 8 25151

/-- One socket, bound to 192.0.2.2:5555. -/
def exampleBound : UdpPcbManager :=
  UdpSocket.bindTable (openTable .init 0) (exampleSocket 0) 0xC0000202 5555

/-- A buffer of 16 bytes. -/
def exampleBuffer : Bytes := List.replicate 16 0

/-- A socket is opened and bound, a datagram arrives and is received; the reads of the receive yield
`dead`. -/
def recvTrace (dead : DeadRead) : List UdpRecord :=
  [⟨withTable .init, ⟨.open, .ok (.opened (.ok (exampleSocket 0)))⟩, withTable (openTable .init 0)⟩,
    ⟨withTable (openTable .init 0),
      ⟨.bind (exampleSocket 0) "192.0.2.2".toList 5555, .ok (.bound (.ok 0))⟩,
      withTable exampleBound⟩,
    ⟨withTable exampleBound, ⟨.handle exampleDatagram, .ok (.handled 0)⟩,
      UdpHandler.deliver (withTable exampleBound) 0 (UdpHandler.datagram exampleDatagram)⟩,
    ⟨UdpHandler.deliver (withTable exampleBound) 0 (UdpHandler.datagram exampleDatagram),
      ⟨.recvFrom (exampleSocket 0) exampleBuffer ⟨0, 0⟩ dead,
        .ok (.received ⟨dead.size, exampleBuffer, dead.endpoint⟩)⟩, withTable exampleBound⟩]

set_option maxRecDepth 10000 in
theorem recvTrace_handled (dead : DeadRead) :
    UdpRun exampleConfig (withTable .init) ((recvTrace dead).take 3)
      (UdpHandler.deliver (withTable exampleBound) 0 (UdpHandler.datagram exampleDatagram)) :=
  ((Runs.Run.nil.snoc rfl).snoc rfl).snoc rfl

set_option maxRecDepth 10000 in
theorem recvTrace_run (dead : DeadRead) :
    UdpRun exampleConfig (withTable .init) (recvTrace dead) (withTable exampleBound) :=
  (recvTrace_handled dead).snoc rfl

theorem recvTrace_faithful : ∀ r ∈ recvTrace ⟨8, ⟨0xC0000201, 1000⟩⟩,
    r.label.op.ReadsFaithfully r.pre.udpPcbMgr := by
  simp only [recvTrace, List.forall_mem_cons]
  refine ⟨trivial, trivial, trivial, fun pcb front rest hb _ hque => ?_,
    fun r hr => absurd hr List.not_mem_nil⟩
  obtain rfl := Option.some.inj hb
  obtain ⟨rfl, -⟩ := List.cons.inj hque
  rfl

/-- Until the datagram is received, the socket is a channel. -/
theorem recvTrace_fifo : UdpFifo ((recvTrace ⟨8, ⟨0xC0000201, 1000⟩⟩).take 3)
    (UdpHandler.deliver (withTable exampleBound) 0 (UdpHandler.datagram exampleDatagram)) := by
  refine (udpRun_fifo_iff (recvTrace_handled _) rfl).mpr ?_
  simp only [recvTrace, List.take_succ_cons, List.forall_mem_cons, List.take_zero]
  exact ⟨fun h => h, fun h => h, fun h => h, fun r hr => absurd hr List.not_mem_nil⟩

/-- The receive takes it, and reads its size and its endpoint when it is gone. -/
theorem not_forall_udpFifo :
    ¬ ∀ (cfg : Config) (s t : Stack) (tr : List UdpRecord), UdpRun cfg s tr t →
      s.udpPcbMgr = UdpPcbManager.init → UdpFifo tr t := by
  intro h
  have hfifo := h _ _ _ _ (recvTrace_run ⟨8, ⟨0xC0000201, 1000⟩⟩) rfl
  exact hfifo.defined _ (List.mem_of_getElem? (i := 3) rfl) (exampleSocket 0) exampleBuffer ⟨0, 0⟩ _
    rfl rfl

/-- On a machine that still reads the datagram there, it is received as it came. -/
theorem recvTrace_channels : UdpChannels (recvTrace ⟨8, ⟨0xC0000201, 1000⟩⟩)
    (withTable exampleBound) :=
  (udpRun_channels (recvTrace_run _) rfl).2.2.2 recvTrace_faithful

end Suika
