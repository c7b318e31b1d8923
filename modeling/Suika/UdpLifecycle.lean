import Suika.UdpChannel
import Suika.UdpPorts

/-!
# The life of a control block

A block is free until `alloc` opens it, and from then on it stays open. `alloc` writes the state,
the id and the endpoint; that the rest of a new block is as it should be follows from what the other
operations leave alone.

* `OpenPrefix` is the invariant: the open blocks are the first ones, each under its own index, and a
  free block was never written to. `udpRun_opens` draws the conclusions.
* `interrupted` is set by `interruptAll` and by nobody else, and nobody takes it back: a block that
  was interrupted once never gives out a datagram again (`udpRun_neverServes`).
-/

namespace Suika

open Cpp UdpPcbManager

/-! ## Opening blocks -/

/-- The first `n` blocks are open under their indices; the others are free, with nothing in the
queue and no interruption. -/
structure OpenPrefix (n : ℕ) (m : UdpPcbManager) : Prop where
  opened : ∀ i b, m.block? i = some b → i < n → b.state = .OPEN ∧ b.id = i
  free : ∀ i b, m.block? i = some b → n ≤ i → b.state = .FREE ∧ b.que = [] ∧ b.interrupted = 0

theorem openPrefix_init : OpenPrefix 0 UdpPcbManager.init := by
  refine ⟨fun i b _ hi => absurd hi (Nat.not_lt_zero i), fun i b hb _ => ?_⟩
  rw [block?_init (lt_of_block? hb)] at hb
  cases hb
  exact ⟨rfl, rfl, rfl⟩

namespace OpenPrefix

variable {n : ℕ} {m : UdpPcbManager}

/-- A block is open exactly if it is one of the first. -/
theorem state_iff (h : OpenPrefix n m) {i : ℕ} {b : UdpControlBlock} (hb : m.block? i = some b) :
    b.state = .OPEN ↔ i < n := by
  refine ⟨fun hopen => ?_, fun hi => (h.opened i b hb hi).1⟩
  by_contra hi
  rw [(h.free i b hb (Nat.le_of_not_lt hi)).1] at hopen
  cases hopen

/-- What changes one block, and nothing about it that the invariant is about. -/
theorem modify (h : OpenPrefix n m) {k : ℕ} {f : UdpControlBlock → UdpControlBlock}
    (hf : ∀ b, m.block? k = some b → (f b).state = b.state ∧ (f b).id = b.id ∧
      (b.state = .FREE → b.que = [] → (f b).que = [] ∧ (f b).interrupted = b.interrupted)) :
    OpenPrefix n (m.modify k f) := by
  refine ⟨fun i b hb hi => ?_, fun i b hb hi => ?_⟩
  · obtain ⟨rfl, b₀, hb₀, rfl⟩ | ⟨-, hb₀⟩ := block?_modify_cases hb
    · obtain ⟨hstate, hid, -⟩ := hf b₀ hb₀
      rw [hstate, hid]
      exact h.opened i b₀ hb₀ hi
    · exact h.opened i b hb₀ hi
  · obtain ⟨rfl, b₀, hb₀, rfl⟩ | ⟨-, hb₀⟩ := block?_modify_cases hb
    · obtain ⟨hstate, -, hfree⟩ := hf b₀ hb₀
      obtain ⟨hs, hq, hint⟩ := h.free i b₀ hb₀ hi
      obtain ⟨hq', hint'⟩ := hfree hs hq
      exact ⟨hstate.trans hs, hq', hint'.trans hint⟩
    · exact h.free i b hb₀ hi

theorem interruptAll (h : OpenPrefix n m) : OpenPrefix n m.interruptAll := by
  refine ⟨fun i b hb hi => ?_, fun i b hb hi => ?_⟩
  · obtain ⟨c, hc, rfl⟩ := Option.map_eq_some_iff.mp (block?_interruptAll.symm.trans hb)
    obtain ⟨hs, hid⟩ := h.opened i c hc hi
    rw [if_pos hs]
    exact ⟨hs, hid⟩
  · obtain ⟨c, hc, rfl⟩ := Option.map_eq_some_iff.mp (block?_interruptAll.symm.trans hb)
    obtain ⟨hs, hq, hint⟩ := h.free i c hc hi
    have hne : c.state ≠ .OPEN := by
      rw [hs]
      decide
    rw [if_neg hne]
    exact ⟨hs, hq, hint⟩

/-- What `alloc` returns is the next block. -/
theorem alloc_eq (h : OpenPrefix n m) {m' : UdpPcbManager} {i : ℕ} (ha : m.alloc = some (m', i)) :
    i = n := by
  obtain ⟨⟨b, hb, hfree⟩, -⟩ := alloc_eq_some ha
  have hle : n ≤ i := by
    by_contra hlt
    rw [(h.opened i b hb (Nat.lt_of_not_le hlt)).1] at hfree
    cases hfree
  by_contra hne
  have hlt : n < i := by omega
  -- block `n` is free too, and `alloc` took the first free one
  obtain ⟨c, hc⟩ := m.exists_block (hlt.trans (lt_of_block? hb))
  exact alloc_first ha hlt hc (h.free n c hc (le_refl n)).1

/-- `alloc` succeeds as long as there is a next block. -/
theorem alloc_isSome (h : OpenPrefix n m) : (∃ r, m.alloc = some r) ↔ n < udpPcbListSize := by
  refine ⟨?_, ?_⟩
  · rintro ⟨⟨m', i⟩, ha⟩
    obtain rfl := h.alloc_eq ha
    obtain ⟨⟨b, hb, -⟩, -⟩ := alloc_eq_some ha
    exact lt_of_block? hb
  · intro hn
    obtain ⟨b, hb⟩ := m.exists_block hn
    exact exists_alloc hb (h.free n b hb (le_refl n)).1

end OpenPrefix

/-- How a call of `open` ends. -/
theorem UdpEvent.Step.open_cases {cfg : Config} {s t : Stack} {ret : Except Err UdpRet}
    (h : UdpEvent.Step cfg s ⟨.open, ret⟩ t) :
    (∃ m' i, s.udpPcbMgr.alloc = some (m', i) ∧ ret = .ok (.opened (.ok ⟨i, i⟩)) ∧
      t.udpPcbMgr = m') ∨
    (s.udpPcbMgr.alloc = none ∧ ret = .ok (.opened (.error (-1))) ∧ t.udpPcbMgr = s.udpPcbMgr) := by
  have hrun := UdpSocket.open_run (s := s)
  rw [UdpEvent.Step, UdpOp.exec, Comp.run_bind, hrun] at h
  cases halloc : s.udpPcbMgr.alloc with
  | none =>
    rw [halloc] at h
    cases ret with
    | error e => cases h
    | ok r =>
      cases h
      exact Or.inr ⟨rfl, rfl, rfl⟩
  | some mi =>
    rw [halloc] at h
    cases ret with
    | error e => cases h
    | ok r =>
      cases h
      exact Or.inl ⟨mi.1, mi.2, rfl, rfl, rfl⟩

/-- A call of `open`. -/
def UdpOp.isOpen : UdpOp → Bool
  | .open => true
  | _ => false

/-- How many calls of `open` there are in a history. -/
def opens (tr : List (Runs.Record Stack UdpEvent)) : ℕ := tr.countP fun r => r.label.op.isOpen

/-- **One step** that opens nothing. -/
theorem UdpEvent.Effect.openPrefix {cfg : Config} {m m' : UdpPcbManager} {ev : UdpEvent} {n : ℕ}
    (h : ev.Effect cfg m m') (hm : OpenPrefix n m) (hop : ev.op.isOpen = false) :
    OpenPrefix n m' := by
  cases h with
  | idle => exact hm
  | opened halloc => cases hop
  | bound ha hsel => exact hm.modify fun _ _ => ⟨rfl, rfl, fun _ hque => ⟨hque, rfl⟩⟩
  | assigned => exact hm.modify fun _ _ => ⟨rfl, rfl, fun _ hque => ⟨hque, rfl⟩⟩
  | queued hsel =>
    -- datagrams go to open blocks only
    obtain ⟨⟨c, hc, hopen, -⟩, -⟩ := select_eq_some.mp hsel
    refine hm.modify fun b hb => ⟨rfl, rfl, fun hfree _ => ?_⟩
    obtain rfl : b = c := Option.some.inj (hb.symm.trans hc)
    rw [hfree] at hopen
    cases hopen
  | taken hb₀ hint hque hfit =>
    -- what was taken was in the queue
    refine hm.modify fun b hb => ⟨rfl, rfl, fun _ hempty => ?_⟩
    obtain rfl := Option.some.inj (hb.symm.trans hb₀)
    rw [hque] at hempty
    cases hempty
  | interrupted => exact hm.interruptAll

/-- A new block. -/
def freshBlock (k : ℕ) : UdpControlBlock where
  id := k
  state := .OPEN
  que := []
  endpoint := ⟨ipAddrAny, 0⟩
  interrupted := 0

/-- **One call of `open`** opens the next block, as long as there is one. -/
theorem UdpEvent.Step.open_of_openPrefix {cfg : Config} {s t : Stack} {ret : Except Err UdpRet}
    {n : ℕ} (h : UdpEvent.Step cfg s ⟨.open, ret⟩ t) (hs : OpenPrefix n s.udpPcbMgr) :
    OpenPrefix (n + 1) t.udpPcbMgr ∧
      (n < udpPcbListSize → ret = .ok (.opened (.ok ⟨n, n⟩)) ∧
        t.udpPcbMgr.block? n = some (freshBlock n)) ∧
      (udpPcbListSize ≤ n → ret = .ok (.opened (.error (-1))) ∧ t.udpPcbMgr = s.udpPcbMgr) := by
  obtain ⟨m', i, halloc, hret, ht⟩ | ⟨halloc, hret, ht⟩ := h.open_cases
  · obtain rfl := hs.alloc_eq halloc
    have hn : i < udpPcbListSize := hs.alloc_isSome.mp ⟨_, halloc⟩
    obtain ⟨⟨b, hb, hfree⟩, rfl⟩ := alloc_eq_some halloc
    obtain ⟨-, hque, hint⟩ := hs.free i b hb (le_refl i)
    refine ⟨?_, fun _ => ⟨hret, ?_⟩, fun hle => absurd hle (Nat.not_le_of_lt hn)⟩
    · rw [ht]
      refine ⟨fun j c hc hj => ?_, fun j c hc hj => ?_⟩
      · obtain ⟨rfl, c₀, -, rfl⟩ | ⟨hne, hc₀⟩ := block?_modify_cases hc
        · exact ⟨rfl, rfl⟩
        · exact hs.opened j c hc₀ (by omega)
      · obtain ⟨rfl, -⟩ | ⟨-, hc₀⟩ := block?_modify_cases hc
        · omega
        · exact hs.free j c hc₀ (by omega)
    · rw [ht, block?_modify_self, hb, Option.map_some, freshBlock, hque, hint]
  · have hn : udpPcbListSize ≤ n := by
      by_contra hlt
      obtain ⟨r, hr⟩ := hs.alloc_isSome.mpr (Nat.lt_of_not_le hlt)
      rw [halloc] at hr
      cases hr
    refine ⟨?_, fun hlt => absurd hlt (Nat.not_lt_of_le hn), fun _ => ⟨hret, ht⟩⟩
    rw [ht]
    refine ⟨fun j c hc hj => hs.opened j c hc ((lt_of_block? hc).trans_le hn), fun j c hc hj => ?_⟩
    exact absurd (lt_of_block? hc) (by omega)

/-- Every run keeps the invariant, with the number of calls of `open` so far. -/
theorem openPrefix_of_run {cfg : Config} {s t : Stack} {tr : List (Runs.Record Stack UdpEvent)}
    (hrun : UdpRun cfg s tr t) (hs : s.udpPcbMgr = UdpPcbManager.init) :
    OpenPrefix (opens tr) t.udpPcbMgr := by
  induction hrun with
  | nil =>
    rw [hs]
    exact openPrefix_init
  | @snoc tr t u ev _ hl ih =>
    cases hop : ev.op.isOpen with
    | true =>
      obtain ⟨op, ret⟩ := ev
      cases op <;> cases hop
      have hcount : opens (tr ++ [⟨t, ⟨.open, ret⟩, u⟩]) = opens tr + 1 := by
        simp [opens, UdpOp.isOpen]
      rw [hcount]
      exact (hl.open_of_openPrefix ih).1
    | false =>
      have hcount : opens (tr ++ [⟨t, ev, u⟩]) = opens tr := by simp [opens, hop]
      rw [hcount]
      exact hl.effect.openPrefix ih hop

/-- **Opening hands out fresh blocks, in order.** In every run from the initial table:
* the calls of `open` number 0 to 99 succeed, number `k` with id `k`, and find block `k` with the
  endpoint `0.0.0.0:0`, an empty queue and no interruption;
* every later call fails and changes nothing;
* the open blocks are the first ones, as many as there were successful calls, each under its own
  index. -/
theorem udpRun_opens (cfg : Config) {s t : Stack} {tr : List (Runs.Record Stack UdpEvent)}
    (hrun : UdpRun cfg s tr t) (hs : s.udpPcbMgr = UdpPcbManager.init) :
    (∀ before r after, tr = before ++ r :: after → r.label.op = .open →
      (opens before < 100 →
        r.label.ret = .ok (.opened (.ok ⟨opens before, opens before⟩)) ∧
        r.post.udpPcbMgr.block? (opens before) = some (freshBlock (opens before))) ∧
      (100 ≤ opens before →
        r.label.ret = .ok (.opened (.error (-1))) ∧ r.post.udpPcbMgr = r.pre.udpPcbMgr)) ∧
    ∀ i b, t.udpPcbMgr.block? i = some b →
      (b.state = .OPEN ↔ i < opens tr) ∧ (b.state = .OPEN → b.id = i) := by
  refine ⟨?_, ?_⟩
  · rintro before ⟨pre, ⟨op, ret⟩, post⟩ after rfl rfl
    have hcut : before ++ ⟨pre, ⟨.open, ret⟩, post⟩ :: after =
        (before ++ [⟨pre, ⟨.open, ret⟩, post⟩]) ++ after := by
      rw [List.append_assoc, List.singleton_append]
    rw [hcut] at hrun
    obtain ⟨u, hfront, -⟩ := hrun.of_append
    obtain ⟨hbefore, hstep, -⟩ := hfront.of_snoc
    exact (hstep.open_of_openPrefix (openPrefix_of_run hbefore hs)).2
  · intro i b hb
    have hfirst := openPrefix_of_run hrun hs
    exact ⟨hfirst.state_iff hb,
      fun hopen => (hfirst.opened i b hb ((hfirst.state_iff hb).mp hopen)).2⟩

/-- Two sockets: the second one is over block 1. -/
theorem udpRun_opens_two : bothBound.block? 1 = some ⟨1, .OPEN, [], ⟨ipAddrAny, 5555⟩, 0⟩ ∧
    ∀ i b, bothBound.block? i = some b → (b.state = .OPEN ↔ i < 2) :=
  ⟨rfl, fun i b hb => ((udpRun_opens exampleConfig bindTrace_run rfl).2 i b hb).1⟩

/-! ## Interrupted blocks -/

/-- Block `i` is open, and was interrupted. -/
def Interrupted (m : UdpPcbManager) (i : ℕ) : Prop :=
  ∃ b, m.block? i = some b ∧ b.state = .OPEN ∧ b.interrupted = 1

/-- **What an event can do to an open block**: it stays open, and its flag is raised or stays as it
is. -/
theorem UdpEvent.Effect.block_open {cfg : Config} {m m' : UdpPcbManager} {ev : UdpEvent} {i : ℕ}
    {b : UdpControlBlock} (h : ev.Effect cfg m m') (hb : m.block? i = some b)
    (hopen : b.state = .OPEN) :
    ∃ b', m'.block? i = some b' ∧ b'.state = .OPEN ∧
      (b'.interrupted = b.interrupted ∨ b'.interrupted = 1) := by
  have hmodify : ∀ (k : ℕ) (f : UdpControlBlock → UdpControlBlock),
      (k = i → (f b).state = b.state ∧ (f b).interrupted = b.interrupted) →
      ∃ b', (m.modify k f).block? i = some b' ∧ b'.state = .OPEN ∧
        (b'.interrupted = b.interrupted ∨ b'.interrupted = 1) := by
    intro k f hf
    by_cases hk : k = i
    · obtain ⟨hs, hint⟩ := hf hk
      subst hk
      exact ⟨f b, by rw [block?_modify_self, hb, Option.map_some], hs.trans hopen, Or.inl hint⟩
    · exact ⟨b, by rw [block?_modify_ne f hk, hb], hopen, Or.inl rfl⟩
  cases h with
  | idle => exact ⟨b, hb, hopen, Or.inl rfl⟩
  | opened halloc =>
    -- `alloc` takes a free block
    obtain ⟨⟨c, hc, hfree⟩, rfl⟩ := alloc_eq_some halloc
    refine hmodify _ _ fun hk => ?_
    subst hk
    obtain rfl : c = b := Option.some.inj (hc.symm.trans hb)
    rw [hopen] at hfree
    cases hfree
  | bound => exact hmodify _ _ fun _ => ⟨rfl, rfl⟩
  | assigned => exact hmodify _ _ fun _ => ⟨rfl, rfl⟩
  | queued => exact hmodify _ _ fun _ => ⟨rfl, rfl⟩
  | taken => exact hmodify _ _ fun _ => ⟨rfl, rfl⟩
  | interrupted =>
    refine ⟨{ b with interrupted := 1 }, ?_, hopen, Or.inr rfl⟩
    rw [block?_interruptAll, hb, Option.map_some, if_pos hopen]

theorem UdpEvent.Step.isOpen {cfg : Config} {s t : Stack} {ev : UdpEvent} {i : ℕ}
    (h : ev.Step cfg s t) (hs : ∃ b, s.udpPcbMgr.block? i = some b ∧ b.state = .OPEN) :
    ∃ b, t.udpPcbMgr.block? i = some b ∧ b.state = .OPEN := by
  obtain ⟨b, hb, hopen⟩ := hs
  obtain ⟨b', hb', hopen', -⟩ := h.effect.block_open hb hopen
  exact ⟨b', hb', hopen'⟩

/-- Nobody takes the flag back. -/
theorem UdpEvent.Step.interrupted {cfg : Config} {s t : Stack} {ev : UdpEvent} {i : ℕ}
    (h : ev.Step cfg s t) (hs : Interrupted s.udpPcbMgr i) : Interrupted t.udpPcbMgr i := by
  obtain ⟨b, hb, hopen, hint⟩ := hs
  obtain ⟨b', hb', hopen', hint'⟩ := h.effect.block_open hb hopen
  exact ⟨b', hb', hopen', hint'.elim (fun heq => heq.trans hint) id⟩

/-- `interruptAll` raises the flag of every open block. -/
theorem UdpEvent.Step.interrupts {cfg : Config} {s t : Stack} {ret : Except Err UdpRet} {i : ℕ}
    (h : UdpEvent.Step cfg s ⟨.interruptAll, ret⟩ t)
    (hs : ∃ b, s.udpPcbMgr.block? i = some b ∧ b.state = .OPEN) : Interrupted t.udpPcbMgr i := by
  obtain ⟨b, hb, hopen⟩ := hs
  cases h.next?
  refine ⟨{ b with interrupted := 1 }, ?_, hopen, rfl⟩
  dsimp only
  rw [block?_interruptAll, hb, Option.map_some, if_pos hopen]

/-- A receive on an interrupted block takes nothing and writes nothing. -/
theorem UdpEvent.Step.recvFrom_interrupted {cfg : Config} {s t : Stack} {sock : UdpSocket}
    {buf : Bytes} {endpoint : IpEndpoint} {dead : DeadRead} {ret : Except Err UdpRet}
    (h : UdpEvent.Step cfg s ⟨.recvFrom sock buf endpoint dead, ret⟩ t)
    (hs : Interrupted s.udpPcbMgr sock.block) :
    ret = .ok (.received ⟨-1, buf, endpoint⟩) ∧ t = s := by
  obtain ⟨b, hb, -, hint⟩ := hs
  rw [UdpEvent.Step, UdpOp.exec, Comp.run_bind, UdpSocket.recvFrom_run hb, if_pos hint] at h
  cases ret with
  | error e => cases h
  | ok r =>
    cases h
    exact ⟨rfl, rfl⟩

/-- The step is a `recvFrom` on block `i`. -/
def ReceivesOn (i : ℕ) (r : UdpRecord) : Prop :=
  ∃ sock buf endpoint dead, r.label.op = .recvFrom sock buf endpoint dead ∧ sock.block = i

/-- The receive gives out the front of the queue: it writes its bytes to the buffer, leaves the rest
in the queue, and does not return `-1`. -/
def ServesFront (i : ℕ) (r : UdpRecord) : Prop :=
  ∃ payload rest sock buf endpoint dead received, que r.pre i = payload :: rest ∧
    r.label = ⟨.recvFrom sock buf endpoint dead, .ok (.received received)⟩ ∧
    received.len ≠ -1 ∧ received.buf = patch buf 0 payload.data ∧ que r.post i = rest

/-- The step is a receive on block `i` that should be served: something waits in the queue, and a
receive on the block has returned `-1` since the latest `interruptAll`. -/
structure ShouldServe (i : ℕ) (tr : List UdpRecord) (r : UdpRecord) : Prop where
  receives : ReceivesOn i r
  waiting : que r.pre i ≠ []
  history : ∃ before r₀ mid r₁ mid' after, tr = before ++ r₀ :: mid ++ r₁ :: mid' ++ r :: after ∧
    r₀.label.op = .interruptAll ∧ (∀ q ∈ mid ++ mid', q.label.op ≠ .interruptAll) ∧
    ReceivesOn i r₁ ∧ ∃ received, r₁.label.ret = .ok (.received received) ∧ received.len = -1

/-- **An interrupted block never serves again.** In every run with an open block, every receive on
it that should be served returns `-1` and leaves the buffer and the queue as they are. -/
theorem udpRun_neverServes (cfg : Config) {s t : Stack} {tr : List UdpRecord} {i : ℕ}
    {r : UdpRecord} (hrun : UdpRun cfg s tr t)
    (hopen : ∃ b, s.udpPcbMgr.block? i = some b ∧ b.state = .OPEN) (h : ShouldServe i tr r) :
    ¬ ServesFront i r ∧ r.post = r.pre ∧ ∃ sock buf endpoint dead,
      r.label = ⟨.recvFrom sock buf endpoint dead, .ok (.received ⟨-1, buf, endpoint⟩)⟩ := by
  obtain ⟨before, ⟨pre₀, ⟨op₀, ret₀⟩, post₀⟩, mid, r₁, mid', after, htr, h₀, -, -, -⟩ := h.history
  obtain ⟨sock, buf, endpoint, dead, hop, rfl⟩ := h.receives
  obtain ⟨pre, ⟨op, ret⟩, post⟩ := r
  dsimp only at h₀ hop
  subst h₀ hop
  have hcut : tr = (before ++ [⟨pre₀, ⟨.interruptAll, ret₀⟩, post₀⟩]) ++ ((mid ++ r₁ :: mid') ++
      [⟨pre, ⟨.recvFrom sock buf endpoint dead, ret⟩, post⟩]) ++ after := by
    rw [htr]
    simp
  rw [hcut] at hrun
  obtain ⟨u, hfront, -⟩ := hrun.of_append
  obtain ⟨v, hfirst, hsecond⟩ := hfront.of_append
  obtain ⟨hbefore, hinterrupt, rfl⟩ := hfirst.of_snoc
  obtain ⟨hbetween, hrecv, -⟩ := hsecond.of_snoc
  -- the flag is raised by the interruption, and still up at the receive
  have hraised : Interrupted post₀.udpPcbMgr sock.block :=
    hinterrupt.interrupts (hbefore.invariant
      (I := fun s => ∃ b, s.udpPcbMgr.block? sock.block = some b ∧ b.state = .OPEN)
      (fun hI hl => UdpEvent.Step.isOpen hl hI) hopen)
  have hstill : Interrupted pre.udpPcbMgr sock.block :=
    hbetween.invariant (I := fun s => Interrupted s.udpPcbMgr sock.block)
      (fun hI hl => UdpEvent.Step.interrupted hl hI) hraised
  obtain ⟨rfl, hpost⟩ := hrecv.recvFrom_interrupted hstill
  refine ⟨?_, hpost, sock, buf, endpoint, dead, rfl⟩
  rintro ⟨_, _, _, _, _, _, received, -, hlabel, hlen, -⟩
  cases hlabel
  exact hlen rfl

/-! ### A receive that was aborted -/

/-- The socket of `exampleBound`, interrupted. -/
def interruptedStack : Stack := withTable exampleBound.interruptAll

/-- With a datagram in its queue. -/
def interruptedQueued : Stack :=
  UdpHandler.deliver interruptedStack 0 (UdpHandler.datagram exampleDatagram)

/-- A receive on the socket, and how it ends. -/
def abortedReceive (dead : DeadRead) : UdpEvent :=
  ⟨.recvFrom (exampleSocket 0) exampleBuffer ⟨0, 0⟩ dead,
    .ok (.received ⟨-1, exampleBuffer, ⟨0, 0⟩⟩)⟩

/-- The socket is interrupted and a receive on it aborted; then a datagram arrives, and is asked
for. -/
def abortTrace (dead : DeadRead) : List UdpRecord :=
  [⟨withTable exampleBound, ⟨.interruptAll, .ok (.interrupted 0)⟩, interruptedStack⟩,
    ⟨interruptedStack, abortedReceive dead, interruptedStack⟩,
    ⟨interruptedStack, ⟨.handle exampleDatagram, .ok (.handled 0)⟩, interruptedQueued⟩,
    ⟨interruptedQueued, abortedReceive dead, interruptedQueued⟩]

set_option maxRecDepth 10000 in
theorem abortTrace_run (dead : DeadRead) :
    UdpRun exampleConfig (withTable exampleBound) (abortTrace dead) interruptedQueued :=
  (((Runs.Run.nil.snoc rfl).snoc rfl).snoc rfl).snoc rfl

theorem abortTrace_shouldServe (dead : DeadRead) :
    ShouldServe 0 (abortTrace dead)
      ⟨interruptedQueued, abortedReceive dead, interruptedQueued⟩ where
  receives := ⟨_, _, _, _, rfl, rfl⟩
  waiting := by
    intro h
    cases h
  history := ⟨[], _, [], _, [_], [], rfl, rfl, by simp, ⟨_, _, _, _, rfl, rfl⟩, _, rfl, rfl⟩

/-- The second receive of the run is not served. -/
theorem udpRun_neverServes_abort :
    ¬ ServesFront 0 ⟨interruptedQueued, abortedReceive ⟨8, ⟨0xC0000201, 1000⟩⟩,
      interruptedQueued⟩ :=
  (udpRun_neverServes exampleConfig (abortTrace_run _) ⟨_, rfl, rfl⟩ (abortTrace_shouldServe _)).1

/-- The run goes on from a state the program reaches, and the second receive should be served. -/
theorem not_forall_servesAgain :
    ¬ ∀ (cfg : Config) (s t : Stack) (setup tr : List UdpRecord) (i : ℕ) (r : UdpRecord),
      UdpRun cfg (withTable .init) setup s → UdpRun cfg s tr t →
      (∃ b, s.udpPcbMgr.block? i = some b ∧ b.state = .OPEN) → ShouldServe i tr r →
        ServesFront i r := by
  intro h
  have hserves := h _ _ _ _ _ 0 _ (recvTrace_run ⟨8, ⟨0xC0000201, 1000⟩⟩)
    (abortTrace_run ⟨8, ⟨0xC0000201, 1000⟩⟩) ⟨_, rfl, rfl⟩ (abortTrace_shouldServe _)
  obtain ⟨_, _, _, _, _, _, received, -, hlabel, hlen, -⟩ := hserves
  cases hlabel
  exact hlen rfl

end Suika
