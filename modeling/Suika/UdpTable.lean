import Suika.UdpSocket

/-!
# Who owns a UDP endpoint

`select` gives a datagram to the first open block that covers its destination. These are the
invariants of the table over whole runs, from `UdpOp.effect`:

* no two open blocks cover one destination, exactly as long as no step of the run puts a wildcard
  endpoint over a port that another block holds at a concrete address (`udpRun_uniqueOwners_iff`);
* a port that `sendTo` has picked for a wildcard socket stays with that socket for as long as the
  socket is not bound again (`udpRun_ephemeral`);
* a socket without a port receives nothing, exactly as long as no accepted datagram for port 0 meets
  one (`udpRun_unboundSilent_iff`).

`select` finds a wildcard block for every address, but a concrete block only for its own: that is
why the test `bind` makes before it sets a wildcard endpoint says nothing about concrete ones.
-/

namespace Suika

open Cpp UdpPcbManager

/-! ## Endpoints and their overlap -/

/-- Two endpoints cover a common destination. -/
def IpEndpoint.Overlaps (e₁ e₂ : IpEndpoint) : Prop :=
  e₁.port ≠ 0 ∧ e₁.port = e₂.port ∧
    (e₁.addr = ipAddrAny ∨ e₂.addr = ipAddrAny ∨ e₁.addr = e₂.addr)

theorem IpEndpoint.Overlaps.symm {e₁ e₂ : IpEndpoint} (h : e₁.Overlaps e₂) : e₂.Overlaps e₁ := by
  obtain ⟨hne, hport, haddr⟩ := h
  refine ⟨hport ▸ hne, hport.symm, ?_⟩
  rcases haddr with h | h | h
  · exact Or.inr (Or.inl h)
  · exact Or.inl h
  · exact Or.inr (Or.inr h.symm)

/-- For every address and every port but 0, at most one open block meets the condition of
`select`. -/
def UniqueOwners (m : UdpPcbManager) : Prop :=
  ∀ (a : UInt32) (p : UInt16), p ≠ 0 → ∀ i j b c, m.block? i = some b → m.block? j = some c →
    b.Matches a p → c.Matches a p → i = j

/-- The same without quantifying over addresses and ports. -/
theorem uniqueOwners_iff {m : UdpPcbManager} :
    UniqueOwners m ↔ ∀ i j b c, i ≠ j → m.block? i = some b → m.block? j = some c →
      b.state = .OPEN → c.state = .OPEN → ¬ b.endpoint.Overlaps c.endpoint := by
  refine ⟨?_, ?_⟩
  · rintro h i j b c hij hb hc hbo hco ⟨hne, hport, haddr⟩
    rcases haddr with hany | hany | heq
    · exact hij (h c.endpoint.addr _ hne i j b c hb hc ⟨hbo, Or.inl hany, rfl⟩
        ⟨hco, Or.inr rfl, hport.symm⟩)
    · exact hij (h b.endpoint.addr _ hne i j b c hb hc ⟨hbo, Or.inr rfl, rfl⟩
        ⟨hco, Or.inl hany, hport.symm⟩)
    · exact hij (h b.endpoint.addr _ hne i j b c hb hc ⟨hbo, Or.inr rfl, rfl⟩
        ⟨hco, Or.inr heq.symm, hport.symm⟩)
  · rintro h a p hp i j b c hb hc ⟨hbo, hba, hbp⟩ ⟨hco, hca, hcp⟩
    by_contra hij
    refine h i j b c hij hb hc hbo hco ⟨hbp ▸ hp, hbp.trans hcp.symm, ?_⟩
    rcases hba with hba | hba
    · exact Or.inl hba
    · rcases hca with hca | hca
      · exact Or.inr (Or.inl hca)
      · exact Or.inr (Or.inr (hba.trans hca.symm))

/-! ## What changes endpoints, and what does not -/

/-- States and endpoints are the same in both tables. -/
def SameEndpoints (m m' : UdpPcbManager) : Prop :=
  ∀ i, (m'.block? i).map (fun b => (b.state, b.endpoint)) =
    (m.block? i).map (fun b => (b.state, b.endpoint))

theorem SameEndpoints.symm {m m' : UdpPcbManager} (h : SameEndpoints m m') : SameEndpoints m' m :=
  fun i => (h i).symm

theorem SameEndpoints.block? {m m' : UdpPcbManager} {i : ℕ} {c : UdpControlBlock}
    (h : SameEndpoints m m') (hc : m'.block? i = some c) :
    ∃ b, m.block? i = some b ∧ b.state = c.state ∧ b.endpoint = c.endpoint := by
  have hi := h i
  rw [hc, Option.map_some] at hi
  obtain ⟨b, hb, heq⟩ := Option.map_eq_some_iff.mp hi.symm
  obtain ⟨hstate, hendpoint⟩ := Prod.mk.inj heq
  exact ⟨b, hb, hstate, hendpoint⟩

theorem sameEndpoints_modify {m : UdpPcbManager} (i : ℕ) {f : UdpControlBlock → UdpControlBlock}
    (hf : ∀ b, (f b).state = b.state ∧ (f b).endpoint = b.endpoint) :
    SameEndpoints m (m.modify i f) := by
  intro j
  by_cases hj : i = j
  · subst hj
    rw [block?_modify_self, Option.map_map]
    congr 1
    funext b
    exact Prod.ext (hf b).1 (hf b).2
  · rw [block?_modify_ne f hj]

theorem sameEndpoints_interruptAll (m : UdpPcbManager) : SameEndpoints m m.interruptAll := by
  intro i
  rw [block?_interruptAll, Option.map_map]
  congr 1
  funext b
  dsimp only [Function.comp]
  split <;> rfl

theorem UniqueOwners.of_same {m m' : UdpPcbManager} (hm : UniqueOwners m)
    (h : SameEndpoints m m') : UniqueOwners m' := by
  rw [uniqueOwners_iff] at hm ⊢
  intro i j b c hij hb hc hbo hco
  obtain ⟨b₀, hb₀, hbs, hbe⟩ := h.block? hb
  obtain ⟨c₀, hc₀, hcs, hce⟩ := h.block? hc
  rw [← hbe, ← hce]
  exact hm i j b₀ c₀ hij hb₀ hc₀ (hbs.trans hbo) (hcs.trans hco)

/-- Changing one block keeps owners unique when its new endpoint overlaps with no other. -/
theorem UniqueOwners.modify {m : UdpPcbManager} {i : ℕ} {f : UdpControlBlock → UdpControlBlock}
    (hm : UniqueOwners m)
    (hf : ∀ b, m.block? i = some b → (f b).state = .OPEN → ∀ j c, j ≠ i → m.block? j = some c →
      c.state = .OPEN → ¬ (f b).endpoint.Overlaps c.endpoint) : UniqueOwners (m.modify i f) := by
  rw [uniqueOwners_iff] at hm ⊢
  intro j k b c hjk hb hc hbo hco
  obtain ⟨hj, b₀, hb₀, rfl⟩ | ⟨hj, hb₀⟩ := block?_modify_cases hb
  · obtain ⟨hk, -⟩ | ⟨hk, hc₀⟩ := block?_modify_cases hc
    · exact absurd (hj.trans hk.symm) hjk
    · exact hf b₀ hb₀ hbo k c hk hc₀ hco
  · obtain ⟨hk, c₀, hc₀, rfl⟩ | ⟨hk, hc₀⟩ := block?_modify_cases hc
    · exact fun hover => hf c₀ hc₀ hco j b hj hb₀ hbo hover.symm
    · exact hm j k b c hjk hb₀ hc₀ hbo hco

/-- If it overlaps with another one, owners are not unique any more. -/
theorem UniqueOwners.not_modify {m : UdpPcbManager} {i j : ℕ}
    {f : UdpControlBlock → UdpControlBlock} {b c : UdpControlBlock} (hb : m.block? i = some b)
    (hc : m.block? j = some c) (hj : j ≠ i) (hbo : (f b).state = .OPEN) (hco : c.state = .OPEN)
    (hover : (f b).endpoint.Overlaps c.endpoint) : ¬ UniqueOwners (m.modify i f) := by
  intro h
  have hb' : (m.modify i f).block? i = some (f b) := by rw [block?_modify_self, hb, Option.map_some]
  have hc' : (m.modify i f).block? j = some c := by rw [block?_modify_ne f (Ne.symm hj), hc]
  exact uniqueOwners_iff.mp h i j (f b) c (Ne.symm hj) hb' hc' hbo hco hover

/-- What `select` did not find overlaps only with a wildcard. -/
theorem not_overlaps_of_select {m : UdpPcbManager} {a : UInt32} {p : UInt16} {j : ℕ}
    {c : UdpControlBlock} (hsel : m.select a p = none) (hc : m.block? j = some c)
    (hco : c.state = .OPEN) (hport : c.endpoint.port = p) :
    c.endpoint.addr ≠ ipAddrAny ∧ c.endpoint.addr ≠ a := by
  have hno := select_eq_none.mp hsel j c hc
  exact ⟨fun hany => hno ⟨hco, Or.inl hany, hport⟩, fun ha => hno ⟨hco, Or.inr ha, hport⟩⟩

/-! ## Unique owners over a run -/

/-- The first free port at an address, from `sourcePortMin` on. -/
def FirstFreePort (m : UdpPcbManager) (addr : UInt32) (p : UInt16) : Prop :=
  sourcePortMin ≤ p ∧ m.select addr p = none ∧
    ∀ q, sourcePortMin ≤ q → q < p → m.select addr q ≠ none

theorem FirstFreePort.unique {m : UdpPcbManager} {addr : UInt32} {p q : UInt16}
    (hp : FirstFreePort m addr p) (hq : FirstFreePort m addr q) : p = q := by
  rcases Nat.lt_trichotomy p.toNat q.toNat with h | h | h
  · exact absurd hp.2.1 (hq.2.2 p hp.1 (UInt16.lt_iff_toNat_lt.mpr h))
  · exact UInt16.toNat_inj.mp h
  · exact absurd hq.2.1 (hp.2.2 q hq.1 (UInt16.lt_iff_toNat_lt.mpr h))

/-- It is what the search of `sendTo` returns. -/
theorem searchPort_eq_some_iff {m : UdpPcbManager} {addr : UInt32} {p : UInt16} :
    UdpSocket.searchPort m addr 65536 sourcePortMin = some p ↔ FirstFreePort m addr p := by
  obtain ⟨q, hq, hmin, hfree, hbefore⟩ := UdpSocket.searchPort_sendTo m addr
  have hfirst : FirstFreePort m addr q := ⟨hmin, hfree, hbefore⟩
  rw [hq]
  exact ⟨fun h => Option.some.inj h ▸ hfirst, fun h => congrArg some (hfirst.unique h)⟩

/-- The steps that keep owners unique, by the state before them.
* A `bind` of an open socket to `0.0.0.0`, where `select` finds no wildcard for the port, must not
  meet another open block with that port.
* A `sendTo` that gives a wildcard socket its port must not find the first port free at the local
  address in another open block. -/
def UdpOp.KeepsOwners (cfg : Config) (m : UdpPcbManager) : UdpOp → Prop
  | .bind sock ipv4str port => ∀ b, m.block? sock.block = some b → b.state = .OPEN →
      ipv4strToUint32 ipv4str = .ok ipAddrAny → port ≠ 0 → m.select ipAddrAny port = none →
        ∀ j c, j ≠ sock.block → m.block? j = some c → c.state = .OPEN → c.endpoint.port ≠ port
  | .sendTo sock _ ipv4str _ => ∀ b a addr, m.block? sock.block = some b → b.state = .OPEN →
      b.endpoint = ⟨ipAddrAny, 0⟩ → ipv4strToUint32 ipv4str = .ok a →
        UdpSocket.localAddr cfg b a = .ok addr →
          ∀ j c, j ≠ sock.block → m.block? j = some c → c.state = .OPEN →
            ¬ FirstFreePort m addr c.endpoint.port
  | _ => True

/-- **One step** that meets its condition keeps owners unique. -/
theorem UdpEvent.Effect.uniqueOwners {cfg : Config} {m m' : UdpPcbManager} {ev : UdpEvent}
    (h : ev.Effect cfg m m') (hm : UniqueOwners m) (hev : ev.op.KeepsOwners cfg m) :
    UniqueOwners m' := by
  cases h with
  | idle => exact hm
  | opened halloc =>
    obtain ⟨-, rfl⟩ := alloc_eq_some halloc
    refine hm.modify fun b _ _ j c _ _ _ hover => ?_
    exact hover.1 rfl
  | @bound sock ipv4str a p ret ha hsel =>
    refine hm.modify fun b hb hbo j c hj hc hco hover => ?_
    obtain ⟨hne, hport, haddr⟩ := hover
    obtain ⟨hcany, hca⟩ := not_overlaps_of_select hsel hc hco hport.symm
    rcases haddr with hany | hany | heq
    · obtain rfl : a = ipAddrAny := hany
      exact hev b hb hbo ha hne hsel j c hj hc hco hport.symm
    · exact hcany hany
    · exact hca heq.symm
  | @assigned sock payload ipv4str port ret a addr b p ha hb hbo hbport haddr hp =>
    have hfirst := searchPort_eq_some_iff.mp hp
    refine hm.modify fun b' hb' _ j c hj hc hco hover => ?_
    obtain rfl : b' = b := Option.some.inj (hb'.symm.trans hb)
    obtain ⟨-, hport, hover⟩ := hover
    obtain ⟨hcany, hca⟩ := not_overlaps_of_select hfirst.2.1 hc hco hport.symm
    -- the search asked for the local address: a wildcard socket also overlaps with other addresses,
    -- and there only the condition helps
    by_cases hbany : b'.endpoint.addr = ipAddrAny
    · have hbe : b'.endpoint = ⟨ipAddrAny, 0⟩ := by rw [← hbany, ← hbport]
      have hport' : p = c.endpoint.port := hport
      exact hev b' a addr hb hbo hbe ha haddr j c hj hc hco (hport' ▸ hfirst)
    · rw [UdpSocket.localAddr, if_neg hbany] at haddr
      cases haddr
      rcases hover with hany | hany | heq
      · exact hbany hany
      · exact hcany hany
      · exact hca heq.symm
  | queued => exact hm.of_same (sameEndpoints_modify _ fun _ => ⟨rfl, rfl⟩)
  | taken => exact hm.of_same (sameEndpoints_modify _ fun _ => ⟨rfl, rfl⟩)
  | interrupted => exact hm.of_same (sameEndpoints_interruptAll m)

/-- A step that does not meet it breaks them. -/
theorem UdpEvent.Step.keepsOwners {cfg : Config} {s t : Stack} {ev : UdpEvent}
    (h : ev.Step cfg s t) (ht : UniqueOwners t.udpPcbMgr) :
    ev.op.KeepsOwners cfg s.udpPcbMgr := by
  have hnext := h.next?
  obtain ⟨op, ret⟩ := ev
  cases op with
  | bind sock ipv4str p =>
    intro b hb hbo ha hp hsel j c hj hc hco hport
    rw [UdpOp.exec, Comp.next?_bind_pure, UdpSocket.bind_run ha, hsel, hb] at hnext
    cases hnext
    exact UniqueOwners.not_modify hb hc hj hbo hco ⟨hp, hport.symm, Or.inl rfl⟩ ht
  | sendTo sock payload ipv4str port =>
    intro b a addr hb hbo hbe ha haddr j c hj hc hco hfirst
    rw [UdpOp.exec, Comp.next?_bind_pure] at hnext
    have htable := UdpSocket.sendTo_assigns ha hb hbo (congrArg IpEndpoint.port hbe) haddr
      (searchPort_eq_some_iff.mpr hfirst) hnext
    rw [htable] at ht
    have hpos : c.endpoint.port ≠ 0 := by
      intro hzero
      have hmin := hfirst.1
      rw [hzero] at hmin
      exact absurd hmin (by decide)
    exact UniqueOwners.not_modify hb hc hj hbo hco
      ⟨hpos, rfl, Or.inl (congrArg IpEndpoint.addr hbe)⟩ ht
  | _ => trivial

theorem uniqueOwners_init : UniqueOwners UdpPcbManager.init := by
  rw [uniqueOwners_iff]
  intro i j b c _ hb _ hbo
  rw [block?_init (lt_of_block? hb)] at hb
  cases hb
  cases hbo

/-- **Unique owners over a run.** In every run from the initial table, owners are unique after each
step exactly when each step meets its condition. -/
theorem udpRun_uniqueOwners_iff (cfg : Config) {s t : Stack}
    {tr : List (Runs.Record Stack UdpEvent)} (hrun : UdpRun cfg s tr t)
    (hs : s.udpPcbMgr = UdpPcbManager.init) :
    (∀ r ∈ tr, UniqueOwners r.post.udpPcbMgr) ↔
      ∀ r ∈ tr, r.label.op.KeepsOwners cfg r.pre.udpPcbMgr := by
  refine ⟨?_, ?_⟩
  · intro h r hr
    exact (hrun.record r hr).1.keepsOwners (h r hr)
  · intro h r hr
    obtain ⟨hstep, before, after, rfl, hbefore⟩ := hrun.record r hr
    have hpre : UniqueOwners r.pre.udpPcbMgr := by
      refine hbefore.invariant_of (I := fun s => UniqueOwners s.udpPcbMgr)
        (C := fun s ev => UdpOp.KeepsOwners cfg s.udpPcbMgr ev.op)
        (fun hI hC hl => hl.effect.uniqueOwners hI hC) ?_ fun q hq => ?_
      · rw [hs]
        exact uniqueOwners_init
      · exact h q (List.mem_append_left _ hq)
    exact hstep.effect.uniqueOwners hpre (h r hr)

/-! ### A wildcard behind a concrete address -/

/-- The socket over a block. -/
def exampleSocket (i : ℕ) : UdpSocket := ⟨i, i⟩

/-- The state at the start, with another table. -/
def withTable (m : UdpPcbManager) : Stack := { Stack.init with udpPcbMgr := m }

/-- The table after `alloc` returned block `i`. -/
def openTable (m : UdpPcbManager) (i : ℕ) : UdpPcbManager :=
  m.modify i fun elm => { elm with state := .OPEN, id := i, endpoint := ⟨ipAddrAny, 0⟩ }

/-- Two open sockets. -/
def twoOpen : UdpPcbManager := openTable (openTable .init 0) 1

/-- The first one is bound to 192.0.2.2:5555. -/
def oneBound : UdpPcbManager := UdpSocket.bindTable twoOpen (exampleSocket 0) 0xC0000202 5555

/-- The second one to 0.0.0.0:5555. -/
def bothBound : UdpPcbManager := UdpSocket.bindTable oneBound (exampleSocket 1) 0x00000000 5555

/-- Two sockets are opened and bound, the first to 192.0.2.2:5555, the second to 0.0.0.0:5555. -/
def bindTrace : List (Runs.Record Stack UdpEvent) :=
  [⟨withTable .init, ⟨.open, .ok (.opened (.ok (exampleSocket 0)))⟩, withTable (openTable .init 0)⟩,
    ⟨withTable (openTable .init 0), ⟨.open, .ok (.opened (.ok (exampleSocket 1)))⟩,
      withTable twoOpen⟩,
    ⟨withTable twoOpen, ⟨.bind (exampleSocket 0) "192.0.2.2".toList 5555, .ok (.bound (.ok 0))⟩,
      withTable oneBound⟩,
    ⟨withTable oneBound, ⟨.bind (exampleSocket 1) "0.0.0.0".toList 5555, .ok (.bound (.ok 0))⟩,
      withTable bothBound⟩]

set_option maxRecDepth 10000 in
theorem bindTrace_run : UdpRun exampleConfig (withTable .init) bindTrace (withTable bothBound) :=
  (((Runs.Run.nil.snoc rfl).snoc rfl).snoc rfl).snoc rfl

/-- Both binds succeed; the run breaks the condition. -/
theorem bindTrace_uniqueOwners_iff :
    (∀ r ∈ bindTrace, UniqueOwners r.post.udpPcbMgr) ↔
      ∀ r ∈ bindTrace, r.label.op.KeepsOwners exampleConfig r.pre.udpPcbMgr :=
  udpRun_uniqueOwners_iff exampleConfig bindTrace_run rfl

/-- After these four calls two open blocks cover 192.0.2.2:5555. -/
theorem not_forall_uniqueOwners :
    ¬ ∀ (cfg : Config) (s t : Stack) (tr : List (Runs.Record Stack UdpEvent)), UdpRun cfg s tr t →
      s.udpPcbMgr = UdpPcbManager.init → UniqueOwners t.udpPcbMgr := by
  intro h
  have howners : UniqueOwners bothBound := h _ _ _ _ bindTrace_run rfl
  exact absurd (howners 0xC0000202 5555 (by decide) 0 1 _ _ rfl rfl ⟨rfl, Or.inr rfl, rfl⟩
    ⟨rfl, Or.inl rfl, rfl⟩) (by decide)

/-! ## A port that `sendTo` picked -/

/-- Block `i` owns port `p` at the wildcard; whoever else has the port has it at some other concrete
address than `addr`. -/
structure OwnsPort (m : UdpPcbManager) (i : ℕ) (addr : UInt32) (p : UInt16) : Prop where
  owner : ∃ b, m.block? i = some b ∧ b.state = .OPEN ∧ b.endpoint = ⟨ipAddrAny, p⟩
  others : ∀ j c, j ≠ i → m.block? j = some c → c.state = .OPEN → c.endpoint.port = p →
    c.endpoint.addr ≠ ipAddrAny ∧ c.endpoint.addr ≠ addr

/-- No block but `i` acquires the port. -/
def NoneAcquires (m m' : UdpPcbManager) (i : ℕ) (p : UInt16) : Prop :=
  ∀ j c', j ≠ i → m'.block? j = some c' → c'.state = .OPEN → c'.endpoint.port = p →
    ∃ c, m.block? j = some c ∧ c.state = .OPEN ∧ c.endpoint = c'.endpoint

variable {cfg : Config} {m m' : UdpPcbManager} {i : ℕ} {addr : UInt32} {p : UInt16}

/-- The owner is found for every address: nobody can take its port. -/
theorem OwnsPort.select_ne_none (h : OwnsPort m i addr p) (a : UInt32) : m.select a p ≠ none := by
  obtain ⟨b, hb, hbo, hbe⟩ := h.owner
  exact UdpPcbManager.select_ne_none hb
    ⟨hbo, Or.inl (congrArg IpEndpoint.addr hbe), congrArg IpEndpoint.port hbe⟩

/-- **The owner gets the datagrams** for its port at `addr`. -/
theorem OwnsPort.select (h : OwnsPort m i addr p) : m.select addr p = some i := by
  obtain ⟨b, hb, hbo, hbe⟩ := h.owner
  refine select_eq_some.mpr ⟨⟨b, hb, hbo, Or.inl (congrArg IpEndpoint.addr hbe),
    congrArg IpEndpoint.port hbe⟩, fun j c hj hc hm => ?_⟩
  obtain ⟨hany, ha⟩ := h.others j c (by omega) hc hm.1 hm.2.2
  exact hm.2.1.elim hany ha

/-- Others keep what they had when a step acquires nothing. -/
theorem OwnsPort.of_noneAcquires (h : OwnsPort m i addr p) (hnone : NoneAcquires m m' i p)
    (howner : ∃ b, m'.block? i = some b ∧ b.state = .OPEN ∧ b.endpoint = ⟨ipAddrAny, p⟩) :
    OwnsPort m' i addr p := by
  refine ⟨howner, fun j c hj hc hco hport => ?_⟩
  obtain ⟨c₀, hc₀, hco₀, hce⟩ := hnone j c hj hc hco hport
  rw [← hce]
  exact h.others j c₀ hj hc₀ hco₀ (by rw [hce]; exact hport)

theorem noneAcquires_of_same (h : SameEndpoints m m') : NoneAcquires m m' i p := by
  intro j c' _ hc' hco _
  obtain ⟨c, hc, hcs, hce⟩ := h.block? hc'
  exact ⟨c, hc, hcs.trans hco, hce⟩

theorem OwnsPort.owner_of_same (h : OwnsPort m i addr p) (hsame : SameEndpoints m m') :
    ∃ b, m'.block? i = some b ∧ b.state = .OPEN ∧ b.endpoint = ⟨ipAddrAny, p⟩ := by
  obtain ⟨b, hb, hbo, hbe⟩ := h.owner
  obtain ⟨b', hb', hbs', hbe'⟩ := hsame.symm.block? hb
  exact ⟨b', hb', hbs'.trans hbo, hbe'.trans hbe⟩

/-- A change of another block that does not end in the port. -/
theorem noneAcquires_modify {k : ℕ} {f : UdpControlBlock → UdpControlBlock}
    (hf : ∀ c, m.block? k = some c → k ≠ i → (f c).state = .OPEN → (f c).endpoint.port ≠ p) :
    NoneAcquires m (m.modify k f) i p := by
  intro j c' hj hc' hco hport
  obtain ⟨rfl, c, hc, rfl⟩ | ⟨-, hc⟩ := block?_modify_cases hc'
  · exact absurd hport (hf c hc hj hco)
  · exact ⟨c', hc, hco, rfl⟩

theorem OwnsPort.owner_of_modify_ne (h : OwnsPort m i addr p) {k : ℕ}
    (f : UdpControlBlock → UdpControlBlock) (hk : k ≠ i) :
    ∃ b, (m.modify k f).block? i = some b ∧ b.state = .OPEN ∧ b.endpoint = ⟨ipAddrAny, p⟩ := by
  obtain ⟨b, hb, hbo, hbe⟩ := h.owner
  exact ⟨b, by rw [block?_modify_ne f hk, hb], hbo, hbe⟩

/-- Another block comes to another port. -/
theorem OwnsPort.modify_ne (h : OwnsPort m i addr p) {k : ℕ}
    {f : UdpControlBlock → UdpControlBlock} (hk : k ≠ i)
    (hf : ∀ b, m.block? k = some b → (f b).endpoint.port ≠ p) :
    NoneAcquires m (m.modify k f) i p ∧ OwnsPort (m.modify k f) i addr p := by
  have hnone : NoneAcquires m (m.modify k f) i p := noneAcquires_modify fun b hb _ _ => hf b hb
  exact ⟨hnone, h.of_noneAcquires hnone (h.owner_of_modify_ne f hk)⟩

/-- **One step** that is no `bind` of the owner leaves the port where it is. -/
theorem UdpEvent.Effect.ownsPort {ev : UdpEvent} (h : ev.Effect cfg m m')
    (hm : OwnsPort m i addr p) (hp : p ≠ 0)
    (hev : ∀ sock ipv4str port, ev.op = .bind sock ipv4str port → sock.block ≠ i) :
    NoneAcquires m m' i p ∧ OwnsPort m' i addr p := by
  have hsame : SameEndpoints m m' → NoneAcquires m m' i p ∧ OwnsPort m' i addr p := fun hs =>
    ⟨noneAcquires_of_same hs, hm.of_noneAcquires (noneAcquires_of_same hs) (hm.owner_of_same hs)⟩
  cases h with
  | idle => exact hsame fun _ => rfl
  | @opened _ k _ halloc =>
    obtain ⟨⟨b, hb, hfree⟩, rfl⟩ := alloc_eq_some halloc
    -- the block that was opened was free
    have hk : k ≠ i := by
      rintro rfl
      obtain ⟨b', hb', hbo, -⟩ := hm.owner
      cases hb.symm.trans hb'
      cases hfree.symm.trans hbo
    exact hm.modify_ne hk fun _ _ => hp.symm
  | @bound sock ipv4str a q ret ha hsel =>
    have hk : sock.block ≠ i := hev sock ipv4str q rfl
    have hq : q ≠ p := by
      rintro rfl
      exact hm.select_ne_none a hsel
    exact hm.modify_ne hk fun _ _ => hq
  | @assigned sock payload ipv4str port ret a addr' b q ha hb hbo hbport haddr hq =>
    have hk : sock.block ≠ i := by
      rintro rfl
      obtain ⟨b', hb', -, hbe⟩ := hm.owner
      cases hb.symm.trans hb'
      rw [hbe] at hbport
      exact hp hbport
    have hne : q ≠ p := by
      rintro rfl
      exact hm.select_ne_none _ (searchPort_eq_some_iff.mp hq).2.1
    exact hm.modify_ne hk fun _ _ => hne
  | queued => exact hsame (sameEndpoints_modify _ fun _ => ⟨rfl, rfl⟩)
  | taken => exact hsame (sameEndpoints_modify _ fun _ => ⟨rfl, rfl⟩)
  | interrupted => exact hsame (sameEndpoints_interruptAll m)

/-- The socket that was just given a port owns it. -/
theorem ownsPort_of_sendTo {route : Route} {routes : List Route} (hr : cfg.routes = route :: routes)
    {s t : Stack} {sock : UdpSocket} {payload : Bytes} {ipv4str : List Char} {port : UInt32}
    {ret : Except Err UdpRet} {b b' : UdpControlBlock}
    (hb : s.udpPcbMgr.block? sock.block = some b) (hbe : b.endpoint = ⟨ipAddrAny, 0⟩)
    (hstep : UdpEvent.Step cfg s ⟨.sendTo sock payload ipv4str port, ret⟩ t)
    (hb' : t.udpPcbMgr.block? sock.block = some b') (hbe' : b'.endpoint = ⟨ipAddrAny, p⟩)
    (hp : p ≠ 0) : OwnsPort t.udpPcbMgr sock.block route.interface.unicast p := by
  have heffect := hstep.effect
  generalize t.udpPcbMgr = m' at hb' heffect
  cases heffect with
  | idle =>
    cases hb.symm.trans hb'
    -- a block that was left alone still has port 0
    exact absurd (congrArg IpEndpoint.port (hbe.symm.trans hbe')).symm hp
  | @assigned _ _ _ _ _ a addr b₀ q ha hb₀ hbo hbport haddr hq =>
    cases hb.symm.trans hb₀
    have hblock := hb'
    rw [UdpSocket.assignTable, block?_modify_self, hb, Option.map_some] at hb'
    cases hb'
    obtain rfl : q = p := congrArg IpEndpoint.port hbe'
    have hlookup : cfg.lookup a = .ok route := by rw [Config.lookup, hr]
    rw [UdpSocket.localAddr, if_pos (congrArg IpEndpoint.addr hbe), hlookup] at haddr
    cases haddr
    refine ⟨⟨_, hblock, hbo, hbe'⟩, fun j c hj hc hco hport => ?_⟩
    rw [UdpSocket.assignTable, block?_modify_ne _ (Ne.symm hj)] at hc
    exact not_overlaps_of_select (searchPort_eq_some_iff.mp hq).2.1 hc hco hport

/-- **Replies reach the socket that sent.** Once `sendTo` has given a wildcard socket its port, then
through every run without a `bind` of that socket, `select` finds it for the port at the local
address, and no step lets another block acquire the port. -/
theorem udpRun_ephemeral {route : Route} {routes : List Route} (hr : cfg.routes = route :: routes)
    {s s₁ t : Stack} {sock : UdpSocket} {payload : Bytes} {ipv4str : List Char} {port : UInt32}
    {ret : Except Err UdpRet} {b b₁ : UdpControlBlock} {tr : List (Runs.Record Stack UdpEvent)}
    (hb : s.udpPcbMgr.block? sock.block = some b) (hbe : b.endpoint = ⟨ipAddrAny, 0⟩)
    (hstep : UdpEvent.Step cfg s ⟨.sendTo sock payload ipv4str port, ret⟩ s₁)
    (hb₁ : s₁.udpPcbMgr.block? sock.block = some b₁) (hbe₁ : b₁.endpoint = ⟨ipAddrAny, p⟩)
    (hp : p ≠ 0) (hrun : UdpRun cfg s₁ tr t)
    (hbind : ∀ r ∈ tr, ∀ sock' ipv4str' port', r.label.op = .bind sock' ipv4str' port' →
      sock'.block ≠ sock.block) :
    t.udpPcbMgr.select route.interface.unicast p = some sock.block ∧
      ∀ r ∈ tr, NoneAcquires r.pre.udpPcbMgr r.post.udpPcbMgr sock.block p := by
  have hown := ownsPort_of_sendTo hr hb hbe hstep hb₁ hbe₁ hp
  have hkept : ∀ {u : Stack} {tr' : List (Runs.Record Stack UdpEvent)}, UdpRun cfg s₁ tr' u →
      (∀ r ∈ tr', ∀ sock' ipv4str' port', r.label.op = .bind sock' ipv4str' port' →
        sock'.block ≠ sock.block) →
      OwnsPort u.udpPcbMgr sock.block route.interface.unicast p := by
    intro u tr' hrun' hbind'
    exact hrun'.invariant_of
      (I := fun s => OwnsPort s.udpPcbMgr sock.block route.interface.unicast p)
      (C := fun _ ev => ∀ sock' ipv4str' port', ev.op = .bind sock' ipv4str' port' →
        sock'.block ≠ sock.block)
      (fun hI hC hl => (hl.effect.ownsPort hI hp hC).2) hown hbind'
  refine ⟨(hkept hrun hbind).select, fun r hrtr => ?_⟩
  obtain ⟨hl, before, after, rfl, hbefore⟩ := hrun.record r hrtr
  have hpre := hkept hbefore fun q hq => hbind q (List.mem_append_left _ hq)
  exact (hl.effect.ownsPort hpre hp (hbind r hrtr)).1

set_option maxRecDepth 10000 in
/-- An open socket sends two bytes to 192.0.2.1:40000 and gets port 39584; it keeps the port while a
second socket is opened. -/
theorem udpRun_ephemeral_first :
    ∃ (s₁ t : Stack) (tr : List (Runs.Record Stack UdpEvent)), tr.length = 1 ∧
      UdpRun exampleConfig s₁ tr t ∧ t.udpPcbMgr.select 0xC0000202 39584 = some 0 := by
  have hsend : ∃ s₁, UdpEvent.Step exampleConfig (withTable (openTable .init 0))
      ⟨.sendTo (exampleSocket 0) [0x68, 0x69] "192.0.2.1".toList 40000,
        .error (.arpResolveException "not find arp cache. call arp reqest")⟩ s₁ ∧
        s₁.udpPcbMgr = UdpSocket.assignTable (openTable .init 0) (exampleSocket 0) 39584 :=
    ⟨_, rfl, rfl⟩
  obtain ⟨s₁, hstep, htable⟩ := hsend
  have hopen : UdpEvent.Step exampleConfig s₁ ⟨.open, .ok (.opened (.ok (exampleSocket 1)))⟩
      { s₁ with udpPcbMgr := openTable s₁.udpPcbMgr 1 } := by
    have halloc : s₁.udpPcbMgr.alloc = some (openTable s₁.udpPcbMgr 1, 1) := by
      rw [htable]
      rfl
    have hrun := UdpSocket.open_run (s := s₁)
    rw [halloc] at hrun
    exact Comp.bind_done hrun
  have hrun : UdpRun exampleConfig s₁ [_] _ := Runs.Run.nil.snoc hopen
  refine ⟨s₁, _, _, rfl, hrun, ?_⟩
  have hb₁ : s₁.udpPcbMgr.block? (exampleSocket 0).block =
      some { state := .OPEN, id := 0, endpoint := ⟨ipAddrAny, 39584⟩ } := by
    rw [htable]
    rfl
  have hroutes : exampleConfig.routes = [⟨0xC0000201, ⟨interfaceFamilyIp, 0xC0000202⟩⟩] := rfl
  exact (udpRun_ephemeral hroutes (b := { state := .OPEN, id := 0 }) rfl rfl hstep
    hb₁ rfl (by decide) hrun (by
      intro r hr sock' ipv4str' port' hop
      rw [List.mem_singleton.mp hr] at hop
      cases hop)).1

/-! ## Sockets without a port -/

/-- The step gives block `i` its port: a `bind` or a `sendTo` of a socket over it, which had
none. -/
def GivesPort (i : ℕ) (r : Runs.Record Stack UdpEvent) : Prop :=
  (∃ sock : UdpSocket, sock.block = i ∧
    ((∃ ipv4str port, r.label.op = .bind sock ipv4str port) ∨
      ∃ payload ipv4str port, r.label.op = .sendTo sock payload ipv4str port)) ∧
  (∃ b, r.pre.udpPcbMgr.block? i = some b ∧ b.endpoint.port = 0) ∧
  ∃ b, r.post.udpPcbMgr.block? i = some b ∧ b.endpoint.port ≠ 0

/-- After every part of the run, a block with something in its queue was given a port in it; and no
datagram is queued on a block without one. -/
structure UnboundSilent (cfg : Config) (s : Stack) (tr : List (Runs.Record Stack UdpEvent)) :
    Prop where
  given : ∀ before after u, tr = before ++ after → UdpRun cfg s before u →
    ∀ i b, u.udpPcbMgr.block? i = some b → b.que ≠ [] → ∃ r ∈ before, GivesPort i r
  refused : ∀ r ∈ tr, ∀ d, r.label.op = .handle d → ∀ i b, r.pre.udpPcbMgr.block? i = some b →
    b.endpoint.port = 0 → r.post.udpPcbMgr.block? i = some b

/-- The steps that keep sockets without a port silent, by the state before them: a datagram for port
0 whose checksum is accepted must not find an open socket that has no port. -/
def UdpOp.DropsPortZero (m : UdpPcbManager) : UdpOp → Prop
  | .handle d => udpChecksum d.src d.dst d.data = .ok 0 → u16 d.data 2 = 0 →
      m.select d.dst 0 = none
  | _ => True

/-- A block that has a port, or something in its queue, got its port in the history. -/
def PortsGiven (history : List (Runs.Record Stack UdpEvent)) (m : UdpPcbManager) : Prop :=
  ∀ i b, m.block? i = some b → b.endpoint.port ≠ 0 ∨ b.que ≠ [] → ∃ r ∈ history, GivesPort i r

/-- A step that changes one block, and puts nothing into its queue. -/
theorem PortsGiven.modify {history : List (Runs.Record Stack UdpEvent)} {k : ℕ}
    {f : UdpControlBlock → UdpControlBlock} (hm : PortsGiven history m)
    (hport : ∀ b, m.block? k = some b → b.endpoint.port = 0 → (f b).endpoint.port ≠ 0 →
      ∃ r ∈ history, GivesPort k r)
    (hque : ∀ b, m.block? k = some b → (f b).que ≠ [] → b.endpoint.port ≠ 0 ∨ b.que ≠ []) :
    PortsGiven history (m.modify k f) := by
  intro i b hb hne
  obtain ⟨rfl, b₀, hb₀, rfl⟩ | ⟨-, hb₀⟩ := block?_modify_cases hb
  · by_cases hzero : b₀.endpoint.port = 0
    · rcases hne with hne | hne
      · exact hport b₀ hb₀ hzero hne
      · exact hm i b₀ hb₀ (hque b₀ hb₀ hne)
    · exact hm i b₀ hb₀ (Or.inl hzero)
  · exact hm i b hb₀ hne

theorem PortsGiven.mono {history : List (Runs.Record Stack UdpEvent)}
    {r : Runs.Record Stack UdpEvent} (hm : PortsGiven history m) :
    PortsGiven (history ++ [r]) m := by
  intro i b hb hne
  obtain ⟨q, hq, hgives⟩ := hm i b hb hne
  exact ⟨q, List.mem_append_left _ hq, hgives⟩

/-- **One step** that meets its condition. -/
theorem UdpEvent.Step.portsGiven {s t : Stack} {ev : UdpEvent}
    {history : List (Runs.Record Stack UdpEvent)} (h : ev.Step cfg s t)
    (hs : PortsGiven history s.udpPcbMgr) (hev : ev.op.DropsPortZero s.udpPcbMgr) :
    PortsGiven (history ++ [⟨s, ev, t⟩]) t.udpPcbMgr := by
  have hlast : (⟨s, ev, t⟩ : Runs.Record Stack UdpEvent) ∈ history ++ [⟨s, ev, t⟩] :=
    List.mem_append_right _ (List.mem_singleton_self _)
  have heffect := h.effect
  generalize hm' : t.udpPcbMgr = m' at heffect ⊢
  cases heffect with
  | idle => exact hs.mono
  | @opened m' k ret halloc =>
    obtain ⟨-, rfl⟩ := alloc_eq_some halloc
    exact hs.mono.modify (fun _ _ _ hne => absurd rfl hne) fun b hb hne => Or.inr hne
  | @bound sock ipv4str a q ret ha hsel =>
    refine hs.mono.modify (fun b hb hzero hne => ⟨_, hlast, ⟨sock, rfl, Or.inl ⟨_, _, rfl⟩⟩,
      ⟨b, hb, hzero⟩, { b with endpoint := ⟨a, q⟩ }, ?_, hne⟩) fun b hb hne => Or.inr hne
    dsimp only
    rw [hm', UdpSocket.bindTable, block?_modify_self, hb, Option.map_some]
  | @assigned sock payload ipv4str port ret a addr b₀ q ha hb₀ hbo hbport haddr hq =>
    refine hs.mono.modify (fun b hb hzero hne => ⟨_, hlast,
      ⟨sock, rfl, Or.inr ⟨_, _, _, rfl⟩⟩, ⟨b, hb, hzero⟩,
      { b with endpoint := ⟨b.endpoint.addr, q⟩ }, ?_, hne⟩) fun b hb hne => Or.inr hne
    dsimp only
    rw [hm', UdpSocket.assignTable, block?_modify_self, hb, Option.map_some]
  | @queued d i hsel =>
    -- the block that was found has the port asked for, and that is not 0
    obtain ⟨⟨c, hc, -, -, hcport⟩, -⟩ := select_eq_some.mp hsel
    have hne : u16 d.data 2 ≠ 0 := by
      intro hzero
      obtain ⟨u, v, hdone, -⟩ := Comp.bind_eq_done h
      have hnone := hev (UdpHandler.accepted_of_done hdone).2 hzero
      rw [hzero, hnone] at hsel
      cases hsel
    refine hs.mono.modify (fun b hb hzero hport => absurd hzero hport) fun b hb _ => Or.inl ?_
    obtain rfl : b = c := Option.some.inj (hb.symm.trans hc)
    rw [hcport]
    exact hne
  | @taken sock buf endpoint dead b₀ payload rest hb₀ hint hque hfit =>
    refine hs.mono.modify (fun b hb hzero hport => absurd hzero hport) fun b hb _ => Or.inr ?_
    obtain rfl : b = b₀ := Option.some.inj (hb.symm.trans hb₀)
    rw [hque]
    exact List.cons_ne_nil _ _
  | interrupted =>
    intro i b hb hne
    obtain ⟨c, hc, rfl⟩ := Option.map_eq_some_iff.mp (block?_interruptAll.symm.trans hb)
    refine hs.mono i c hc ?_
    split at hne <;> exact hne

/-- A datagram for port 0 that is accepted and meets an open socket without a port is queued there:
`handle` cannot have left the block alone. -/
theorem UdpEvent.Step.dropsPortZero {s t : Stack} {ev : UdpEvent} (h : ev.Step cfg s t)
    (hrefused : ∀ d, ev.op = .handle d → ∀ i b, s.udpPcbMgr.block? i = some b →
      b.endpoint.port = 0 → t.udpPcbMgr.block? i = some b) :
    ev.op.DropsPortZero s.udpPcbMgr := by
  have hnext := h.next?
  obtain ⟨op, ret⟩ := ev
  cases op with
  | handle d =>
    intro hc hzero
    by_contra hsome
    obtain ⟨i, hi⟩ := Option.ne_none_iff_exists'.mp hsome
    obtain ⟨⟨b, hb, -, -, hbport⟩, -⟩ := select_eq_some.mp hi
    have hkept := hrefused d rfl i b hb hbport
    rw [UdpOp.exec, Comp.next?_bind_pure] at hnext
    by_cases h8 : 8 ≤ d.data.length
    · rw [UdpHandler.handle_accepted h8 hc, hzero, hi] at hnext
      dsimp only at hnext
      split at hnext
      · cases hnext
        rw [UdpHandler.deliver, block?_modify_self, hb, Option.map_some] at hkept
        have hque := congrArg UdpControlBlock.que (Option.some.inj hkept)
        exact absurd hque (by simp)
      · cases hnext
    · rw [UdpHandler.handle_short (Nat.lt_of_not_le h8)] at hnext
      cases hnext
  | _ => trivial

/-- A step that meets its condition leaves a block without a port alone. -/
theorem UdpEvent.Step.refused {s t : Stack} {d : Ipv4ProtocolData} {ret : Except Err UdpRet}
    (h : UdpEvent.Step cfg s ⟨.handle d, ret⟩ t)
    (hev : UdpOp.DropsPortZero s.udpPcbMgr (.handle d)) {i : ℕ} {b : UdpControlBlock}
    (hb : s.udpPcbMgr.block? i = some b) (hzero : b.endpoint.port = 0) :
    t.udpPcbMgr.block? i = some b := by
  have heffect := h.effect
  generalize t.udpPcbMgr = m' at heffect ⊢
  cases heffect with
  | idle => exact hb
  | @queued d k hsel =>
    obtain ⟨⟨c, hc, -, -, hcport⟩, -⟩ := select_eq_some.mp hsel
    have hk : k ≠ i := by
      rintro rfl
      obtain rfl : b = c := Option.some.inj (hb.symm.trans hc)
      obtain ⟨u, v, hdone, -⟩ := Comp.bind_eq_done h
      have hport : u16 d.data 2 = 0 := hcport.symm.trans hzero
      have hnone := hev (UdpHandler.accepted_of_done hdone).2 hport
      rw [hport, hnone] at hsel
      cases hsel
    rw [block?_modify_ne _ hk, hb]

theorem portsGiven_init : PortsGiven [] UdpPcbManager.init := by
  intro i b hb hne
  rw [block?_init (lt_of_block? hb)] at hb
  cases hb
  rcases hne with hne | hne
  · exact absurd rfl hne
  · exact absurd rfl hne

/-- **Sockets without a port are silent** in a run from the initial table exactly when each step
meets its condition. -/
theorem udpRun_unboundSilent_iff (cfg : Config) {s t : Stack}
    {tr : List (Runs.Record Stack UdpEvent)} (hrun : UdpRun cfg s tr t)
    (hs : s.udpPcbMgr = UdpPcbManager.init) :
    UnboundSilent cfg s tr ↔ ∀ r ∈ tr, r.label.op.DropsPortZero r.pre.udpPcbMgr := by
  refine ⟨?_, ?_⟩
  · intro h r hr
    exact (hrun.record r hr).1.dropsPortZero fun d hd i b => h.refused r hr d hd i b
  · intro h
    have hgiven : ∀ {before u}, UdpRun cfg s before u →
        (∀ r ∈ before, r.label.op.DropsPortZero r.pre.udpPcbMgr) →
        PortsGiven before u.udpPcbMgr := by
      intro before u hbefore hcond
      induction hbefore with
      | nil =>
        rw [hs]
        exact portsGiven_init
      | @snoc before v w ev _ hstep ih =>
        exact hstep.portsGiven (ih fun r hr => hcond r (List.mem_append_left _ hr))
          (hcond ⟨v, ev, w⟩ (List.mem_append_right _ (List.mem_singleton_self _)))
    refine ⟨?_, ?_⟩
    · rintro before after u rfl hbefore i b hb hne
      exact hgiven hbefore (fun r hr => h r (List.mem_append_left _ hr)) i b hb (Or.inr hne)
    · rintro ⟨pre, ⟨op, ret⟩, post⟩ hr d rfl i b hb hzero
      exact (hrun.record _ hr).1.refused (h _ hr) hb hzero

/-- A segment without payload from 192.0.2.1:5555 to 192.0.2.2:5555. -/
def boundDatagram : Ipv4ProtocolData :=
  ⟨udpType, udpSegment 5555 5555 8 20596 [], 0xC0000201, 0xC0000202,
    ⟨interfaceFamilyIp, 0xC0000202⟩⟩

/-- The state after it arrived, with one of two sockets bound. -/
def boundDelivered : Stack :=
  UdpHandler.deliver (withTable oneBound) 0 (UdpHandler.datagram boundDatagram)

/-- Two sockets are opened, the first is bound, and the segment arrives. -/
def deliveryTrace : List (Runs.Record Stack UdpEvent) :=
  bindTrace.take 3 ++
    [⟨withTable oneBound, ⟨.handle boundDatagram, .ok (.handled 0)⟩, boundDelivered⟩]

set_option maxRecDepth 10000 in
theorem deliveryTrace_run :
    UdpRun exampleConfig (withTable .init) deliveryTrace boundDelivered := by
  have hc : udpChecksum boundDatagram.src boundDatagram.dst boundDatagram.data = .ok 0 :=
    (udpChecksum_eq_zero_iff (by decide) (by decide)).mpr (by decide)
  have hsel : (withTable oneBound).udpPcbMgr.select boundDatagram.dst (u16 boundDatagram.data 2) =
      some 0 := by decide
  have hhandle : (UdpHandler.handle boundDatagram).run (withTable oneBound) =
      .done boundDelivered 0 := by
    rw [UdpHandler.handle_accepted (by decide) hc, hsel]
    rfl
  have hbound : UdpRun exampleConfig (withTable .init) (bindTrace.take 3) (withTable oneBound) :=
    ((Runs.Run.nil.snoc rfl).snoc rfl).snoc rfl
  exact hbound.snoc (Comp.bind_done hhandle)

/-- The bound socket has the datagram, and nothing is queued at the other one. -/
theorem deliveryTrace_unboundSilent :
    (∃ b, boundDelivered.udpPcbMgr.block? 0 = some b ∧
      b.que = [UdpHandler.datagram boundDatagram]) ∧
    UnboundSilent exampleConfig (withTable .init) deliveryTrace := by
  refine ⟨⟨_, rfl, rfl⟩,
    (udpRun_unboundSilent_iff exampleConfig deliveryTrace_run rfl).mpr fun r hr => ?_⟩
  simp only [deliveryTrace, bindTrace, List.take, List.cons_append, List.nil_append, List.mem_cons,
    List.not_mem_nil, or_false] at hr
  have hport : u16 boundDatagram.data 2 ≠ 0 := by decide
  rcases hr with rfl | rfl | rfl | rfl
  · trivial
  · trivial
  · trivial
  · exact fun _ hzero => absurd hzero hport

/-- A segment without payload from 192.0.2.1:5555 to port 0 of 192.0.2.2. -/
def portZeroDatagram : Ipv4ProtocolData :=
  ⟨udpType, udpSegment 5555 0 8 26151 [], 0xC0000201, 0xC0000202, ⟨interfaceFamilyIp, 0xC0000202⟩⟩

/-- The state after it arrived for one open socket. -/
def portZeroQueued : Stack :=
  UdpHandler.deliver (withTable (openTable .init 0)) 0 (UdpHandler.datagram portZeroDatagram)

/-- A socket is opened, and the segment arrives. -/
def portZeroTrace : List (Runs.Record Stack UdpEvent) :=
  [⟨withTable .init, ⟨.open, .ok (.opened (.ok (exampleSocket 0)))⟩, withTable (openTable .init 0)⟩,
    ⟨withTable (openTable .init 0), ⟨.handle portZeroDatagram, .ok (.handled 0)⟩, portZeroQueued⟩]

set_option maxRecDepth 10000 in
theorem portZeroTrace_run :
    UdpRun exampleConfig (withTable .init) portZeroTrace portZeroQueued := by
  have hc : udpChecksum portZeroDatagram.src portZeroDatagram.dst portZeroDatagram.data = .ok 0 :=
    (udpChecksum_eq_zero_iff (by decide) (by decide)).mpr (by decide)
  have hsel : (withTable (openTable .init 0)).udpPcbMgr.select portZeroDatagram.dst
      (u16 portZeroDatagram.data 2) = some 0 := by decide
  have hhandle : (UdpHandler.handle portZeroDatagram).run (withTable (openTable .init 0)) =
      .done portZeroQueued 0 := by
    rw [UdpHandler.handle_accepted (by decide) hc, hsel]
    rfl
  exact (Runs.Run.nil.snoc rfl).snoc (Comp.bind_done hhandle)

/-- Block 0 was given no port, and its queue is not empty. -/
theorem not_forall_unboundSilent :
    ¬ ∀ (cfg : Config) (s t : Stack) (tr : List (Runs.Record Stack UdpEvent)), UdpRun cfg s tr t →
      s.udpPcbMgr = UdpPcbManager.init → UnboundSilent cfg s tr := by
  intro h
  have hsilent := h _ _ _ _ portZeroTrace_run rfl
  have hkept := hsilent.refused _ (List.mem_cons_of_mem _ List.mem_cons_self) portZeroDatagram rfl 0
    { state := .OPEN, id := 0 } rfl rfl
  cases hkept

end Suika
