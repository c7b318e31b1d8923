import Suika.UdpTable

/-!
# Endpoints that are given, and endpoints that are refused

Who gets a port, and who is told that there is none.

* `sendTo` on a block without a port always finds one within 100 rounds: there are 100 blocks, and
  the one that asks holds none of the ports (`sendTo_findsPort`).
* `bind` refuses an endpoint as soon as `select` finds it. `select` knows neither which block asks
  nor that port 0 stands for no port, so a socket can be refused because of itself, or because of a
  socket that was never bound (`bindFair_iff`).
-/

namespace Suika

open Cpp UdpPcbManager

/-! ## Ports that `sendTo` picks -/

namespace UdpSocket

variable {m : UdpPcbManager} {addr : UInt32} {fuel : ℕ} {p q : UInt16} {i : ℕ} {b : UdpControlBlock}

/-- More rounds than needed change nothing. -/
theorem searchPort_of_le {fuel' : ℕ} (hle : fuel ≤ fuel') (h : searchPort m addr fuel p = some q) :
    searchPort m addr fuel' p = some q := by
  induction fuel generalizing p fuel' with
  | zero => cases h
  | succ fuel ih =>
    obtain ⟨rounds, rfl⟩ : ∃ rounds, fuel' = rounds + 1 := ⟨fuel' - 1, by omega⟩
    rw [searchPort] at h ⊢
    split at h
    · exact ih (by omega) h
    · exact h

/-- **The search ends within 100 rounds** if some block has no port: the other 99 cannot hold 100
ports. -/
theorem searchPort_of_unbound (hb : m.block? i = some b) (hport : b.endpoint.port = 0) :
    ∃ k < 100, searchPort m addr 100 sourcePortMin = some (sourcePortMin + UInt16.ofNat k) ∧
      m.select addr (sourcePortMin + UInt16.ofNat k) = none := by
  have hothers : ∀ (k : Fin 100) j,
      m.select addr (sourcePortMin + UInt16.ofNat k) = some j →
        j ∈ (Finset.range udpPcbListSize).erase i := by
    intro k j hj
    refine Finset.mem_erase.mpr ⟨?_, Finset.mem_range.mpr (select_lt hj)⟩
    rintro rfl
    -- the ports looked at start far above 0
    obtain ⟨⟨c, hc, -, -, hcp⟩, -⟩ := select_eq_some.mp hj
    obtain rfl : b = c := Option.some.inj (hb.symm.trans hc)
    have hval := toNat_sourcePort (show (k : ℕ) ≤ 100 by omega)
    rw [← hcp, hport, UInt16.toNat_zero] at hval
    omega
  have hcard : ((Finset.range udpPcbListSize).erase i).card < 100 := by
    rw [Finset.card_erase_of_mem (Finset.mem_range.mpr (lt_of_block? hb)), Finset.card_range]
    decide
  obtain ⟨k, hk⟩ := m.exists_select_eq_none addr
    (fun k : Fin 100 => sourcePortMin + UInt16.ofNat k) (sourcePort_injective (by decide)) _ hothers
    hcard
  obtain ⟨q, hq⟩ := exists_searchPort k.isLt hk
  obtain ⟨n, hn, rfl, hfree, -⟩ := searchPort_eq_some hq
  exact ⟨n, hn, hq, hfree⟩

end UdpSocket

/-- What `sendTo` does on the way to its transmission from `addr`: it finds the port `p` in at most
100 rounds, in the dynamic range and not covered by any open block; it gives it to the block of the
socket, and to no other; and it goes on to transmit. -/
structure PortFound (cfg : Config) (s : Stack) (sock : UdpSocket) (payload : Bytes)
    (ipv4str : List Char) (port : UInt32) (a addr : UInt32) (p : UInt16) : Prop where
  found : UdpSocket.searchPort s.udpPcbMgr addr 100 sourcePortMin = some p
  range : 39584 ≤ p.toNat ∧ p.toNat ≤ 65535
  free : ∀ j c, s.udpPcbMgr.block? j = some c → ¬ c.Matches addr p
  run : (UdpSocket.sendTo cfg sock payload ipv4str port).run s =
    (udpOutput cfg ⟨addr, p⟩ ⟨a, port.toUInt16⟩ payload).run
      { s with udpPcbMgr := UdpSocket.assignTable s.udpPcbMgr sock p }

/-- Blocks other than the socket's are the same. -/
def OthersKept (sock : UdpSocket) (m m' : UdpPcbManager) : Prop :=
  ∀ j, j ≠ sock.block → m'.block? j = m.block? j

theorem othersKept_modify (m : UdpPcbManager) (sock : UdpSocket)
    (f : UdpControlBlock → UdpControlBlock) : OthersKept sock m (m.modify sock.block f) :=
  fun _ hj => block?_modify_ne f (Ne.symm hj)

/-- **Dynamic ports.** For every table, and every `sendTo` on an open block without a port.
* If the target parses and there is a local address, the search ends within 100 rounds with a free
  port of the dynamic range, and the call goes on to transmit: it neither throws for want of a port
  nor hangs in the search.
* However the call ends, the blocks of other sockets are as they were. -/
theorem sendTo_findsPort (cfg : Config) (s : Stack) (sock : UdpSocket) (payload : Bytes)
    (ipv4str : List Char) (port : UInt32) (b : UdpControlBlock)
    (hb : s.udpPcbMgr.block? sock.block = some b) (hopen : b.state = .OPEN)
    (hport : b.endpoint.port = 0) :
    (∀ a addr, ipv4strToUint32 ipv4str = .ok a → UdpSocket.localAddr cfg b a = .ok addr →
      ∃ p, PortFound cfg s sock payload ipv4str port a addr p ∧
        (UdpSocket.assignTable s.udpPcbMgr sock p).block? sock.block =
          some { b with endpoint := ⟨b.endpoint.addr, p⟩ }) ∧
    ∀ t, ((UdpSocket.sendTo cfg sock payload ipv4str port).run s).next? = some t →
      OthersKept sock s.udpPcbMgr t.udpPcbMgr := by
  refine ⟨?_, ?_⟩
  · intro a addr ha haddr
    obtain ⟨k, hk, hfound, hfree⟩ :=
      @UdpSocket.searchPort_of_unbound _ addr _ _ hb hport
    have hval := UdpSocket.toNat_sourcePort (show k ≤ 100 by omega)
    refine ⟨_, ⟨hfound, ⟨by omega, by omega⟩, select_eq_none.mp hfree, ?_⟩, ?_⟩
    · exact UdpSocket.sendTo_run ha hb hopen hport haddr
        (UdpSocket.searchPort_of_le (by decide) hfound)
    · rw [UdpSocket.assignTable, block?_modify_self, hb, Option.map_some]
  · intro t ht
    obtain hsame | ⟨a, c, addr, p, -, -, -, -, -, -, htable⟩ := UdpSocket.sendTo_cases ht
    · rw [hsame]
      exact fun _ _ => rfl
    · rw [htable]
      exact othersKept_modify _ _ _

set_option maxRecDepth 10000 in
/-- The first socket of all sends: it gets the first port. -/
theorem sendTo_findsPort_first :
    ∃ p, PortFound exampleConfig (withTable (openTable .init 0)) (exampleSocket 0) [0x68, 0x69]
        "192.0.2.1".toList 40000 0xC0000201 0xC0000202 p ∧
      (UdpSocket.assignTable (openTable .init 0) (exampleSocket 0) p).block? 0 =
        some { state := .OPEN, id := 0, endpoint := ⟨ipAddrAny, p⟩ } :=
  (sendTo_findsPort exampleConfig (withTable (openTable .init 0)) (exampleSocket 0) [0x68, 0x69]
    "192.0.2.1".toList 40000 { state := .OPEN, id := 0 } rfl rfl rfl).1 _ _ rfl rfl

/-! ## Endpoints that `bind` refuses -/

/-- A `bind` that is refused only because of another open block that covers the endpoint, at a port;
that leaves the table alone if it fails, and sets the endpoint of its own block if it succeeds. -/
structure BindFair (s : Stack) (sock : UdpSocket) (ipv4str : List Char) (p : UInt16) : Prop where
  refused : ∀ t e, (sock.bind ipv4str p).run s = .done t (.error e) →
    ∃ a, ipv4strToUint32 ipv4str = .ok a ∧ p ≠ 0 ∧
      ∃ j c, j ≠ sock.block ∧ s.udpPcbMgr.block? j = some c ∧ c.Matches a p
  unchanged : ∀ t e, (sock.bind ipv4str p).run s = .done t (.error e) → t.udpPcbMgr = s.udpPcbMgr
  threw : ∀ t e, (sock.bind ipv4str p).run s = .threw t e → t.udpPcbMgr = s.udpPcbMgr
  bound : ∀ t v, (sock.bind ipv4str p).run s = .done t (.ok v) →
    OthersKept sock s.udpPcbMgr t.udpPcbMgr ∧
      ∃ a b, ipv4strToUint32 ipv4str = .ok a ∧ s.udpPcbMgr.block? sock.block = some b ∧
        t.udpPcbMgr.block? sock.block = some { b with endpoint := ⟨a, p⟩ }

/-- The endpoint is not covered by the block itself alone, nor, without a port, by any block. -/
structure BindClear (m : UdpPcbManager) (i : ℕ) (a : UInt32) (p : UInt16) : Prop where
  marker : p = 0 → ∀ j c, m.block? j = some c → ¬ c.Matches a p
  self : p ≠ 0 → ∀ b, m.block? i = some b → b.Matches a p →
    ∃ j c, j ≠ i ∧ m.block? j = some c ∧ c.Matches a p

namespace UdpSocket

variable {s t : Stack} {sock : UdpSocket} {ipv4str : List Char} {a : UInt32} {p : UInt16}

/-- A covered endpoint is refused. -/
theorem bind_refuses {j : ℕ} {c : UdpControlBlock} (ha : ipv4strToUint32 ipv4str = .ok a)
    (hc : s.udpPcbMgr.block? j = some c) (hm : c.Matches a p) :
    (sock.bind ipv4str p).run s = .done s (.error (-1)) := by
  obtain ⟨i, hi⟩ := Option.ne_none_iff_exists'.mp (select_ne_none hc hm)
  rw [bind_run ha, hi]

/-- **All a `bind` can do.** -/
theorem bind_cases (s : Stack) (sock : UdpSocket) (ipv4str : List Char) (p : UInt16) :
    (∃ a j c, ipv4strToUint32 ipv4str = .ok a ∧ s.udpPcbMgr.block? j = some c ∧ c.Matches a p ∧
      (sock.bind ipv4str p).run s = .done s (.error (-1))) ∨
    (∃ a b, ipv4strToUint32 ipv4str = .ok a ∧ s.udpPcbMgr.block? sock.block = some b ∧
      (sock.bind ipv4str p).run s =
        .done { s with udpPcbMgr := bindTable s.udpPcbMgr sock a p } (.ok 0)) ∨
    (∃ e, (sock.bind ipv4str p).run s = .threw s e) ∨ (sock.bind ipv4str p).run s = .undef := by
  rcases ha : ipv4strToUint32 ipv4str with (_ | e) | a
  · refine Or.inr (Or.inr (Or.inr ?_))
    rw [UdpSocket.bind, ha]
    rfl
  · refine Or.inr (Or.inr (Or.inl ⟨e, ?_⟩))
    rw [UdpSocket.bind, ha]
    rfl
  cases hsel : s.udpPcbMgr.select a p with
  | some i =>
    obtain ⟨⟨c, hc, hm⟩, -⟩ := select_eq_some.mp hsel
    exact Or.inl ⟨a, i, c, rfl, hc, hm, bind_refuses ha hc hm⟩
  | none =>
    cases hb : s.udpPcbMgr.block? sock.block with
    | some b => exact Or.inr (Or.inl ⟨a, b, rfl, rfl, by rw [bind_run ha, hsel, hb]⟩)
    | none => exact Or.inr (Or.inr (Or.inl ⟨_, by rw [bind_run ha, hsel, hb]⟩))

end UdpSocket

/-- **When `bind` is fair**: exactly if the endpoint is clear, whatever the table. -/
theorem bindFair_iff (s : Stack) (sock : UdpSocket) (ipv4str : List Char) (p : UInt16) :
    BindFair s sock ipv4str p ↔
      ∀ a, ipv4strToUint32 ipv4str = .ok a → BindClear s.udpPcbMgr sock.block a p := by
  refine ⟨?_, ?_⟩
  · intro h a ha
    refine ⟨?_, ?_⟩
    · intro hp j c hc hm
      obtain ⟨-, -, hne, -⟩ := h.refused s (-1) (UdpSocket.bind_refuses ha hc hm)
      exact hne hp
    · intro _ b hb hm
      obtain ⟨a', ha', -, hother⟩ := h.refused s (-1) (UdpSocket.bind_refuses ha hb hm)
      obtain rfl := Except.ok.inj (ha.symm.trans ha')
      exact hother
  · intro h
    rcases UdpSocket.bind_cases s sock ipv4str p with
      ⟨a, j, c, ha, hc, hm, hrun⟩ | ⟨a, b, ha, hb, hrun⟩ | ⟨e, hrun⟩ | hrun
    · -- refused: the block that was found is another one, or another one covers the endpoint too
      have hclear := h a ha
      have hp : p ≠ 0 := fun hp => hclear.marker hp j c hc hm
      refine ⟨?_, ?_, ?_, ?_⟩ <;> intro t e hdone <;> rw [hrun] at hdone <;> cases hdone
      · refine ⟨a, ha, hp, ?_⟩
        by_cases hj : j = sock.block
        · subst hj
          exact hclear.self hp c hc hm
        · exact ⟨j, c, hj, hc, hm⟩
      · rfl
    · refine ⟨?_, ?_, ?_, ?_⟩ <;> intro t e hdone <;> rw [hrun] at hdone <;> cases hdone
      refine ⟨othersKept_modify _ _ _, a, b, ha, hb, ?_⟩
      dsimp only
      rw [UdpSocket.bindTable, block?_modify_self, hb, Option.map_some]
    · refine ⟨?_, ?_, ?_, ?_⟩ <;> intro t e' hdone <;> rw [hrun] at hdone <;> cases hdone
      rfl
    · refine ⟨?_, ?_, ?_, ?_⟩ <;> intro t e hdone <;> rw [hrun] at hdone <;> cases hdone

/-- Two sockets are opened, the first one is bound to 192.0.2.2:5555 and then to the same endpoint
again: it is refused because of itself. -/
theorem not_forall_bindFair :
    ¬ ∀ (cfg : Config) (s t : Stack) (tr : List (Runs.Record Stack UdpEvent)), UdpRun cfg s tr t →
      s.udpPcbMgr = UdpPcbManager.init →
      ∀ (sock : UdpSocket) (ipv4str : List Char) (p : UInt16), BindFair t sock ipv4str p := by
  intro h
  have hrun : UdpRun exampleConfig (withTable .init) (bindTrace.take 3) (withTable oneBound) := by
    have hall : UdpRun exampleConfig (withTable .init) (bindTrace.take 3 ++ [_]) _ := bindTrace_run
    exact hall.of_snoc.1
  have hfair := h exampleConfig (withTable .init) (withTable oneBound) _ hrun rfl (exampleSocket 0)
    "192.0.2.2".toList 5555
  obtain ⟨a, ha, -, j, c, hj, hc, hm⟩ := hfair.refused _ _
    (UdpSocket.bind_refuses (j := 0) rfl rfl (by decide))
  obtain rfl : 0xC0000202 = a := Except.ok.inj ha
  -- the only other open block has no port
  have hothers : ∀ c ∈ oneBound.udpPcbList.drop 1, ¬ c.Matches 0xC0000202 5555 := by decide
  obtain ⟨k, rfl⟩ : ∃ k, j = 1 + k := ⟨j - 1, by
    have hpos : j ≠ 0 := hj
    omega⟩
  have hmem : c ∈ oneBound.udpPcbList.drop 1 := by
    refine List.mem_of_getElem? (i := k) ?_
    rw [List.getElem?_drop]
    exact hc
  exact hothers c hmem hm

end Suika
