import Suika.UdpThreads

/-!
# Operations as threads

Each operation of `Suika.UdpSocket` is one step there and many in `Suika.UdpThreads`. A thread that
makes the call with nobody beside it leaves the table that the operation leaves: `udpRun_threads`
turns every run of operations into a run of the threads.
-/

namespace Suika

open Cpp Threads UdpPcbManager

variable {cfg : Config} {m m' : UdpPcbManager} {i : ℕ} {b : UdpControlBlock}

/-! ## Instructions -/

section Instructions

variable {P : Type} {p : UdpPoint} {q : P} {g : P → UdpPoint}

theorem solo_readPcb {next : UdpControlBlock → Option P}
    (hp : p.code cfg = (readPcb i next).map g) (hb : m.block? i = some b) (hq : next b = some q)
    (h : Solo (udpProgram cfg) m (g q) m') : Solo (udpProgram cfg) m p m' :=
  .access hp (by simp [hb, hq]) h

theorem solo_writePcb {f : UdpControlBlock → UdpControlBlock}
    (hp : p.code cfg = (writePcb i f q).map g) (hb : m.block? i = some b)
    (h : Solo (udpProgram cfg) (m.modify i f) (g q) m') : Solo (udpProgram cfg) m p m' :=
  .access hp (by simp [hb]) h

/-- A loop over the blocks, from its end. -/
theorem block_induction {K : ℕ → Prop}
    (h : ∀ i < udpPcbListSize, (i + 1 < udpPcbListSize → K (i + 1)) → K i) : K 0 := by
  have hfrom : ∀ n i, i + n + 1 = udpPcbListSize → K i := by
    intro n
    induction n with
    | zero => exact fun i hi => h i (by omega) fun hlt => absurd hlt (by omega)
    | succ n ih => exact fun i hi => h i (by omega) fun _ => ih (i + 1) (by omega)
  exact hfrom 99 0 rfl

/-- **The loop of `select`** comes to the first block that matches. -/
theorem solo_selectCode {ipv4 : UInt32} {port : UInt16} {found : ℕ → P} {unexpected : P}
    {here : SelectPoint → P}
    (hcode : ∀ x, (g (here x)).code cfg = (selectCode ipv4 port found unexpected here x).map g)
    (hfound : ∀ i, m.select ipv4 port = some i → Solo (udpProgram cfg) m (g (found i)) m')
    (hnone : m.select ipv4 port = none → Solo (udpProgram cfg) m (g unexpected) m') :
    Solo (udpProgram cfg) m (g (here (.state 0))) m' := by
  refine block_induction (K := fun i => (∀ j b, j < i → m.block? j = some b →
    ¬ b.Matches ipv4 port) → Solo (udpProgram cfg) m (g (here (.state i))) m') ?_ ?_
  · intro i hi ih hbefore
    obtain ⟨b, hb⟩ := m.exists_block hi
    -- behind a block that does not match the loop goes on
    have hrest : ¬ b.Matches ipv4 port →
        Solo (udpProgram cfg) m (g (nextBlock i (fun j => here (.state j)) unexpected)) m' := by
      intro hno
      have hbefore' : ∀ j c, j < i + 1 → m.block? j = some c → ¬ c.Matches ipv4 port := by
        intro j c hj hc
        rcases Nat.lt_succ_iff_lt_or_eq.mp hj with hj | rfl
        · exact hbefore j c hj hc
        · rw [hb] at hc
          cases hc
          exact hno
      unfold nextBlock
      split
      · rename_i hlt
        exact ih hlt hbefore'
      · rename_i hend
        refine hnone (select_eq_none.mpr fun j c hc => hbefore' j c ?_ hc)
        have hj := lt_of_block? hc
        omega
    have hport : b.state = .OPEN → (b.endpoint.addr = ipAddrAny ∨ b.endpoint.addr = ipv4) →
        Solo (udpProgram cfg) m (g (here (.port i))) m' := by
      intro hopen haddr
      by_cases hmatch : b.endpoint.port = port
      · refine solo_readPcb (hcode _) hb (congrArg some (if_pos hmatch)) (hfound i ?_)
        exact select_eq_some.mpr ⟨⟨b, hb, hopen, haddr, hmatch⟩, hbefore⟩
      · refine solo_readPcb (hcode _) hb (congrArg some (if_neg hmatch)) (hrest ?_)
        exact fun h => hmatch h.2.2
    by_cases hopen : b.state = .OPEN
    · refine solo_readPcb (hcode _) hb (congrArg some (if_pos hopen)) ?_
      by_cases hany : b.endpoint.addr = ipAddrAny
      · exact solo_readPcb (hcode _) hb (congrArg some (if_pos hany)) (hport hopen (Or.inl hany))
      refine solo_readPcb (hcode _) hb (congrArg some (if_neg hany)) ?_
      by_cases haddr : b.endpoint.addr = ipv4
      · exact solo_readPcb (hcode _) hb (congrArg some (if_pos haddr)) (hport hopen (Or.inr haddr))
      · refine solo_readPcb (hcode _) hb (congrArg some (if_neg haddr)) (hrest ?_)
        exact fun h => h.2.1.elim hany haddr
    · refine solo_readPcb (hcode _) hb (congrArg some (if_neg hopen)) (hrest ?_)
      exact fun h => hopen h.1
  · exact fun j _ hj => absurd hj (Nat.not_lt_zero j)

end Instructions

/-! ## Calls -/

/-- `open` finds the first free block and sets its fields one by one. -/
theorem solo_open (h : m.alloc = some (m', i)) :
    Solo (udpProgram cfg) m (.open .lockMgr) m' := by
  obtain ⟨⟨b, hb, hfree⟩, rfl⟩ := alloc_eq_some h
  refine .lock rfl ?_
  refine block_induction (K := fun j => j ≤ i → Solo (udpProgram cfg) m (.open (.state j)) _) ?_
    (Nat.zero_le i)
  intro j hj ih hji
  rcases Nat.eq_or_lt_of_le hji with rfl | hlt
  · refine solo_readPcb rfl hb (congrArg some (if_pos hfree)) ?_
    refine solo_writePcb rfl hb ?_
    refine solo_writePcb (b := { b with state := .OPEN }) rfl (by simp [hb]) ?_
    refine solo_writePcb (b := { b with state := .OPEN, id := j }) rfl (by simp [hb]) ?_
    refine solo_writePcb (b := { b with state := .OPEN, id := j, endpoint.addr := ipAddrAny }) rfl
      (by simp [hb]) ?_
    rw [modify_modify, modify_modify, modify_modify]
    have hb' : (m.modify j fun elm =>
        { elm with state := .OPEN, id := j, endpoint := ⟨ipAddrAny, 0⟩ }).block? j =
          some { b with state := .OPEN, id := j, endpoint := ⟨ipAddrAny, 0⟩ } := by simp [hb]
    exact solo_readPcb rfl hb' rfl (solo_readPcb rfl hb' rfl (.unlock rfl (.ret rfl)))
  · obtain ⟨c, hc⟩ := m.exists_block hj
    refine solo_readPcb rfl hc (congrArg some (if_neg ?_)) ?_
    · exact alloc_first h hlt hc
    · have hnext : j + 1 < udpPcbListSize := lt_of_le_of_lt hlt (lt_of_block? hb)
      rw [nextBlock, if_pos hnext]
      exact ih hnext hlt

/-- `bind` sets the endpoint of its block. -/
theorem solo_bind {ipv4 : UInt32} {port : UInt16} (hb : m.block? i = some b)
    (hsel : m.select ipv4 port = none) :
    Solo (udpProgram cfg) m (.bind i ipv4 port .lockMgr)
      (m.modify i fun pcb => { pcb with endpoint := ⟨ipv4, port⟩ }) := by
  refine .lock rfl ?_
  refine solo_selectCode (g := .bind i ipv4 port) (fun _ => rfl) (fun j hj => ?_) fun _ => ?_
  · rw [hsel] at hj
    cases hj
  · rw [if_pos (lt_of_block? hb)]
    refine .lock rfl ?_
    refine solo_writePcb rfl hb ?_
    refine solo_writePcb (b := { b with endpoint.addr := ipv4 }) rfl (by simp [hb]) ?_
    rw [modify_modify]
    exact .unlock rfl (.unlock rfl (.ret rfl))

/-- `recvFrom` takes the first datagram out. -/
theorem solo_recvFrom {size : ℕ} {payload : UdpPcbPayload} {rest : List UdpPcbPayload}
    (hb : m.block? i = some b) (hint : b.interrupted ≠ 1) (hque : b.que = payload :: rest)
    (hfit : payload.data.length ≤ size) :
    Solo (udpProgram cfg) m (.recvFrom i size .lockMgr)
      (m.modify i fun pcb => { pcb with que := rest }) := by
  refine .lock rfl ?_
  rw [if_pos (lt_of_block? hb)]
  refine .unlock rfl (.lock rfl ?_)
  refine solo_readPcb rfl hb (congrArg some (if_pos (by simp [hque]))) ?_
  refine solo_readPcb rfl hb (congrArg some (if_neg hint)) ?_
  refine solo_readPcb (q := .pop) rfl hb (by simp [hque, hfit]) ?_
  refine solo_writePcb rfl hb ?_
  have hpop : (m.modify i fun pcb => { pcb with que := pcb.que.tail }) =
      m.modify i fun pcb => { pcb with que := rest } := by
    refine modify_congr fun c hc => ?_
    rw [hb] at hc
    cases hc
    simp [hque]
  rw [hpop]
  exact .unlock rfl (.ret rfl)

/-- The handler queues its datagram on the block `select` finds. -/
theorem solo_handle {dst : UInt32} {port : UInt16} (pcbPayload : UdpPcbPayload)
    (hsel : m.select dst port = some i) :
    Solo (udpProgram cfg) m (.handle dst port pcbPayload .lockMgr)
      (m.modify i fun pcb => { pcb with que := pcb.que ++ [pcbPayload] }) := by
  refine .lock rfl ?_
  refine solo_selectCode (g := .handle dst port pcbPayload) (fun _ => rfl) (fun j hj => ?_)
    fun hnone => ?_
  · rw [hsel] at hj
    cases hj
    obtain ⟨⟨b, hb, -⟩, -⟩ := select_eq_some.mp hsel
    refine .lock rfl (.unlock rfl ?_)
    exact solo_writePcb rfl hb (.notifyAll rfl (.unlock rfl (.ret rfl)))
  · rw [hsel] at hnone
    cases hnone

/-- The search of `sendTo` for a port. -/
theorem solo_searchPort {ipAddr addr : UInt32} {fuel : ℕ} {p q : UInt16}
    (h : UdpSocket.searchPort m addr fuel p = some q)
    (hset : Solo (udpProgram cfg) m (.sendTo i ipAddr (.setPort q)) m') :
    Solo (udpProgram cfg) m (.sendTo i ipAddr (.search addr p (.state 0))) m' := by
  induction fuel generalizing p with
  | zero => cases h
  | succ fuel ih =>
    rw [UdpSocket.searchPort] at h
    refine solo_selectCode (g := .sendTo i ipAddr) (fun _ => rfl) (fun j hj => ?_) fun hnone => ?_
    · rw [hj] at h
      exact ih h
    · rw [hnone] at h
      cases h
      exact hset

/-- `sendTo` gives the block the port it has found. -/
theorem solo_sendTo {ipAddr addr : UInt32} {p : UInt16} (hb : m.block? i = some b)
    (hopen : b.state = .OPEN) (hport : b.endpoint.port = 0)
    (haddr : UdpSocket.localAddr cfg b ipAddr = .ok addr)
    (hp : UdpSocket.searchPort m addr 65536 sourcePortMin = some p) :
    Solo (udpProgram cfg) m (.sendTo i ipAddr .lockMgr)
      (m.modify i fun pcb => { pcb with endpoint := ⟨pcb.endpoint.addr, p⟩ }) := by
  have hp0 : p ≠ 0 := by
    obtain ⟨q, hq, hmin, -⟩ := UdpSocket.searchPort_sendTo m addr
    rw [hp] at hq
    cases hq
    rintro rfl
    exact absurd hmin (by decide)
  -- behind the test of the address
  have hrest : Solo (udpProgram cfg) m (.sendTo i ipAddr (.port addr))
      (m.modify i fun pcb => { pcb with endpoint := ⟨pcb.endpoint.addr, p⟩ }) := by
    refine solo_readPcb rfl hb (congrArg some (if_pos hport)) (solo_searchPort hp ?_)
    refine solo_writePcb rfl hb ?_
    have hb' : (m.modify i fun pcb => { pcb with endpoint.port := p }).block? i =
        some { b with endpoint.port := p } := by simp [hb]
    refine solo_readPcb rfl hb' (congrArg some (if_neg hp0)) (solo_readPcb rfl hb' rfl ?_)
    exact .unlock rfl (.unlock rfl (.ret rfl))
  refine .lock rfl ?_
  rw [if_pos (lt_of_block? hb)]
  refine solo_readPcb rfl hb (congrArg some (if_neg (not_not.mpr hopen))) (.lock rfl ?_)
  rw [UdpSocket.localAddr] at haddr
  split at haddr
  · rename_i hany
    obtain ⟨route, hroute, haddr⟩ := Cpp.Eval.bind_eq_ok haddr
    cases haddr
    exact solo_readPcb rfl hb (by rw [if_pos hany, hroute]) hrest
  · rename_i hany
    cases haddr
    exact solo_readPcb rfl hb (if_neg hany) (solo_readPcb rfl hb rfl hrest)

/-- What the loop of `interruptAll` leaves, from block `i` on. -/
def InterruptedFrom (i : ℕ) (m m' : UdpPcbManager) : Prop :=
  ∀ j, m'.block? j = if j < i then m.block? j else m.interruptAll.block? j

/-- One block, and then the others. -/
theorem InterruptedFrom.of_succ {m₁ : UdpPcbManager} (hi : m₁.block? i = m.interruptAll.block? i)
    (hne : ∀ j, i ≠ j → m₁.block? j = m.block? j) (h : InterruptedFrom (i + 1) m₁ m') :
    InterruptedFrom i m m' := by
  intro j
  rw [h j]
  rcases Nat.lt_trichotomy j i with hj | rfl | hj
  · rw [if_pos (Nat.lt_succ_of_lt hj), if_pos hj, hne j hj.ne']
  · rw [if_pos (Nat.lt_succ_self j), if_neg (Nat.lt_irrefl j), hi]
  · rw [if_neg (Nat.not_lt.mpr hj), if_neg (Nat.lt_asymm hj), block?_interruptAll,
      block?_interruptAll, hne j hj.ne]

/-- `interruptAll`, block by block. -/
theorem solo_event : Solo (udpProgram cfg) m (.event .lockMgr) m.interruptAll := by
  have hloop : ∀ m, ∃ m', Solo (udpProgram cfg) m (.event (.state 0)) m' ∧
      InterruptedFrom 0 m m' := by
    refine block_induction (K := fun i => ∀ m, ∃ m',
      Solo (udpProgram cfg) m (.event (.state i)) m' ∧ InterruptedFrom i m m') ?_
    intro i hi ih m
    -- behind block `i`
    have hrest : ∀ m, ∃ m', Solo (udpProgram cfg) m (.event (nextBlock i .state .ret)) m' ∧
        InterruptedFrom (i + 1) m m' := by
      intro m
      unfold nextBlock
      split
      · rename_i hlt
        exact ih hlt m
      · rename_i hend
        refine ⟨m, .ret rfl, fun j => ?_⟩
        split
        · rfl
        · have hnone : m.block? j = none := by
            cases hb : m.block? j with
            | none => rfl
            | some b =>
              have hlt := lt_of_block? hb
              omega
          rw [block?_interruptAll, hnone, Option.map_none]
    obtain ⟨b, hb⟩ := m.exists_block hi
    by_cases hopen : b.state = .OPEN
    · obtain ⟨m', hsolo, hblocks⟩ := hrest (m.modify i fun elm => { elm with interrupted := 1 })
      refine ⟨m', ?_, hblocks.of_succ ?_ fun j hj => block?_modify_ne _ hj⟩
      · refine solo_readPcb rfl hb (congrArg some (if_pos hopen)) (.lock rfl (.unlock rfl ?_))
        exact solo_writePcb rfl hb (.notifyAll rfl hsolo)
      · rw [block?_modify_self, block?_interruptAll, hb, Option.map_some, Option.map_some,
          if_pos hopen]
    · obtain ⟨m', hsolo, hblocks⟩ := hrest m
      refine ⟨m', ?_, hblocks.of_succ ?_ fun j _ => rfl⟩
      · exact solo_readPcb rfl hb (congrArg some (if_neg hopen)) hsolo
      · rw [block?_interruptAll, hb, Option.map_some, if_neg hopen]
  obtain ⟨m', hsolo, hblocks⟩ := hloop m
  obtain rfl : m' = m.interruptAll :=
    ext_block? fun j => by rw [hblocks, if_neg (Nat.not_lt_zero j)]
  exact .lock rfl (.unlock rfl hsolo)

/-! ## Runs -/

section Runs

variable {T : Type} [DecidableEq T]

/-- **What an operation does to the table, a thread does** that makes the call with nobody beside
it. -/
theorem UdpEvent.Effect.threads {ev : UdpEvent} (h : ev.Effect cfg m m') (t : T) :
    ∃ tr, UdpThreadsRun cfg (State.start m : UdpThreads T) tr (State.start m') := by
  have hcall : ∀ op : UdpCall, Solo (udpProgram cfg) m ((udpProgram cfg).entry op) m' →
      ∃ tr, UdpThreadsRun cfg (State.start m : UdpThreads T) tr (State.start m') :=
    fun _ hsolo => hsolo.exists_run_call (udpProgram_respects cfg) (udpProgram_ascends cfg) t
  cases h with
  | idle _ => exact ⟨[], .nil⟩
  | opened halloc => exact hcall .open (solo_open halloc)
  | @bound sock _ a p _ _ hsel =>
    cases hb : m.block? sock.block with
    | some b => exact hcall (.bind sock a p) (solo_bind hb hsel)
    | none =>
      have hsame : UdpSocket.bindTable m sock a p = m := by
        refine ext_block? fun j => ?_
        rw [UdpSocket.bindTable]
        by_cases hj : sock.block = j
        · rw [← hj, block?_modify_self, hb, Option.map_none]
        · exact block?_modify_ne _ hj
      rw [hsame]
      exact ⟨[], .nil⟩
  | @assigned sock _ _ _ _ a addr b p _ hb hopen hport haddr hp =>
    exact hcall (.sendTo sock a) (solo_sendTo hb hopen hport haddr hp)
  | @queued d i hsel =>
    exact hcall (.handle d.dst (u16 d.data 2) (UdpHandler.datagram d)) (solo_handle _ hsel)
  | @taken sock buf _ _ b payload rest hb hint hque hfit =>
    exact hcall (.recvFrom sock buf.length) (solo_recvFrom hb hint hque hfit)
  | interrupted => exact hcall .event solo_event

/-- **Every run of operations is a run of the threads**: what the operations of `Suika.UdpSocket`
make of a table, the threads can make of it. -/
theorem udpRun_threads (t₀ : T) {s t : Stack} {tr : List (Runs.Record Stack UdpEvent)}
    (h : UdpRun cfg s tr t) :
    ∃ tr', UdpThreadsRun cfg (State.start s.udpPcbMgr : UdpThreads T) tr'
      (State.start t.udpPcbMgr) := by
  induction h with
  | nil => exact ⟨[], .nil⟩
  | snoc _ hl ih =>
    obtain ⟨tr₁, h₁⟩ := ih
    obtain ⟨tr₂, h₂⟩ := hl.effect.threads t₀
    exact ⟨tr₁ ++ tr₂, h₁.append h₂⟩

end Runs

end Suika
