import Suika.UdpThreads

/-!
# Receivers asleep

A receiver tests the queue and the flag of its block under the mutex of the block, and sleeps if
there is nothing for it. `UdpHandler::handle` fills the queue under that mutex; `interruptAll`
raises the flag behind the back of it, since its lock guard is a temporary. So a notification of
`interruptAll` can fall between the test of a receiver and its sleep.

`UdpPoint.Holds` is an assertion for each point: what a thread there knows about the table.
`ThreadStep` says what one step of any call does to the table and where it leads.
`udpThreadsRun_noLostWakeup` follows by the rule for lost wake-ups;
`udpThreadsRun_lostWakeup` shows that its condition cannot be spared.
-/

namespace Suika

open Threads

/-! ## What a receiver waits for -/

def PcbOpen (m : UdpPcbManager) (i : ℕ) : Prop := ∃ pcb, m.block? i = some pcb ∧ pcb.state = .OPEN

/-- The predicate of `cv.wait` in `recvFrom`. -/
def UdpControlBlock.Ready (pcb : UdpControlBlock) : Prop := pcb.que ≠ [] ∨ pcb.interrupted = 1

def PcbReady (i : ℕ) (m : UdpPcbManager) : Prop := ∃ pcb, m.block? i = some pcb ∧ pcb.Ready

def QueEmpty (m : UdpPcbManager) (i : ℕ) : Prop := ∀ pcb, m.block? i = some pcb → pcb.que = []

/-- The handler has chosen the block, and not yet notified it. -/
def HandlePoint.NotifyAhead (i : ℕ) : HandlePoint → Prop
  | .lockPcb j | .unlockMgr j | .push j | .notify j => j = i
  | _ => False

/-- The loop of `interruptAll` has found the block open, or it will come to it. -/
def EventPoint.NotifyAhead (i : ℕ) (m : UdpPcbManager) : EventPoint → Prop
  | .lockMgr | .unlockMgr => PcbOpen m i
  | .state j => j ≤ i ∧ PcbOpen m i
  | .lockPcb j | .unlockPcb j | .setInterrupted j | .notify j => j = i ∨ j < i ∧ PcbOpen m i
  | .ret => False

/-- A call at this point has a notification on block `i` ahead of it. -/
def UdpPoint.NotifyAhead (i : ℕ) (m : UdpPcbManager) : UdpPoint → Prop
  | .handle _ _ _ p => p.NotifyAhead i
  | .event p => p.NotifyAhead i m
  | _ => False

/-- A receiver at this point has tested its predicate, and is about to sleep. -/
def UdpPoint.AboutToSleep (i : ℕ) : UdpPoint → Prop
  | .recvFrom j _ .wait => j = i
  | _ => False

section LostWakeup

variable {T : Type}

/-- A receiver is asleep on an open block that has a datagram or an interrupt for it, and nobody has
a notification on the block ahead. -/
def LostWakeup (s : UdpThreads T) (i : ℕ) : Prop :=
  (∃ t, Asleep s i t) ∧ (∃ pcb, s.data.block? i = some pcb ∧ pcb.state = .OPEN ∧ pcb.Ready) ∧
    ∀ t, ¬ Ahead UdpPoint.NotifyAhead s i t

/-- If thread `t` is about to notify a block in `interruptAll`, while a receiver stands between the
tests of its predicate and its sleep, then another thread has a notification on the block ahead. -/
def Guarded (s : UdpThreads T) (t : T) : Prop :=
  ∀ i, s.status t = .running (.event (.notify i)) →
    (∃ u size, s.status u = .running (.recvFrom i size .wait)) →
      ∃ u, u ≠ t ∧ Ahead UdpPoint.NotifyAhead s i u

end LostWakeup

/-! ## What one step does -/

variable {m m' : UdpPcbManager} {i j : ℕ} {p q : UdpPoint} {cfg : Config}

def PcbInterrupted (m : UdpPcbManager) (i : ℕ) : Prop :=
  ∃ pcb, m.block? i = some pcb ∧ pcb.interrupted = 1

/-- What a thread at this point knows: a receiver that has tested the queue, that it is empty;
`interruptAll` at a block, that it is open, and behind its write, that the flag is up. -/
def UdpPoint.Holds : UdpPoint → UdpPcbManager → Prop
  | .recvFrom i _ .testInterrupted, m => QueEmpty m i
  | .recvFrom i _ .wait, m => QueEmpty m i
  | .event (.lockPcb i), m => PcbOpen m i
  | .event (.unlockPcb i), m => PcbOpen m i
  | .event (.setInterrupted i), m => PcbOpen m i
  | .event (.notify i), m => PcbOpen m i ∧ PcbInterrupted m i
  | _, _ => True

/-- Open blocks stay open and flags stay up, and nothing else a receiver waits for comes. -/
structure Undisturbed (m m' : UdpPcbManager) : Prop where
  opened : ∀ i, PcbOpen m i → PcbOpen m' i
  interrupted : ∀ i, PcbInterrupted m i → PcbInterrupted m' i
  ready : ∀ i, PcbReady i m' → PcbReady i m
  queEmpty : ∀ i, QueEmpty m i → QueEmpty m' i

theorem Undisturbed.refl (m : UdpPcbManager) : Undisturbed m m :=
  ⟨fun _ h => h, fun _ h => h, fun _ h => h, fun _ h => h⟩

section Modify

variable {f : UdpControlBlock → UdpControlBlock}

theorem PcbOpen.modify (hf : ∀ pcb : UdpControlBlock, pcb.state = .OPEN → (f pcb).state = .OPEN)
    (h : PcbOpen m j) : PcbOpen (m.modify i f) j := by
  obtain ⟨pcb, hpcb, hopen⟩ := h
  by_cases hij : i = j
  · subst hij
    exact ⟨f pcb, by simp [hpcb], hf pcb hopen⟩
  · exact ⟨pcb, by rw [UdpPcbManager.block?_modify_ne f hij, hpcb], hopen⟩

theorem PcbInterrupted.modify
    (hf : ∀ pcb : UdpControlBlock, pcb.interrupted = 1 → (f pcb).interrupted = 1)
    (h : PcbInterrupted m j) : PcbInterrupted (m.modify i f) j := by
  obtain ⟨pcb, hpcb, hint⟩ := h
  by_cases hij : i = j
  · subst hij
    exact ⟨f pcb, by simp [hpcb], hf pcb hint⟩
  · exact ⟨pcb, by rw [UdpPcbManager.block?_modify_ne f hij, hpcb], hint⟩

theorem PcbReady.of_modify (h : PcbReady j (m.modify i f)) :
    PcbReady j m ∨ j = i ∧ ∃ pcb, m.block? i = some pcb ∧ (f pcb).Ready := by
  obtain ⟨pcb, hpcb, hready⟩ := h
  obtain ⟨hij, pcb₀, hpcb₀, rfl⟩ | ⟨-, hpcb⟩ := UdpPcbManager.block?_modify_cases hpcb
  · exact Or.inr ⟨hij, pcb₀, hpcb₀, hready⟩
  · exact Or.inl ⟨pcb, hpcb, hready⟩

theorem QueEmpty.modify (h : QueEmpty m j)
    (hf : j = i → ∀ pcb : UdpControlBlock, pcb.que = [] → (f pcb).que = []) :
    QueEmpty (m.modify i f) j := by
  intro pcb hpcb
  obtain ⟨rfl, pcb₀, hpcb₀, rfl⟩ | ⟨-, hpcb⟩ := UdpPcbManager.block?_modify_cases hpcb
  · exact hf rfl pcb₀ (h pcb₀ hpcb₀)
  · exact h pcb hpcb

/-- A write that leaves queue and flag alone. -/
theorem Undisturbed.modify
    (hstate : ∀ pcb : UdpControlBlock, pcb.state = .OPEN → (f pcb).state = .OPEN)
    (hque : ∀ pcb, (f pcb).que = pcb.que) (hint : ∀ pcb, (f pcb).interrupted = pcb.interrupted) :
    Undisturbed m (m.modify i f) := by
  refine ⟨fun j h => h.modify hstate, fun j h => h.modify fun pcb => by rw [hint]; exact id,
    fun j h => ?_, fun j h => ?_⟩
  · obtain h | ⟨rfl, pcb, hpcb, hready⟩ := h.of_modify
    · exact h
    · rw [UdpControlBlock.Ready, hque, hint] at hready
      exact ⟨pcb, hpcb, hready⟩
  · exact h.modify fun _ pcb hpcb => by rw [hque, hpcb]

end Modify

/-- **What one step of a call does**, from `p` over the table `m` to `q` over `m'`. -/
structure ThreadStep (cfg : Config) (p : UdpPoint) (m m' : UdpPcbManager) (q : UdpPoint) :
    Prop where
  /-- open blocks stay open -/
  opened : ∀ i, PcbOpen m i → PcbOpen m' i
  /-- raised flags stay up -/
  interrupted : ∀ i, PcbInterrupted m i → PcbInterrupted m' i
  /-- a queue is filled under the mutex of its block -/
  filled : ∀ i, QueEmpty m i → QueEmpty m' i ∨ .pcb i ∈ p.held
  /-- who gives a receiver something has its notification ahead -/
  ready : ∀ i, PcbReady i m' → PcbReady i m ∨ q.NotifyAhead i m'
  /-- a notification stays ahead until it is carried out -/
  ahead : ∀ i, p.NotifyAhead i m → (∃ q', p.code cfg = .notifyAll i q') ∨ q.NotifyAhead i m'
  /-- what a thread knows -/
  holds : p.Holds m → q.Holds m'
  /-- a receiver goes to sleep when the flag is down -/
  flagTested : ∀ i, q.AboutToSleep i → ¬ PcbInterrupted m' i

namespace ThreadStep

/-- A step that disturbs no receiver, and is none of their tests. -/
theorem of_undisturbed (h : Undisturbed m m')
    (hahead : ∀ i, p.NotifyAhead i m → (∃ q', p.code cfg = .notifyAll i q') ∨ q.NotifyAhead i m')
    (hholds : p.Holds m → q.Holds m') (hwait : ∀ i, ¬ q.AboutToSleep i) :
    ThreadStep cfg p m m' q where
  opened := h.opened
  interrupted := h.interrupted
  filled i hi := Or.inl (h.queEmpty i hi)
  ready i hi := Or.inl (h.ready i hi)
  ahead := hahead
  holds := hholds
  flagTested i hq := absurd hq (hwait i)

theorem «open» (p : OpenPoint) :
    (openCode p).Next fun m m' q => ThreadStep cfg (.open p) m m' (.open q) := by
  have hcode : (openCode p).Next fun m m' _ => Undisturbed m m' := by
    cases p with
    | setState i | setId i | setAddr i | setPort i =>
      exact next_writePcb fun m _ _ => Undisturbed.modify (by simp) (fun _ => rfl) fun _ => rfl
    | state i | getId i | getPcbId i => exact next_readPcb fun m _ _ _ _ => Undisturbed.refl m
    | ret => trivial
    | lockMgr | unlockMgr => exact Undisturbed.refl
  exact hcode.mono fun m m' q h => of_undisturbed h (fun _ => False.elim) id fun _ => id

theorem bind (i : ℕ) (ipv4 : UInt32) (port : UInt16) (p : BindPoint) :
    (bindCode i ipv4 port p).Next fun m m' q =>
      ThreadStep cfg (.bind i ipv4 port p) m m' (.bind i ipv4 port q) := by
  have hcode : (bindCode i ipv4 port p).Next fun m m' _ => Undisturbed m m' := by
    cases p with
    | setAddr | setPort =>
      exact next_writePcb fun m _ _ => Undisturbed.modify (by simp) (fun _ => rfl) fun _ => rfl
    | select q =>
      refine next_selectCode ?_ ?_ ?_ q
      · exact fun m _ => Undisturbed.refl m
      · exact Undisturbed.refl
      · exact fun m _ => Undisturbed.refl m
    | ret => trivial
    | lockMgr | lockPcb | unlockPcb | unlockMgr => exact Undisturbed.refl
  exact hcode.mono fun m m' q h => of_undisturbed h (fun _ => False.elim) id fun _ => id

theorem sendTo (i : ℕ) (ipAddr : UInt32) (p : SendToPoint) :
    (sendToCode cfg i ipAddr p).Next fun m m' q =>
      ThreadStep cfg (.sendTo i ipAddr p) m m' (.sendTo i ipAddr q) := by
  have hcode : (sendToCode cfg i ipAddr p).Next fun m m' _ => Undisturbed m m' := by
    cases p with
    | setPort =>
      exact next_writePcb fun m _ _ => Undisturbed.modify (by simp) (fun _ => rfl) fun _ => rfl
    | search addr port q =>
      refine next_selectCode ?_ ?_ ?_ q
      · exact fun m _ => Undisturbed.refl m
      · exact Undisturbed.refl
      · exact fun m _ => Undisturbed.refl m
    | state | addrAny | addr | port | assigned | localPort =>
      exact next_readPcb fun m _ _ _ _ => Undisturbed.refl m
    | ret => trivial
    | lockMgr | lockPcb | unlockMgr | unlockPcb | throwPcb | throwMgr => exact Undisturbed.refl
  exact hcode.mono fun m m' q h => of_undisturbed h (fun _ => False.elim) id fun _ => id

/-- The receiver tests the queue and then the flag, and takes datagrams out. -/
theorem recvFrom (i size : ℕ) (p : RecvFromPoint) :
    (recvFromCode i size p).Next fun m m' q =>
      ThreadStep cfg (.recvFrom i size p) m m' (.recvFrom i size q) := by
  cases p with
  | testQue =>
    refine next_readPcb fun m pcb q hpcb hq => ?_
    split at hq <;> cases hq
    · exact of_undisturbed (.refl m) (fun _ => False.elim) id fun _ => id
    · rename_i hempty
      refine of_undisturbed (.refl m) (fun _ => False.elim) (fun _ pcb' hpcb' => ?_) fun _ => id
      rw [hpcb] at hpcb'
      cases hpcb'
      exact not_not.mp hempty
  | testInterrupted =>
    refine next_readPcb fun m pcb q hpcb hq => ?_
    split at hq <;> cases hq
    · exact of_undisturbed (.refl m) (fun _ => False.elim) (fun _ => trivial) fun _ => id
    · rename_i hflag
      refine ⟨fun _ h => h, fun _ h => h, fun _ h => Or.inl h, fun _ h => Or.inl h,
        fun _ => False.elim, id, ?_⟩
      rintro j rfl ⟨pcb', hpcb', hint⟩
      rw [hpcb] at hpcb'
      cases hpcb'
      exact hflag hint
  | pop =>
    refine next_writePcb fun m _ _ => of_undisturbed ?_ (fun _ => False.elim) id fun _ => id
    refine ⟨fun j h => h.modify (by simp), fun j h => h.modify (by simp), fun j h => ?_,
      fun j h => ?_⟩
    · obtain h | ⟨rfl, pcb, hpcb, hready⟩ := h.of_modify
      · exact h
      · refine ⟨pcb, hpcb, hready.imp (fun htail hnil => htail ?_) id⟩
        simp [hnil]
    · exact h.modify fun _ pcb hnil => by simp [hnil]
  | interrupted =>
    refine next_readPcb fun m pcb q hpcb hq => ?_
    split at hq <;> cases hq
    · exact of_undisturbed (.refl m) (fun _ => False.elim) id fun _ => id
    · exact of_undisturbed (.refl m) (fun _ => False.elim) id fun _ => id
  | front =>
    refine next_readPcb fun m pcb q hpcb hq => ?_
    split at hq
    · split at hq <;> cases hq
      exact of_undisturbed (.refl m) (fun _ => False.elim) id fun _ => id
    · cases hq
  | lockMgr =>
    intro m
    split <;> exact of_undisturbed (.refl m) (fun _ => False.elim) id fun _ => id
  | wait =>
    exact fun m => of_undisturbed (.refl m) (fun _ => False.elim) (fun _ => trivial) fun _ => id
  | unlockMgr | throwMgr | lockPcb | unlockPcb =>
    exact fun m => of_undisturbed (.refl m) (fun _ => False.elim) id fun _ => id
  | ret => trivial

/-- The handler fills a queue under its mutex, and then notifies. -/
theorem handle (dst : UInt32) (port : UInt16) (pcbPayload : UdpPcbPayload) (p : HandlePoint) :
    (handleCode dst port pcbPayload p).Next fun m m' q =>
      ThreadStep cfg (.handle dst port pcbPayload p) m m' (.handle dst port pcbPayload q) := by
  cases p with
  | select q =>
    refine next_selectCode ?_ ?_ ?_ q
    · exact fun m _ => of_undisturbed (.refl m) (fun _ => False.elim) id fun _ => id
    · exact fun m => of_undisturbed (.refl m) (fun _ => False.elim) id fun _ => id
    · exact fun m _ => of_undisturbed (.refl m) (fun _ => False.elim) id fun _ => id
  | push j =>
    refine next_writePcb fun m _ _ => ?_
    refine ⟨fun i h => h.modify (by simp), fun i h => h.modify (by simp), fun i h => ?_,
      fun i h => ?_, fun i h => Or.inr h, id, fun _ => False.elim⟩
    · by_cases hij : i = j
      · exact Or.inr (by simp [UdpPoint.held, HandlePoint.held, hij])
      · exact Or.inl (h.modify fun he => absurd he hij)
    · obtain h | ⟨rfl, -⟩ := h.of_modify
      · exact Or.inl h
      · exact Or.inr rfl
  | notify j =>
    refine fun m => of_undisturbed (.refl m) (fun i h => Or.inl ?_) id fun _ => id
    obtain rfl : j = i := h
    exact ⟨_, rfl⟩
  | lockPcb j | unlockMgr j =>
    exact fun m => of_undisturbed (.refl m) (fun _ => Or.inr) id fun _ => id
  | lockMgr | noPcb | unlockPcb j =>
    exact fun m => of_undisturbed (.refl m) (fun _ => False.elim) id fun _ => id
  | ret => trivial

/-- Where the loop of `interruptAll` goes behind block `j`, a later open block is ahead. -/
theorem notifyAhead_nextBlock (h : j < i) (hopen : PcbOpen m i) :
    (nextBlock j EventPoint.state .ret).NotifyAhead i m := by
  obtain ⟨pcb, hpcb, hstate⟩ := hopen
  have hlt := UdpPcbManager.lt_of_block? hpcb
  rw [nextBlock, if_pos (by omega)]
  exact ⟨h, pcb, hpcb, hstate⟩

theorem holds_nextBlock : (UdpPoint.event (nextBlock j EventPoint.state .ret)).Holds m :=
  nextBlock_cases (Q := fun q => (UdpPoint.event q).Holds m) trivial trivial

/-- `interruptAll` raises the flag of an open block and then notifies, with no mutex. -/
theorem event (p : EventPoint) :
    (eventCode p).Next fun m m' q => ThreadStep cfg (.event p) m m' (.event q) := by
  cases p with
  | state j =>
    refine next_readPcb fun m pcb q hpcb hq => ?_
    split at hq <;> cases hq
    · rename_i hstate
      refine of_undisturbed (.refl m) ?_ (fun _ => ⟨pcb, hpcb, hstate⟩) fun _ => id
      rintro i ⟨hji, hopen⟩
      rcases Nat.eq_or_lt_of_le hji with he | hlt
      · exact Or.inr (Or.inl he)
      · exact Or.inr (Or.inr ⟨hlt, hopen⟩)
    · rename_i hclosed
      refine of_undisturbed (.refl m) ?_ (fun _ => holds_nextBlock) fun _ => id
      rintro i ⟨hji, hopen⟩
      refine Or.inr (notifyAhead_nextBlock (Nat.lt_of_le_of_ne hji ?_) hopen)
      rintro rfl
      obtain ⟨pcb', hpcb', hstate⟩ := hopen
      rw [hpcb] at hpcb'
      cases hpcb'
      exact hclosed hstate
  | setInterrupted j =>
    refine next_writePcb fun m pcb hpcb => ?_
    have hopen : ∀ i, PcbOpen m i →
        PcbOpen (m.modify j fun elm => { elm with interrupted := 1 }) i :=
      fun i h => h.modify (by simp)
    refine ⟨hopen, fun i h => h.modify (by simp), fun i h => Or.inl ?_, fun i h => ?_,
      fun i h => Or.inr ?_, fun h => ⟨hopen j h, ?_⟩, fun _ => False.elim⟩
    · exact h.modify fun _ pcb hnil => hnil
    · obtain h | ⟨rfl, -⟩ := h.of_modify
      · exact Or.inl h
      · exact Or.inr (Or.inl rfl)
    · exact h.imp id fun h => ⟨h.1, hopen i h.2⟩
    · exact ⟨{ pcb with interrupted := 1 }, by simp [hpcb], rfl⟩
  | notify j =>
    refine fun m => of_undisturbed (.refl m) ?_ (fun _ => holds_nextBlock) fun _ => id
    rintro i (rfl | ⟨hlt, hopen⟩)
    · exact Or.inl ⟨_, rfl⟩
    · exact Or.inr (notifyAhead_nextBlock hlt hopen)
  | unlockMgr =>
    exact fun m => of_undisturbed (.refl m) (fun i h => Or.inr ⟨Nat.zero_le i, h⟩) id fun _ => id
  | lockMgr | lockPcb j | unlockPcb j =>
    exact fun m => of_undisturbed (.refl m) (fun _ => Or.inr) id fun _ => id
  | ret => trivial

/-- **Every step of every call.** -/
theorem udpProgram (cfg : Config) (p : UdpPoint) :
    ((udpProgram cfg).code p).Next fun m m' q => ThreadStep cfg p m m' q := by
  cases p with
  | «open» p => exact Instr.next_map.mpr (ThreadStep.open p)
  | bind i ipv4 port p => exact Instr.next_map.mpr (bind i ipv4 port p)
  | sendTo i ipAddr p => exact Instr.next_map.mpr (sendTo i ipAddr p)
  | recvFrom i size p => exact Instr.next_map.mpr (recvFrom i size p)
  | handle dst port pcbPayload p => exact Instr.next_map.mpr (handle dst port pcbPayload p)
  | event p => exact Instr.next_map.mpr (event p)

end ThreadStep

/-! ## The invariant of the receivers -/

/-- Only receivers wait, only the two handlers notify, and a call at its end has no notification
ahead. -/
theorem udpProgram_code_cases (cfg : Config) (p : UdpPoint) :
    ((udpProgram cfg).code p).Plain ∨
      ((udpProgram cfg).code p = .ret ∧ ∀ i m, ¬ p.NotifyAhead i m) ∨
      (∃ i size, p = .recvFrom i size .wait) ∨
      (∃ dst port pcbPayload i, p = .handle dst port pcbPayload (.notify i)) ∨
      ∃ i, p = .event (.notify i) := by
  cases p with
  | «open» p =>
    cases p with
    | ret => exact Or.inr (Or.inl ⟨rfl, fun _ _ => id⟩)
    | _ => exact Or.inl trivial
  | bind i ipv4 port p =>
    cases p with
    | ret => exact Or.inr (Or.inl ⟨rfl, fun _ _ => id⟩)
    | select x => cases x <;> exact Or.inl trivial
    | _ => exact Or.inl trivial
  | sendTo i ipAddr p =>
    cases p with
    | ret => exact Or.inr (Or.inl ⟨rfl, fun _ _ => id⟩)
    | search addr port x => cases x <;> exact Or.inl trivial
    | _ => exact Or.inl trivial
  | recvFrom i size p =>
    cases p with
    | ret => exact Or.inr (Or.inl ⟨rfl, fun _ _ => id⟩)
    | wait => exact Or.inr (Or.inr (Or.inl ⟨i, size, rfl⟩))
    | _ => exact Or.inl trivial
  | handle dst port pcbPayload p =>
    cases p with
    | ret => exact Or.inr (Or.inl ⟨rfl, fun _ _ => id⟩)
    | notify i => exact Or.inr (Or.inr (Or.inr (Or.inl ⟨dst, port, pcbPayload, i, rfl⟩)))
    | select x => cases x <;> exact Or.inl trivial
    | _ => exact Or.inl trivial
  | event p =>
    cases p with
    | ret => exact Or.inr (Or.inl ⟨rfl, fun _ _ => id⟩)
    | notify i => exact Or.inr (Or.inr (Or.inr (Or.inr ⟨i, rfl⟩)))
    | _ => exact Or.inl trivial

theorem code_eq_wait {c : ℕ} {mutex : UdpMutex} (h : (udpProgram cfg).code p = .wait c mutex q) :
    ∃ size, p = .recvFrom c size .wait := by
  obtain hplain | ⟨hret, -⟩ | ⟨i, size, rfl⟩ | ⟨_, _, _, _, rfl⟩ | ⟨_, rfl⟩ :=
    udpProgram_code_cases cfg p
  · rw [h] at hplain
    exact hplain.elim
  · rw [h] at hret
    cases hret
  · cases h
    exact ⟨size, rfl⟩
  · cases h
  · cases h

theorem code_eq_notifyAll {c : ℕ} (h : (udpProgram cfg).code p = .notifyAll c q) :
    (∃ dst port pcbPayload, p = .handle dst port pcbPayload (.notify c)) ∨
      p = .event (.notify c) := by
  obtain hplain | ⟨hret, -⟩ | ⟨_, _, rfl⟩ | ⟨dst, port, pcbPayload, i, rfl⟩ | ⟨i, rfl⟩ :=
    udpProgram_code_cases cfg p
  · rw [h] at hplain
    exact hplain.elim
  · rw [h] at hret
    cases hret
  · cases h
  · cases h
    exact Or.inl ⟨dst, port, pcbPayload, rfl⟩
  · cases h
    exact Or.inr rfl

theorem not_notifyAhead_of_ret (h : (udpProgram cfg).code p = .ret) : ¬ p.NotifyAhead i m := by
  obtain hplain | ⟨-, hn⟩ | ⟨_, _, rfl⟩ | ⟨_, _, _, _, rfl⟩ | ⟨_, rfl⟩ :=
    udpProgram_code_cases cfg p
  · rw [h] at hplain
    exact hplain.elim
  · exact hn i m
  · cases h
  · cases h
  · cases h

/-- Open blocks stay open, so what is ahead stays ahead. -/
theorem UdpPoint.NotifyAhead.mono (hopened : PcbOpen m i → PcbOpen m' i)
    (h : p.NotifyAhead i m) : p.NotifyAhead i m' := by
  cases p with
  | handle dst port pcbPayload p => exact h
  | event p =>
    cases p with
    | lockMgr | unlockMgr => exact hopened h
    | state j => exact ⟨h.1, hopened h.2⟩
    | lockPcb j | unlockPcb j | setInterrupted j | notify j =>
      exact h.imp id fun h => ⟨h.1, hopened h.2⟩
    | ret => exact h
  | _ => exact h

/-- What a thread knows is not disturbed by a step that takes place outside its mutexes. -/
theorem UdpPoint.Holds.stable {r : UdpPoint} (hstep : ThreadStep cfg p m m' q)
    (hmutex : ∀ i, UdpMutex.pcb i ∈ p.held → .pcb i ∉ r.held) (h : r.Holds m) : r.Holds m' := by
  cases r with
  | recvFrom i size r =>
    cases r with
    | testInterrupted | wait =>
      exact (hstep.filled i h).resolve_right fun hheld => hmutex i hheld rfl
    | _ => trivial
  | event r =>
    cases r with
    | lockPcb i | unlockPcb i | setInterrupted i => exact hstep.opened i h
    | notify i => exact ⟨hstep.opened i h.1, hstep.interrupted i h.2⟩
    | _ => trivial
  | _ => trivial

section Runs

variable {T : Type} {s s' : UdpThreads T} {t : T}

/-- Mutexes are owned where they are held, and every thread knows what its point says. -/
structure UdpInvariant (cfg : Config) (s : UdpThreads T) : Prop where
  disciplined : Disciplined (udpProgram cfg) UdpPoint.held s
  outline : Outline UdpPoint.Holds s

namespace UdpInvariant

theorem start (m : UdpPcbManager) : UdpInvariant cfg (State.start m : UdpThreads T) :=
  ⟨Disciplined.start m, fun _ _ h => by cases h⟩

/-- The handler notifies under the mutex of the block, so no receiver is then about to sleep. -/
theorem not_wait_of_handle (hs : UdpInvariant cfg s) {dst : UInt32} {port : UInt16}
    {pcbPayload : UdpPcbPayload}
    (ht : s.status t = .running (.handle dst port pcbPayload (.notify i))) {u : T} {size : ℕ}
    (hu : s.status u = .running (.recvFrom i size .wait)) : False := by
  have heq : t = u := by
    refine hs.disciplined.eq_of_held (m := .pcb i) ?_ ?_
    · rw [ht]
      exact rfl
    · rw [hu]
      exact rfl
  subst heq
  rw [ht] at hu
  cases hu

variable [DecidableEq T]

theorem step (hs : UdpInvariant cfg s) (h : Step (udpProgram cfg) s t s') :
    UdpInvariant cfg s' := by
  refine ⟨hs.disciplined.step (udpProgram_respects cfg) h,
    hs.outline.step (ThreadStep.udpProgram cfg) hs.disciplined h ?_ ?_ ?_ ?_⟩
  · intro op
    cases op <;> trivial
  · exact fun hstep => hstep.holds
  · intro p c mutex q hp
    obtain ⟨size, rfl⟩ := code_eq_wait hp
    cases hp
    trivial
  · intro p q u r m' hst hstep hut hu hr
    refine hr.stable hstep fun i hp hr => hut ?_
    refine hs.disciplined.eq_of_held (m := .pcb i) ?_ ?_
    · rw [hu]
      exact hr
    · rw [hst]
      exact hp

/-- A receiver comes to its sleep from the test of the flag only, and the queue was empty then. -/
theorem not_ready_of_arrive (hs : UdpInvariant cfg s) (h : Step (udpProgram cfg) s t s')
    (hwait : AtWait (udpProgram cfg) s' i t) : ¬ PcbReady i s'.data := by
  obtain ⟨p', mutex', q', hst', hp'⟩ := hwait
  obtain ⟨size, rfl⟩ := code_eq_wait hp'
  have hempty : QueEmpty s'.data i := (hs.step h).outline t _ hst'
  have hflag : ¬ PcbInterrupted s'.data i := by
    obtain ⟨p, q, -, hst'', hstep⟩ | ⟨-, ⟨op, -, hst''⟩ | ⟨mutex, q, hst, hst''⟩ |
      ⟨_, _, _, _, -, -, hst''⟩ | ⟨_, -, -, hst''⟩ | ⟨_, _, _, -, hst''⟩⟩ :=
        h.thread_cases (ThreadStep.udpProgram cfg) <;>
      rw [hst'] at hst''
    · obtain rfl := Status.running.inj hst''
      exact hstep.flagTested i rfl
    · cases op <;> cases hst''
    · -- behind its sleep it tests the queue again
      have hwait := hs.disciplined.fromWait t
      rw [hst] at hwait
      obtain ⟨p, c', hp⟩ := hwait
      obtain rfl := Status.running.inj hst''
      obtain ⟨size', rfl⟩ := code_eq_wait hp
      cases hp
    · cases hst''
    · cases hst''
    · cases hst''
  rintro ⟨pcb, hpcb, hque | hint⟩
  · exact hque (hempty pcb hpcb)
  · exact hflag ⟨pcb, hpcb, hint⟩

theorem run {tr : List (Runs.Record (UdpThreads T) T)}
    (h : UdpThreadsRun cfg (State.start m) tr s) : UdpInvariant cfg s :=
  h.invariant (fun hs hl => hs.step hl) (start m)

end UdpInvariant

variable [DecidableEq T]

/-- A thread with a notification ahead keeps it until it notifies. -/
theorem ahead_keep (h : Step (udpProgram cfg) s t s') (hahead : Ahead UdpPoint.NotifyAhead s i t)
    (hn : ¬ AtNotify (udpProgram cfg) s i t) : Ahead UdpPoint.NotifyAhead s' i t := by
  obtain ⟨p, hst, hahead⟩ := hahead
  obtain ⟨p', q, hst₀, hst', hstep⟩ | ⟨-, ⟨_, hst₀, -⟩ | ⟨_, _, hst₀, -⟩ |
    ⟨p', _, _, _, hst₀, hp, -⟩ | ⟨p', hst₀, hp, -⟩ | ⟨_, _, _, hst₀, -⟩⟩ :=
      h.thread_cases (ThreadStep.udpProgram cfg) <;>
    rw [hst] at hst₀
  · obtain rfl := Status.running.inj hst₀
    refine ⟨q, hst', (hstep.ahead i hahead).resolve_left ?_⟩
    rintro ⟨q', hp⟩
    exact hn ⟨p, q', hst, hp⟩
  · cases hst₀
  · cases hst₀
  · obtain rfl := Status.running.inj hst₀
    obtain ⟨size, rfl⟩ := code_eq_wait hp
    exact hahead.elim
  · obtain rfl := Status.running.inj hst₀
    exact absurd hahead (not_notifyAhead_of_ret hp)
  · cases hst₀

/-- **Whoever gives a receiver something notifies it.** -/
theorem udpProgram_announces (cfg : Config) :
    Announces T (udpProgram cfg) (UdpInvariant cfg) PcbReady UdpPoint.NotifyAhead where
  arrive hs h hwait := hs.not_ready_of_arrive h hwait
  access {s t p q f d c} hs hst hp hf hready := by
    have hnext := ThreadStep.udpProgram cfg p
    rw [hp] at hnext
    exact (hnext _ _ _ hf).ready c hready
  keep _ h hahead hn := ahead_keep h hahead hn
  stable {s s' t c p} hs h hahead := by
    obtain ⟨_, _, -, -, hstep⟩ | ⟨hdata, -⟩ := h.thread_cases (ThreadStep.udpProgram cfg)
    · exact hahead.mono (hstep.opened c)
    · rw [hdata]
      exact hahead

variable {tr : List (Runs.Record (UdpThreads T) T)}

/-- In a run whose steps are all guarded, nobody sleeps, or is about to, through what is there for
it. -/
theorem udpThreadsRun_announced (h : UdpThreadsRun cfg (State.start m) tr s)
    (hC : ∀ r ∈ tr, Guarded r.pre r.label) :
    UdpInvariant cfg s ∧ ∀ i, Announced (udpProgram cfg) PcbReady UdpPoint.NotifyAhead i s := by
  refine h.invariant_of (C := Guarded) (I := fun s => UdpInvariant cfg s ∧
    ∀ i, Announced (udpProgram cfg) PcbReady UdpPoint.NotifyAhead i s) ?_ ?_ hC
  · rintro s t s' ⟨hs, hann⟩ hguard hstep
    refine ⟨hs.step hstep, fun i => (hann i).step (udpProgram_announces cfg) hs hstep ?_⟩
    rintro ⟨p, q, hst, hp⟩ w ⟨p', mutex, q', hst', hp'⟩
    obtain ⟨size, rfl⟩ := code_eq_wait hp'
    rcases code_eq_notifyAll hp with ⟨dst, port, pcbPayload, rfl⟩ | rfl
    · exact (hs.not_wait_of_handle hst hst').elim
    · exact hguard i hst ⟨w, size, hst'⟩
  · refine ⟨UdpInvariant.start m, fun i _ t ht => ?_⟩
    rcases ht with ⟨p, mutex, q, hst, -⟩ | ⟨mutex, q, hst⟩ <;> cases hst

/-- **The condition cannot be spared**: behind a step that is not guarded the receiver falls asleep,
and its wake-up is lost. -/
theorem udpThreadsRun_lostWakeup (h : UdpThreadsRun cfg (State.start m) tr s)
    (hstep : Step (udpProgram cfg) s t s') (hC : ¬ Guarded s t) :
    ∃ i u s'', AtWait (udpProgram cfg) s' i u ∧ Step (udpProgram cfg) s' u s'' ∧
      LostWakeup s'' i := by
  simp only [Guarded, not_forall] at hC
  obtain ⟨i, hst, ⟨u, size, hu⟩, hnone⟩ := hC
  have hut : u ≠ t := by
    rintro rfl
    rw [hst] at hu
    cases hu
  have hu' : s'.status u = .running (.recvFrom i size .wait) := (hstep.running_ne hut).mpr hu
  have hs' := hstep.of_notifyAll hst rfl
  obtain ⟨⟨pcb, hpcb, hopen⟩, pcb', hpcb', hint⟩ := (UdpInvariant.run h).outline t _ hst
  have hdata : s'.data = s.data := by rw [hs', State.goto_data, State.wakeAll_data]
  refine ⟨i, u, _, ⟨_, _, _, hu', rfl⟩, .wait hu' rfl, ⟨u, _, _, State.goto_status_self⟩, ?_, ?_⟩
  · rw [hpcb] at hpcb'
    cases hpcb'
    exact ⟨pcb, by rw [State.goto_data, State.own_data, hdata, hpcb], hopen, Or.inr hint⟩
  · rintro v ⟨p, hv, hahead⟩
    rw [State.goto_data, State.own_data, hdata] at hahead
    by_cases hvu : v = u
    · rw [hvu, State.goto_status_self] at hv
      cases hv
    rw [State.goto_status_ne hvu, State.own_status] at hv
    by_cases hvt : v = t
    · -- the notifier has the block behind it
      rw [hvt, hs', State.goto_status_self] at hv
      obtain rfl := Status.running.inj hv
      refine nextBlock_cases (Q := fun q => ¬ (UdpPoint.event q).NotifyAhead i s.data) ?_ ?_ hahead
      · exact fun hahead => Nat.not_succ_le_self i hahead.1
      · exact id
    · exact hnone ⟨v, hvt, p, (hstep.running_ne hvt).mp hv, hahead⟩

/-- **No lost wake-up**, in a run in which no last notification of `interruptAll` falls between the
tests of a receiver and its sleep. -/
theorem udpThreadsRun_noLostWakeup (h : UdpThreadsRun cfg (State.start m) tr s)
    (hC : ∀ r ∈ tr, Guarded r.pre r.label) (i : ℕ) : ¬ LostWakeup s i := by
  rintro ⟨⟨t, ht⟩, ⟨pcb, hpcb, -, hready⟩, hnone⟩
  obtain ⟨u, hu⟩ := (udpThreadsRun_announced h hC).2 i ⟨pcb, hpcb, hready⟩ t (Or.inr ht)
  exact hnone u hu

end Runs

/-- A socket is opened and its receiver falls asleep; then the handler of a datagram has queued it
and is about to notify. -/
theorem udpThreadsRun_noLostWakeup_queued :
    ∃ (tr : List (Runs.Record (UdpThreads Bool) Bool)) (s : UdpThreads Bool),
      UdpThreadsRun ⟨exampleAddress, [], []⟩ (State.start UdpPcbManager.init) tr s ∧
      s.status false = .asleep 0 (.pcb 0) (.recvFrom 0 0 .testQue) ∧
      (s.data.block? 0).map UdpControlBlock.que = some [⟨[], ⟨0, 0⟩⟩] ∧
      ∀ i, ¬ LostWakeup s i := by
  obtain ⟨tr, s, hrun, htest⟩ := exists_run_of_schedule (udpProgram ⟨exampleAddress, [], []⟩)
    (State.start UdpPcbManager.init)
    ((false, .call .open) :: List.replicate 10 (false, .go) ++
      (false, .call (.recvFrom ⟨0, 0⟩ 0)) :: List.replicate 6 (false, .go) ++
      (true, .call (.handle 0 0 ⟨[], ⟨0, 0⟩⟩)) :: List.replicate 7 (true, .go))
    (fun r => decide (r.2.status false = .asleep 0 (.pcb 0) (.recvFrom 0 0 .testQue) ∧
      (r.2.data.block? 0).map UdpControlBlock.que = some [⟨[], ⟨0, 0⟩⟩]) &&
      r.1.all fun step => match step.pre.status step.label with
        | .running (.event _) => false
        | _ => true) (by decide +kernel)
  obtain ⟨hstate, hquiet⟩ := Bool.and_eq_true_iff.mp htest
  obtain ⟨hasleep, hque⟩ := of_decide_eq_true hstate
  refine ⟨tr, s, hrun, hasleep, hque, udpThreadsRun_noLostWakeup hrun fun r hr i hst => ?_⟩
  have hr' := List.all_eq_true.mp hquiet r hr
  rw [hst] at hr'
  cases hr'

/-- **The missed interrupt**: the interrupter took and gave back the mutex of the block; the
receiver tests its predicate; the interrupter raises the flag, notifies, and is done; the receiver
falls asleep. -/
theorem not_forall_noLostWakeup :
    ¬ ∀ (cfg : Config) (tr : List (Runs.Record (UdpThreads Bool) Bool)) (s : UdpThreads Bool),
      UdpThreadsRun cfg (State.start UdpPcbManager.init) tr s → ∀ i, ¬ LostWakeup s i := by
  intro hall
  obtain ⟨tr, s, hrun, htest⟩ := exists_run_of_schedule (udpProgram ⟨exampleAddress, [], []⟩)
    (State.start UdpPcbManager.init)
    ((false, .call .open) :: List.replicate 10 (false, .go) ++
      (true, .call .event) :: List.replicate 5 (true, .go) ++
      (false, .call (.recvFrom ⟨0, 0⟩ 0)) :: List.replicate 5 (false, .go) ++
      (true, .go) :: (true, .go) :: (false, .go) :: List.replicate 100 (true, .go))
    (fun r => decide (r.2.status false = .asleep 0 (.pcb 0) (.recvFrom 0 0 .testQue) ∧
      r.2.status true = .idle) &&
      (r.2.data.block? 0).any fun pcb : UdpControlBlock =>
        decide (pcb.state = .OPEN ∧ pcb.interrupted = 1))
    (by decide +kernel)
  obtain ⟨hstate, hblock⟩ := Bool.and_eq_true_iff.mp htest
  obtain ⟨hasleep, hidle⟩ := of_decide_eq_true hstate
  obtain ⟨pcb, hpcb, hflag⟩ := (Option.any_eq_true _ _).mp hblock
  obtain ⟨hopen, hint⟩ := of_decide_eq_true hflag
  refine hall _ tr s hrun 0 ⟨⟨false, _, _, hasleep⟩, ⟨pcb, hpcb, hopen, Or.inr hint⟩, ?_⟩
  rintro (_ | _) ⟨p, hst, -⟩
  · rw [hasleep] at hst
    cases hst
  · rw [hidle] at hst
    cases hst

end Suika
