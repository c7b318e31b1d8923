import Suika.Lib.Threads
import Suika.UdpSocket

/-!
# The UDP layer as threads

`lib/Udp.cpp` and `lib/UdpControlBlock.cpp` once more, at the granularity of the machine: every
mutex taken or given back, every access to a field of a control block and every notification is a
step of its own. What a call evaluates before it takes its first mutex is an argument here; what
`sendTo` does once it gave its mutexes back does not touch the table and is left out, as is what the
calls return.

There are two kinds of mutexes: that of the manager, and one for each block. A temporary
`std::lock_guard` gives its mutex back at the end of its own statement, so `UdpEventHandler::handle`
and `interruptAll` hold none over what follows.
-/

namespace Suika

open Threads

/-- `UdpPcbManager::mutex`, and `UdpControlBlock::mutex` of each block. -/
inductive UdpMutex : Type where
  | pcbMgr
  | pcb (i : ℕ)
  deriving DecidableEq

/-- An instruction over the table. A condition variable is the index of its block. -/
abbrev UdpInstr (P : Type) : Type := Instr UdpMutex ℕ UdpPcbManager P

section Instructions

variable {P : Type}

/-- Read a field of a block. -/
def readPcb (i : ℕ) (next : UdpControlBlock → Option P) : UdpInstr P :=
  .access fun m => (m.block? i).bind fun pcb => (next pcb).map fun q => (m, q)

/-- Write a field of a block. -/
def writePcb (i : ℕ) (f : UdpControlBlock → UdpControlBlock) (next : P) : UdpInstr P :=
  .access fun m => (m.block? i).map fun _ => (m.modify i f, next)

/-- Where the loop over the blocks goes from block `i`. -/
def nextBlock (i : ℕ) (next : ℕ → P) (done : P) : P :=
  if i + 1 < udpPcbListSize then next (i + 1) else done

/-- The points of `select`, at block `i`. -/
inductive SelectPoint : Type where
  | state (i : ℕ)
  | addrAny (i : ℕ)
  | addr (i : ℕ)
  | port (i : ℕ)
  deriving DecidableEq

/-- `UdpPcbManager::select` inside a call; `here` are the points of the call that stand for it. -/
def selectCode (ipv4 : UInt32) (port : UInt16) (found : ℕ → P) (unexpected : P)
    (here : SelectPoint → P) : SelectPoint → UdpInstr P
  | .state i => readPcb i fun elm => some <|
    if elm.state = .OPEN then here (.addrAny i)
    else nextBlock i (fun j => here (.state j)) unexpected
  | .addrAny i => readPcb i fun elm => some <|
    if elm.endpoint.addr = ipAddrAny then here (.port i) else here (.addr i)
  | .addr i => readPcb i fun elm => some <|
    if elm.endpoint.addr = ipv4 then here (.port i)
    else nextBlock i (fun j => here (.state j)) unexpected
  | .port i => readPcb i fun elm => some <|
    if elm.endpoint.port = port then found i
    else nextBlock i (fun j => here (.state j)) unexpected

end Instructions

/-! ## The calls -/

/-- The points of `UdpSocket::open` with `alloc` in it. -/
inductive OpenPoint : Type where
  | lockMgr
  | state (i : ℕ)
  | setState (i : ℕ)
  | setId (i : ℕ)
  | setAddr (i : ℕ)
  | setPort (i : ℕ)
  | getId (i : ℕ)
  | getPcbId (i : ℕ)
  | unlockMgr
  | ret
  deriving DecidableEq

def openCode : OpenPoint → UdpInstr OpenPoint
  | .lockMgr => .lock .pcbMgr (.state 0)
  | .state i => readPcb i fun elm => some <|
    if elm.state = .FREE then .setState i else nextBlock i .state .unlockMgr
  | .setState i => writePcb i (fun elm => { elm with state := .OPEN }) (.setId i)
  | .setId i => writePcb i (fun elm => { elm with id := i }) (.setAddr i)
  | .setAddr i => writePcb i (fun elm => { elm with endpoint.addr := ipAddrAny }) (.setPort i)
  | .setPort i => writePcb i (fun elm => { elm with endpoint.port := 0 }) (.getId i)
  | .getId i => readPcb i fun _ => some (.getPcbId i)
  | .getPcbId i => readPcb i fun _ => some .unlockMgr
  | .unlockMgr => .unlock .pcbMgr .ret
  | .ret => .ret

inductive BindPoint : Type where
  | lockMgr
  | select (p : SelectPoint)
  | lockPcb
  | setAddr
  | setPort
  | unlockPcb
  | unlockMgr
  | ret
  deriving DecidableEq

/-- `UdpSocket::bind` on block `i`. Without such a block `get` throws, and the lock of the manager
is given back. -/
def bindCode (i : ℕ) (ipv4 : UInt32) (port : UInt16) : BindPoint → UdpInstr BindPoint
  | .lockMgr => .lock .pcbMgr (.select (.state 0))
  | .select p => selectCode ipv4 port (fun _ => .unlockMgr)
    (if i < udpPcbListSize then .lockPcb else .unlockMgr) .select p
  | .lockPcb => .lock (.pcb i) .setAddr
  | .setAddr => writePcb i (fun pcb => { pcb with endpoint.addr := ipv4 }) .setPort
  | .setPort => writePcb i (fun pcb => { pcb with endpoint.port := port }) .unlockPcb
  | .unlockPcb => .unlock (.pcb i) .unlockMgr
  | .unlockMgr => .unlock .pcbMgr .ret
  | .ret => .ret

inductive SendToPoint : Type where
  | lockMgr
  | state
  | lockPcb
  | addrAny
  | addr
  | port (addr : UInt32)
  | search (addr : UInt32) (p : UInt16) (q : SelectPoint)
  | setPort (p : UInt16)
  | assigned
  | localPort
  | unlockMgr
  | unlockPcb
  | throwPcb
  | throwMgr
  | ret
  deriving DecidableEq

/-- `UdpSocket::sendTo` on block `i`, up to its transmission. It gives its mutexes back by hand, the
manager's first; where it throws, they go in the order of the destructors. -/
def sendToCode (cfg : Config) (i : ℕ) (ipAddr : UInt32) : SendToPoint → UdpInstr SendToPoint
  | .lockMgr => .lock .pcbMgr (if i < udpPcbListSize then .state else .throwMgr)
  | .state => readPcb i fun pcb => some <| if pcb.state ≠ .OPEN then .throwMgr else .lockPcb
  | .lockPcb => .lock (.pcb i) .addrAny
  | .addrAny => readPcb i fun pcb =>
    if pcb.endpoint.addr = ipAddrAny then
      match cfg.lookup ipAddr with
      | .ok route => some (.port route.interface.unicast)
      | .error _ => none
    else some .addr
  | .addr => readPcb i fun pcb => some (.port pcb.endpoint.addr)
  | .port addr => readPcb i fun pcb => some <|
    if pcb.endpoint.port = 0 then .search addr sourcePortMin (.state 0) else .localPort
  | .search addr p q => selectCode addr p (fun _ => .search addr (p + 1) (.state 0)) (.setPort p)
    (.search addr p) q
  | .setPort p => writePcb i (fun pcb => { pcb with endpoint.port := p }) .assigned
  | .assigned => readPcb i fun pcb => some <|
    if pcb.endpoint.port = 0 then .throwPcb else .localPort
  | .localPort => readPcb i fun _ => some .unlockMgr
  | .unlockMgr => .unlock .pcbMgr .unlockPcb
  | .unlockPcb => .unlock (.pcb i) .ret
  | .throwPcb => .unlock (.pcb i) .throwMgr
  | .throwMgr => .unlock .pcbMgr .ret
  | .ret => .ret

inductive RecvFromPoint : Type where
  | lockMgr
  | unlockMgr
  | throwMgr
  | lockPcb
  | testQue
  | testInterrupted
  | wait
  | interrupted
  | front
  | pop
  | unlockPcb
  | ret
  deriving DecidableEq

/-- `UdpSocket::recvFrom` on block `i`, into a buffer of `size` bytes. `cv.wait` tests its
predicate, the queue first, before it sleeps and each time it wakes up. -/
def recvFromCode (i size : ℕ) : RecvFromPoint → UdpInstr RecvFromPoint
  | .lockMgr => .lock .pcbMgr (if i < udpPcbListSize then .unlockMgr else .throwMgr)
  | .unlockMgr => .unlock .pcbMgr .lockPcb
  | .throwMgr => .unlock .pcbMgr .ret
  | .lockPcb => .lock (.pcb i) .testQue
  | .testQue => readPcb i fun pcb => some <|
    if pcb.que ≠ [] then .interrupted else .testInterrupted
  | .testInterrupted => readPcb i fun pcb => some <|
    if pcb.interrupted = 1 then .interrupted else .wait
  | .wait => .wait i (.pcb i) .testQue
  | .interrupted => readPcb i fun pcb => some <|
    if pcb.interrupted = 1 then .unlockPcb else .front
  | .front => readPcb i fun pcb =>
    match pcb.que with
    | payload :: _ => if payload.data.length ≤ size then some .pop else none
    | [] => none
  | .pop => writePcb i (fun pcb => { pcb with que := pcb.que.tail }) .unlockPcb
  | .unlockPcb => .unlock (.pcb i) .ret
  | .ret => .ret

inductive HandlePoint : Type where
  | lockMgr
  | select (p : SelectPoint)
  | noPcb
  | lockPcb (j : ℕ)
  | unlockMgr (j : ℕ)
  | push (j : ℕ)
  | notify (j : ℕ)
  | unlockPcb (j : ℕ)
  | ret
  deriving DecidableEq

/-- `UdpHandler::handle`, with a segment whose checksum it has accepted. -/
def handleCode (dst : UInt32) (port : UInt16) (pcbPayload : UdpPcbPayload) :
    HandlePoint → UdpInstr HandlePoint
  | .lockMgr => .lock .pcbMgr (.select (.state 0))
  | .select p => selectCode dst port .lockPcb .noPcb .select p
  | .noPcb => .unlock .pcbMgr .ret
  | .lockPcb j => .lock (.pcb j) (.unlockMgr j)
  | .unlockMgr j => .unlock .pcbMgr (.push j)
  | .push j => writePcb j (fun pcb => { pcb with que := pcb.que ++ [pcbPayload] }) (.notify j)
  | .notify j => .notifyAll j (.unlockPcb j)
  | .unlockPcb j => .unlock (.pcb j) .ret
  | .ret => .ret

inductive EventPoint : Type where
  | lockMgr
  | unlockMgr
  | state (i : ℕ)
  | lockPcb (i : ℕ)
  | unlockPcb (i : ℕ)
  | setInterrupted (i : ℕ)
  | notify (i : ℕ)
  | ret
  deriving DecidableEq

/-- `UdpEventHandler::handle` with `interruptAll` in it. Both lock guards are temporaries. -/
def eventCode : EventPoint → UdpInstr EventPoint
  | .lockMgr => .lock .pcbMgr .unlockMgr
  | .unlockMgr => .unlock .pcbMgr (.state 0)
  | .state i => readPcb i fun elm => some <|
    if elm.state = .OPEN then .lockPcb i else nextBlock i .state .ret
  | .lockPcb i => .lock (.pcb i) (.unlockPcb i)
  | .unlockPcb i => .unlock (.pcb i) (.setInterrupted i)
  | .setInterrupted i => writePcb i (fun elm => { elm with interrupted := 1 }) (.notify i)
  | .notify i => .notifyAll i (nextBlock i .state .ret)
  | .ret => .ret

/-! ## The program -/

/-- The calls, with what they evaluate before their first mutex. -/
inductive UdpCall : Type where
  | «open»
  | bind (sock : UdpSocket) (ipv4 : UInt32) (port : UInt16)
  | sendTo (sock : UdpSocket) (ipAddr : UInt32)
  | recvFrom (sock : UdpSocket) (size : ℕ)
  | handle (dst : UInt32) (port : UInt16) (pcbPayload : UdpPcbPayload)
  | event

/-- A point of one of the calls. -/
inductive UdpPoint : Type where
  | «open» (p : OpenPoint)
  | bind (i : ℕ) (ipv4 : UInt32) (port : UInt16) (p : BindPoint)
  | sendTo (i : ℕ) (ipAddr : UInt32) (p : SendToPoint)
  | recvFrom (i size : ℕ) (p : RecvFromPoint)
  | handle (dst : UInt32) (port : UInt16) (pcbPayload : UdpPcbPayload) (p : HandlePoint)
  | event (p : EventPoint)
  deriving DecidableEq

def UdpCall.entry : UdpCall → UdpPoint
  | .open => .open .lockMgr
  | .bind sock ipv4 port => .bind sock.block ipv4 port .lockMgr
  | .sendTo sock ipAddr => .sendTo sock.block ipAddr .lockMgr
  | .recvFrom sock size => .recvFrom sock.block size .lockMgr
  | .handle dst port pcbPayload => .handle dst port pcbPayload .lockMgr
  | .event => .event .lockMgr

def UdpPoint.code (cfg : Config) : UdpPoint → UdpInstr UdpPoint
  | .open p => (openCode p).map .open
  | .bind i ipv4 port p => (bindCode i ipv4 port p).map (.bind i ipv4 port)
  | .sendTo i ipAddr p => (sendToCode cfg i ipAddr p).map (.sendTo i ipAddr)
  | .recvFrom i size p => (recvFromCode i size p).map (.recvFrom i size)
  | .handle dst port pcbPayload p => (handleCode dst port pcbPayload p).map
    (.handle dst port pcbPayload)
  | .event p => (eventCode p).map .event

/-- The UDP layer. -/
def udpProgram (cfg : Config) : Program UdpMutex ℕ UdpPcbManager UdpCall UdpPoint :=
  ⟨UdpCall.entry, UdpPoint.code cfg⟩

/-- What the threads `T` share, and where each of them is. -/
abbrev UdpThreads (T : Type) : Type := State T UdpMutex ℕ UdpPcbManager UdpPoint

/-- The runs of any threads that make any calls, with their trace. -/
abbrev UdpThreadsRun {T : Type} [DecidableEq T] (cfg : Config) :=
  Runs.Run (Step (T := T) (udpProgram cfg))

/-! ## The mutexes held at each point -/

def OpenPoint.held : OpenPoint → Set UdpMutex
  | .lockMgr | .ret => ∅
  | _ => {.pcbMgr}

def BindPoint.held (i : ℕ) : BindPoint → Set UdpMutex
  | .lockMgr | .ret => ∅
  | .select _ | .lockPcb | .unlockMgr => {.pcbMgr}
  | .setAddr | .setPort | .unlockPcb => {.pcbMgr, .pcb i}

def SendToPoint.held (i : ℕ) : SendToPoint → Set UdpMutex
  | .lockMgr | .ret => ∅
  | .state | .lockPcb | .throwMgr => {.pcbMgr}
  | .unlockPcb => {.pcb i}
  | _ => {.pcbMgr, .pcb i}

def RecvFromPoint.held (i : ℕ) : RecvFromPoint → Set UdpMutex
  | .lockMgr | .lockPcb | .ret => ∅
  | .unlockMgr | .throwMgr => {.pcbMgr}
  | _ => {.pcb i}

def HandlePoint.held : HandlePoint → Set UdpMutex
  | .lockMgr | .ret => ∅
  | .select _ | .noPcb | .lockPcb _ => {.pcbMgr}
  | .unlockMgr j => {.pcbMgr, .pcb j}
  | .push j | .notify j | .unlockPcb j => {.pcb j}

def EventPoint.held : EventPoint → Set UdpMutex
  | .unlockMgr => {.pcbMgr}
  | .unlockPcb i => {.pcb i}
  | _ => ∅

def UdpPoint.held : UdpPoint → Set UdpMutex
  | .open p => p.held
  | .bind i _ _ p => p.held i
  | .sendTo i _ p => p.held i
  | .recvFrom i _ p => p.held i
  | .handle _ _ _ p => p.held
  | .event p => p.held

/-! ## Every instruction agrees with them -/

section Respects

variable {P : Type} {held : P → Set UdpMutex} {h : Set UdpMutex}
  {R : UdpPcbManager → UdpPcbManager → P → Prop}

theorem next_readPcb {i : ℕ} {next : UdpControlBlock → Option P}
    (hnext : ∀ m pcb q, m.block? i = some pcb → next pcb = some q → R m m q) :
    (readPcb i next).Next R := by
  intro m m' q hq
  obtain ⟨pcb, hpcb, hq⟩ := Option.bind_eq_some_iff.mp hq
  obtain ⟨q', hq', he⟩ := Option.map_eq_some_iff.mp hq
  cases he
  exact hnext m pcb q hpcb hq'

theorem next_writePcb {i : ℕ} {f : UdpControlBlock → UdpControlBlock} {next : P}
    (hnext : ∀ m pcb, m.block? i = some pcb → R m (m.modify i f) next) :
    (writePcb i f next).Next R := by
  intro m m' q hq
  obtain ⟨pcb, hpcb, he⟩ := Option.map_eq_some_iff.mp hq
  cases he
  exact hnext m pcb hpcb

theorem respects_readPcb {i : ℕ} {next : UdpControlBlock → Option P}
    (hnext : ∀ pcb q, next pcb = some q → held q = h) : (readPcb i next).Respects held h :=
  next_readPcb fun _ pcb q _ hq => hnext pcb q hq

theorem respects_writePcb {i : ℕ} {f : UdpControlBlock → UdpControlBlock} {next : P}
    (hnext : held next = h) : (writePcb i f next).Respects held h :=
  next_writePcb fun _ _ _ => hnext

theorem nextBlock_cases {i : ℕ} {next : ℕ → P} {done : P} {Q : P → Prop}
    (hnext : Q (next (i + 1))) (hdone : Q done) : Q (nextBlock i next done) := by
  unfold nextBlock
  split
  · exact hnext
  · exact hdone

/-- `select` reads, and goes on inside itself or where its caller does. -/
theorem next_selectCode {ipv4 : UInt32} {port : UInt16} {found : ℕ → P} {unexpected : P}
    {here : SelectPoint → P} (hfound : ∀ m i, R m m (found i)) (hnone : ∀ m, R m m unexpected)
    (hhere : ∀ m p, R m m (here p)) (p : SelectPoint) :
    (selectCode ipv4 port found unexpected here p).Next R := by
  have hrest : ∀ m i, R m m (nextBlock i (fun j => here (.state j)) unexpected) :=
    fun m i => nextBlock_cases (hhere m _) (hnone m)
  cases p with
  | state i | addrAny i | addr i | port i =>
    refine next_readPcb fun m pcb q _ hq => ?_
    split at hq <;> cases hq <;> simp [hfound, hhere, hrest]

/-- `select` runs under the mutexes it is called with. -/
theorem respects_selectCode {ipv4 : UInt32} {port : UInt16} {found : ℕ → P} {unexpected : P}
    {here : SelectPoint → P} (hfound : ∀ i, held (found i) = h) (hnone : held unexpected = h)
    (hhere : ∀ p, held (here p) = h) (p : SelectPoint) :
    (selectCode ipv4 port found unexpected here p).Respects held h := by
  have hnext : (selectCode ipv4 port found unexpected here p).Next fun _ _ q => held q = h :=
    next_selectCode (fun _ => hfound) (fun _ => hnone) (fun _ => hhere) p
  cases p <;> exact hnext

theorem openCode_respects (p : OpenPoint) : (openCode p).Respects OpenPoint.held p.held := by
  cases p with
  | state i =>
    refine respects_readPcb fun pcb q hq => ?_
    split at hq <;> cases hq
    · rfl
    · exact nextBlock_cases (Q := fun q => OpenPoint.held q = _) rfl rfl
  | getId i | getPcbId i =>
    refine respects_readPcb fun pcb q hq => ?_
    cases hq
    rfl
  | setState i | setId i | setAddr i | setPort i => exact respects_writePcb rfl
  | _ => simp [openCode, Instr.Respects, OpenPoint.held]

theorem bindCode_respects (i : ℕ) (ipv4 : UInt32) (port : UInt16) (p : BindPoint) :
    (bindCode i ipv4 port p).Respects (BindPoint.held i) (p.held i) := by
  cases p with
  | select q =>
    refine respects_selectCode ?_ ?_ ?_ q
    · exact fun _ => rfl
    · split <;> rfl
    · exact fun _ => rfl
  | setAddr | setPort => exact respects_writePcb rfl
  | lockPcb => exact fun n => by cases n <;> simp [BindPoint.held]
  | unlockPcb => exact ⟨by simp [BindPoint.held], fun n => by cases n <;> simp [BindPoint.held]⟩
  | _ => simp [bindCode, Instr.Respects, BindPoint.held]

theorem sendToCode_respects (cfg : Config) (i : ℕ) (ipAddr : UInt32) (p : SendToPoint) :
    (sendToCode cfg i ipAddr p).Respects (SendToPoint.held i) (p.held i) := by
  cases p with
  | search addr port q =>
    refine respects_selectCode ?_ ?_ ?_ q
    · exact fun _ => rfl
    · rfl
    · exact fun _ => rfl
  | addrAny =>
    refine respects_readPcb fun pcb q hq => ?_
    split at hq
    · split at hq <;> cases hq
      rfl
    · cases hq
      rfl
  | state | port addr | assigned =>
    refine respects_readPcb fun pcb q hq => ?_
    split at hq <;> cases hq <;> rfl
  | addr | localPort =>
    refine respects_readPcb fun pcb q hq => ?_
    cases hq
    rfl
  | setPort port => exact respects_writePcb rfl
  | lockMgr =>
    intro n
    split <;> simp [SendToPoint.held]
  | lockPcb => exact fun n => by cases n <;> simp [SendToPoint.held]
  | unlockMgr | throwPcb =>
    exact ⟨by simp [SendToPoint.held], fun n => by cases n <;> simp [SendToPoint.held]⟩
  | _ => simp [sendToCode, Instr.Respects, SendToPoint.held]

theorem recvFromCode_respects (i size : ℕ) (p : RecvFromPoint) :
    (recvFromCode i size p).Respects (RecvFromPoint.held i) (p.held i) := by
  cases p with
  | testQue | testInterrupted | interrupted =>
    refine respects_readPcb fun pcb q hq => ?_
    split at hq <;> cases hq <;> rfl
  | front =>
    refine respects_readPcb fun pcb q hq => ?_
    split at hq
    · split at hq <;> cases hq
      rfl
    · cases hq
  | pop => exact respects_writePcb rfl
  | lockMgr =>
    intro n
    split <;> simp [RecvFromPoint.held]
  | wait => exact ⟨rfl, rfl⟩
  | _ => simp [recvFromCode, Instr.Respects, RecvFromPoint.held]

theorem handleCode_respects (dst : UInt32) (port : UInt16) (pcbPayload : UdpPcbPayload)
    (p : HandlePoint) : (handleCode dst port pcbPayload p).Respects HandlePoint.held p.held := by
  cases p with
  | select q =>
    refine respects_selectCode ?_ ?_ ?_ q
    · exact fun _ => rfl
    · rfl
    · exact fun _ => rfl
  | push j => exact respects_writePcb rfl
  | notify j => rfl
  | lockPcb j => exact fun n => by cases n <;> simp [HandlePoint.held]
  | unlockMgr j =>
    exact ⟨by simp [HandlePoint.held], fun n => by cases n <;> simp [HandlePoint.held]⟩
  | _ => simp [handleCode, Instr.Respects, HandlePoint.held]

theorem eventCode_respects (p : EventPoint) : (eventCode p).Respects EventPoint.held p.held := by
  cases p with
  | state i =>
    refine respects_readPcb fun pcb q hq => ?_
    split at hq <;> cases hq
    · rfl
    · exact nextBlock_cases (Q := fun q => EventPoint.held q = _) rfl rfl
  | setInterrupted i => exact respects_writePcb rfl
  | notify i => exact nextBlock_cases (Q := fun q => EventPoint.held q = _) rfl rfl
  | _ => simp [eventCode, Instr.Respects, EventPoint.held]

end Respects

/-- **Every call takes and gives back its mutexes as the points say.** -/
theorem udpProgram_respects (cfg : Config) : Respects (udpProgram cfg) UdpPoint.held where
  entry op := by cases op <;> rfl
  code p := by
    cases p with
    | «open» p => exact Instr.respects_map.mpr (openCode_respects p)
    | bind i ipv4 port p => exact Instr.respects_map.mpr (bindCode_respects i ipv4 port p)
    | sendTo i ipAddr p => exact Instr.respects_map.mpr (sendToCode_respects cfg i ipAddr p)
    | recvFrom i size p => exact Instr.respects_map.mpr (recvFromCode_respects i size p)
    | handle dst port pcbPayload p =>
      exact Instr.respects_map.mpr (handleCode_respects dst port pcbPayload p)
    | event p => exact Instr.respects_map.mpr (eventCode_respects p)

/-! ## No deadlock -/

/-- The manager comes before the blocks. -/
def UdpMutex.rank : UdpMutex → Fin 2
  | .pcbMgr => 0
  | .pcb _ => 1

theorem selectCode_ascends {P : Type} {ipv4 : UInt32} {port : UInt16} {found : ℕ → P}
    {unexpected : P} {here : SelectPoint → P} {h : Set UdpMutex} (p : SelectPoint) :
    (selectCode ipv4 port found unexpected here p).Ascends UdpMutex.rank h := by
  cases p <;> trivial

/-- **The manager's mutex is taken with none in hand, and a block's with at most the manager's.** -/
theorem udpProgram_ascends (cfg : Config) :
    Ascends (udpProgram cfg) UdpPoint.held UdpMutex.rank := by
  intro p
  cases p with
  | «open» p =>
    refine Instr.ascends_map.mpr ?_
    cases p <;> simp [openCode, Instr.Ascends, readPcb, writePcb, UdpPoint.held, OpenPoint.held]
  | bind i ipv4 port p =>
    refine Instr.ascends_map.mpr ?_
    cases p with
    | select q => exact selectCode_ascends q
    | _ => simp [bindCode, Instr.Ascends, writePcb, UdpPoint.held, BindPoint.held, UdpMutex.rank]
  | sendTo i ipAddr p =>
    refine Instr.ascends_map.mpr ?_
    cases p with
    | search addr port q => exact selectCode_ascends q
    | _ =>
      simp [sendToCode, Instr.Ascends, readPcb, writePcb, UdpPoint.held, SendToPoint.held,
        UdpMutex.rank]
  | recvFrom i size p =>
    refine Instr.ascends_map.mpr ?_
    cases p <;>
      simp [recvFromCode, Instr.Ascends, readPcb, writePcb, UdpPoint.held, RecvFromPoint.held]
  | handle dst port pcbPayload p =>
    refine Instr.ascends_map.mpr ?_
    cases p with
    | select q => exact selectCode_ascends q
    | _ =>
      simp [handleCode, Instr.Ascends, writePcb, UdpPoint.held, HandlePoint.held, UdpMutex.rank]
  | event p =>
    refine Instr.ascends_map.mpr ?_
    cases p <;> simp [eventCode, Instr.Ascends, readPcb, writePcb, UdpPoint.held, EventPoint.held]

section Runs

variable {T : Type} [DecidableEq T] {cfg : Config} {m : UdpPcbManager}
  {tr : List (Runs.Record (UdpThreads T) T)} {s : UdpThreads T}

/-- In every run a mutex is owned by the thread that holds it. -/
theorem udpThreadsRun_disciplined (h : UdpThreadsRun cfg (State.start m) tr s) :
    Disciplined (udpProgram cfg) UdpPoint.held s :=
  Disciplined.run (udpProgram_respects cfg) h

/-- **The UDP layer cannot deadlock**: no set of threads waits for mutexes of its own, and a thread
with the mutex of a block does not wait for that of the manager. -/
theorem udpThreadsRun_noDeadlock (h : UdpThreadsRun cfg (State.start m) tr s) :
    (∀ S : Set T, ¬ CircularWait (udpProgram cfg) s S) ∧
      ∀ t i, s.owner (.pcb i) = some t → ¬ Wants (udpProgram cfg) s t .pcbMgr := by
  have hs := udpThreadsRun_disciplined h
  refine ⟨hs.not_circularWait (udpProgram_respects cfg) (udpProgram_ascends cfg), ?_⟩
  intro t i howner hwants
  have habove := hs.wants_above (udpProgram_respects cfg) (udpProgram_ascends cfg) hwants howner
  simp [UdpMutex.rank] at habove

end Runs

/-- A socket is opened, and then three threads stand in a row: the first has the block, the second
has the manager's mutex and waits for the block, the third waits for the manager's mutex. -/
theorem udpThreadsRun_noDeadlock_row :
    ∃ (tr : List (Runs.Record (UdpThreads ℕ) ℕ)) (s : UdpThreads ℕ),
      UdpThreadsRun ⟨exampleAddress, [], []⟩ (State.start UdpPcbManager.init) tr s ∧
      s.owner (.pcb 0) = some 0 ∧ s.owner .pcbMgr = some 1 ∧
      s.status 1 = .running (.sendTo 0 ipAddrAny .lockPcb) ∧
      s.status 2 = .running (.open .lockMgr) ∧
      (∀ S : Set ℕ, ¬ CircularWait (udpProgram ⟨exampleAddress, [], []⟩) s S) ∧
      ∀ t i, s.owner (.pcb i) = some t →
        ¬ Wants (udpProgram ⟨exampleAddress, [], []⟩) s t .pcbMgr := by
  obtain ⟨tr, s, hrun, htest⟩ := exists_run_of_schedule (udpProgram ⟨exampleAddress, [], []⟩)
    (State.start UdpPcbManager.init)
    ((0, .call .open) :: List.replicate 10 (0, .go) ++
      [(0, .call (.recvFrom ⟨0, 0⟩ 0)), (0, .go), (0, .go), (0, .go),
        (1, .call (.sendTo ⟨0, 0⟩ ipAddrAny)), (1, .go), (1, .go), (2, .call .open)])
    (fun r => decide (r.2.owner (.pcb 0) = some 0 ∧ r.2.owner .pcbMgr = some 1 ∧
      r.2.status 1 = .running (.sendTo 0 ipAddrAny .lockPcb) ∧
      r.2.status 2 = .running (.open .lockMgr))) (by decide +kernel)
  obtain ⟨hpcb, hmgr, hsecond, hthird⟩ := of_decide_eq_true htest
  exact ⟨tr, s, hrun, hpcb, hmgr, hsecond, hthird, udpThreadsRun_noDeadlock hrun⟩

end Suika
