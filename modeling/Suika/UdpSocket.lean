import Suika.Lib.Runs
import Suika.Udp

/-!
# UDP sockets

The socket half of `lib/Udp.cpp`. A socket holds the index of its control block; every operation
goes through the table of blocks. Each operation is one atomic step here, as the locks make it in
the source: `sendTo` gives its locks back before it transmits, and what it does from there on does
not touch the table.

`recvFrom` pops the datagram it returns and only then reads its endpoint and its size, through a
reference to the popped element. The language leaves such reads undefined (`recvFromStrict`). What
happens if a machine goes on with something it has read there, `recvFrom` says; what this is, the
program does not determine, and it is an argument of the model, `DeadRead`.

`UdpOp.effect` says what each operation can do to the table; everything about runs follows from it.
-/

namespace Suika

open Cpp

/-- `udp::UdpSocket` -/
structure UdpSocket : Type where
  id : ℤ
  pcbId : ℤ
  deriving DecidableEq

/-- `SOURCE_PORT_MIN` -/
abbrev sourcePortMin : UInt16 := 39584

/-- What the reads of `recvFrom` through the reference to the popped datagram yield: the `int` made
of `payload.data.size()`, and the endpoint. -/
structure DeadRead : Type where
  size : ℤ
  endpoint : IpEndpoint
  deriving DecidableEq

/-- What a caller of `recvFrom` gets: the returned `int` and the three output parameters. -/
structure Received : Type where
  len : ℤ
  buf : Bytes
  endpoint : IpEndpoint
  deriving DecidableEq

namespace UdpSocket

/-- The block behind a socket. -/
def block (sock : UdpSocket) : ℕ := UdpPcbManager.sizeOfInt sock.pcbId

/-- `UdpSocket::open` -/
def «open» : Call (Except ℤ UdpSocket) := do
  let s ← Comp.get
  match s.udpPcbMgr.alloc with
  | some (m, i) =>
    Comp.set { s with udpPcbMgr := m }
    return .ok ⟨i, i⟩
  | none => return .error (-1)

def bind (sock : UdpSocket) (ipv4str : List Char) (port : UInt16) : Call (Except ℤ ℤ) := do
  let ipv4 ← ipv4strToUint32 ipv4str
  let s ← Comp.get
  match s.udpPcbMgr.select ipv4 port with
  | some _ => return .error (-1)
  | none =>
    let _ ← s.udpPcbMgr.get sock.pcbId
    Comp.set { s with
      udpPcbMgr := s.udpPcbMgr.modify sock.block fun pcb => { pcb with endpoint := ⟨ipv4, port⟩ } }
    return .ok 0

/-- The search of `sendTo` for a port, from `p` on. Its condition `p <= SOURCE_PORT_MAX` holds for
every 16-bit `p`: the search wraps around, and without a free port it does not end. After 65536
rounds it has seen every port. -/
def searchPort (m : UdpPcbManager) (addr : UInt32) : ℕ → UInt16 → Option UInt16
  | 0, _ => none
  | fuel + 1, p =>
    match m.select addr p with
    | some _ => searchPort m addr fuel (p + 1)
    | none => some p

/-- The local address of `sendTo`. -/
def localAddr (cfg : Config) (pcb : UdpControlBlock) (dst : UInt32) : Eval Err UInt32 :=
  if pcb.endpoint.addr = ipAddrAny then do
    let route ← cfg.lookup dst
    return route.interface.unicast
  else .ok pcb.endpoint.addr

/-- The local port of `sendTo`: the port of the block, which gets one if it has none. -/
def localPort (sock : UdpSocket) (pcb : UdpControlBlock) (addr : UInt32) : Call UInt16 := do
  if pcb.endpoint.port = 0 then
    let s ← Comp.get
    match searchPort s.udpPcbMgr addr 65536 sourcePortMin with
    | none => Comp.hang
    | some p =>
      Comp.set { s with
        udpPcbMgr := s.udpPcbMgr.modify sock.block fun pcb =>
          { pcb with endpoint := ⟨pcb.endpoint.addr, p⟩ } }
      if p = 0 then throwRuntime "cant assign port dimamically" else return p
  else return pcb.endpoint.port

def sendTo (cfg : Config) (sock : UdpSocket) (payload : Bytes) (ipv4str : List Char)
    (port : UInt32) : Call ℤ := do
  let ipAddr ← ipv4strToUint32 ipv4str
  let target : IpEndpoint := ⟨ipAddr, port.toUInt16⟩
  let s ← Comp.get
  let pcb ← s.udpPcbMgr.get sock.pcbId
  if pcb.state ≠ .OPEN then throwRuntime "pcb not found"
  else
    let addr ← localAddr cfg pcb ipAddr
    let port ← localPort sock pcb addr
    udpOutput cfg ⟨addr, port⟩ target payload

/-- `recvFrom`, with the output parameters as they were before. While the queue is empty and the
block not interrupted, it waits. `readDead` are the reads of the datagram behind its pop. -/
def recvFromWith (readDead : Call DeadRead) (sock : UdpSocket) (buf : Bytes)
    (endpoint : IpEndpoint) : Call Received := do
  let s ← Comp.get
  let pcb ← s.udpPcbMgr.get sock.pcbId
  if pcb.interrupted = 1 then return ⟨-1, buf, endpoint⟩
  else
    match pcb.que with
    | [] => Comp.hang
    | payload :: rest =>
      let buf ← (copyInto payload.data buf 0 : Eval Err Bytes)
      Comp.set { s with
        udpPcbMgr := s.udpPcbMgr.modify sock.block fun pcb => { pcb with que := rest } }
      let dead ← readDead
      return ⟨dead.size, buf, dead.endpoint⟩

/-- `recvFrom` as the language has it: the element behind the reference is gone. -/
def recvFromStrict (sock : UdpSocket) (buf : Bytes) (endpoint : IpEndpoint) : Call Received :=
  recvFromWith Comp.undefined sock buf endpoint

/-- `recvFrom` on a machine where the reads yield `dead`. -/
def recvFrom (sock : UdpSocket) (buf : Bytes) (endpoint : IpEndpoint) (dead : DeadRead) :
    Call Received := recvFromWith (pure dead) sock buf endpoint

end UdpSocket

/-- `UdpEventHandler::handle` -/
def UdpEventHandler.handle : Call ℤ := do
  let s ← Comp.get
  Comp.set { s with udpPcbMgr := s.udpPcbMgr.interruptAll }
  return 0

/-! ## The search for a port -/

namespace UdpSocket

variable {m : UdpPcbManager} {addr : UInt32} {fuel : ℕ} {p q : UInt16}

/-- What the search returns is free, and everything it passed is taken. -/
theorem searchPort_eq_some (h : searchPort m addr fuel p = some q) :
    ∃ k < fuel, q = p + UInt16.ofNat k ∧ m.select addr q = none ∧
      ∀ j < k, m.select addr (p + UInt16.ofNat j) ≠ none := by
  induction fuel generalizing p with
  | zero => cases h
  | succ fuel ih =>
    rw [searchPort] at h
    split at h
    · rename_i i hi
      obtain ⟨k, hk, rfl, hfree, hbefore⟩ := ih h
      have hshift : ∀ j, p + 1 + UInt16.ofNat j = p + UInt16.ofNat (j + 1) := by
        intro j
        rw [UInt16.add_assoc, UInt16.ofNat_add, UInt16.add_comm 1]
        rfl
      refine ⟨k + 1, by omega, hshift k, hfree, ?_⟩
      rintro (_ | j) hj
      · have hzero : p + UInt16.ofNat 0 = p := UInt16.add_zero p
        rw [hzero, hi]
        exact Option.some_ne_none i
      · rw [← hshift j]
        exact hbefore j (by omega)
    · rename_i hnone
      cases h
      refine ⟨0, by omega, by simp, hnone, fun j hj => absurd hj (by omega)⟩

/-- The search finds a port if one is free within its reach. -/
theorem exists_searchPort {k : ℕ} (hk : k < fuel)
    (hfree : m.select addr (p + UInt16.ofNat k) = none) :
    ∃ q, searchPort m addr fuel p = some q := by
  induction fuel generalizing p k with
  | zero => exact absurd hk (by omega)
  | succ fuel ih =>
    rw [searchPort]
    split
    · rename_i i hi
      obtain ⟨j, rfl⟩ : ∃ j, k = j + 1 := by
        refine ⟨k - 1, ?_⟩
        rcases k with _ | k
        · have hzero : p + UInt16.ofNat 0 = p := UInt16.add_zero p
          rw [hzero, hi] at hfree
          cases hfree
        · rfl
      refine ih (k := j) (by omega) ?_
      rw [UInt16.ofNat_add, UInt16.add_comm _ (UInt16.ofNat 1), ← UInt16.add_assoc] at hfree
      exact hfree
    · exact ⟨p, rfl⟩

/-- The ports the search of `sendTo` looks at first. -/
theorem toNat_sourcePort {k : ℕ} (hk : k ≤ 100) :
    (sourcePortMin + UInt16.ofNat k).toNat = 39584 + k := by
  rw [UInt16.toNat_add, UInt16.toNat_ofNat']
  change (39584 + k % 65536) % 65536 = _
  omega

theorem sourcePort_injective {n : ℕ} (hn : n ≤ 101) :
    Function.Injective fun k : Fin n => sourcePortMin + UInt16.ofNat k := by
  intro k l hkl
  have hkl' := congrArg UInt16.toNat hkl
  dsimp only at hkl'
  rw [toNat_sourcePort (by omega), toNat_sourcePort (by omega)] at hkl'
  exact Fin.ext (by omega)

/-- **The search of `sendTo` always ends**, within the dynamic range: among 101 ports one is free,
since there are 100 blocks. -/
theorem searchPort_sendTo (m : UdpPcbManager) (addr : UInt32) :
    ∃ q, searchPort m addr 65536 sourcePortMin = some q ∧ sourcePortMin ≤ q ∧
      m.select addr q = none ∧ ∀ r, sourcePortMin ≤ r → r < q → m.select addr r ≠ none := by
  have hval : ∀ k : ℕ, k ≤ 100 → (sourcePortMin + UInt16.ofNat k).toNat = 39584 + k :=
    fun k hk => toNat_sourcePort hk
  obtain ⟨k, hk⟩ := m.exists_select_eq_none addr
    (fun k : Fin (udpPcbListSize + 1) => sourcePortMin + UInt16.ofNat k)
    (sourcePort_injective (le_refl _)) (Finset.range udpPcbListSize)
    (fun k i hi => Finset.mem_range.mpr (UdpPcbManager.select_lt hi)) (by simp)
  have hk100 : (k : ℕ) ≤ 100 := Nat.lt_succ_iff.mp k.isLt
  have hreach : (k : ℕ) < 65536 := by omega
  obtain ⟨q, hq⟩ := exists_searchPort hreach hk
  obtain ⟨n, hn, rfl, hfree, hbefore⟩ := searchPort_eq_some hq
  -- the port found is the first free one, so it is not behind the one that is known to be free
  have hn100 : n ≤ 100 := by
    by_contra hgt
    exact hbefore k (by omega) hk
  refine ⟨_, hq, ?_, hfree, fun r hr hrq => ?_⟩
  · rw [UInt16.le_iff_toNat_le, hval n hn100]
    change 39584 ≤ _
    omega
  · rw [UInt16.le_iff_toNat_le] at hr
    rw [UInt16.lt_iff_toNat_lt, hval n hn100] at hrq
    change 39584 ≤ _ at hr
    have hr' : r = sourcePortMin + UInt16.ofNat (r.toNat - 39584) := by
      apply UInt16.toNat_inj.mp
      rw [hval _ (by omega)]
      omega
    rw [hr']
    exact hbefore _ (by omega)

end UdpSocket

/-! ## Each operation, from any state -/

namespace UdpSocket

variable {cfg : Config} {sock : UdpSocket} {s t : Stack} {b : UdpControlBlock}
  {ipv4str : List Char} {a addr : UInt32} {p : UInt16}

theorem get_eq (h : s.udpPcbMgr.block? sock.block = some b) :
    s.udpPcbMgr.get sock.pcbId = .ok b := UdpPcbManager.get_eq sock.pcbId h

theorem get_throws (h : s.udpPcbMgr.block? sock.block = none) :
    s.udpPcbMgr.get sock.pcbId = Eval.throwing .outOfRange := by
  rw [UdpPcbManager.get, ← block, h]

/-- The table after a `bind`. -/
def bindTable (m : UdpPcbManager) (sock : UdpSocket) (a : UInt32) (p : UInt16) : UdpPcbManager :=
  m.modify sock.block fun pcb => { pcb with endpoint := ⟨a, p⟩ }

/-- The table after a `sendTo` that assigned a port. -/
def assignTable (m : UdpPcbManager) (sock : UdpSocket) (p : UInt16) : UdpPcbManager :=
  m.modify sock.block fun pcb => { pcb with endpoint := ⟨pcb.endpoint.addr, p⟩ }

/-- The table after a datagram was taken from a block. -/
def takeTable (m : UdpPcbManager) (sock : UdpSocket) (rest : List UdpPcbPayload) : UdpPcbManager :=
  m.modify sock.block fun pcb => { pcb with que := rest }

theorem open_run :
    («open»).run s =
      match s.udpPcbMgr.alloc with
      | some (m, i) => .done { s with udpPcbMgr := m } (.ok ⟨i, i⟩)
      | none => .done s (.error (-1)) := by
  rw [«open», Comp.run_get_bind]
  cases s.udpPcbMgr.alloc <;> rfl

/-- `bind` refuses an endpoint that `select` finds; every other one it gives to the block, whatever
the state of that block is. -/
theorem bind_run (ha : ipv4strToUint32 ipv4str = .ok a) :
    (bind sock ipv4str p).run s =
      match s.udpPcbMgr.select a p with
      | some _ => .done s (.error (-1))
      | none =>
        match s.udpPcbMgr.block? sock.block with
        | some _ => .done { s with udpPcbMgr := bindTable s.udpPcbMgr sock a p } (.ok 0)
        | none => .threw s .outOfRange := by
  rw [bind, ha, Comp.lift_ok_bind, Comp.run_get_bind]
  cases s.udpPcbMgr.select a p with
  | some i => rfl
  | none =>
    cases hb : s.udpPcbMgr.block? sock.block with
    | some b =>
      dsimp only
      rw [get_eq hb]
      rfl
    | none =>
      dsimp only
      rw [get_throws hb]
      rfl

/-- `sendTo` on an open block without a port: the block gets the port the search found, and the
datagram goes out from there. -/
theorem sendTo_run {payload : Bytes} {port : UInt32} (ha : ipv4strToUint32 ipv4str = .ok a)
    (hb : s.udpPcbMgr.block? sock.block = some b) (hopen : b.state = .OPEN)
    (hport : b.endpoint.port = 0) (haddr : localAddr cfg b a = .ok addr)
    (hp : searchPort s.udpPcbMgr addr 65536 sourcePortMin = some p) :
    (sendTo cfg sock payload ipv4str port).run s =
      (udpOutput cfg ⟨addr, p⟩ ⟨a, port.toUInt16⟩ payload).run
        { s with udpPcbMgr := assignTable s.udpPcbMgr sock p } := by
  -- the search starts far above 0 and ends within 100 steps
  have hp0 : p ≠ 0 := by
    obtain ⟨q, hq, hmin, -⟩ := searchPort_sendTo s.udpPcbMgr addr
    rw [hp] at hq
    cases hq
    rintro rfl
    exact absurd hmin (by decide)
  have hlocal : (localPort sock b addr).run s =
      .done { s with udpPcbMgr := assignTable s.udpPcbMgr sock p } p := by
    rw [localPort, if_pos hport, Comp.run_get_bind, hp]
    dsimp only
    rw [Comp.run_set_bind, if_neg hp0]
    rfl
  rw [sendTo, ha, Comp.lift_ok_bind]
  dsimp only
  rw [Comp.run_get_bind, get_eq hb, Comp.lift_ok_bind, if_neg (not_not.mpr hopen), haddr,
    Comp.lift_ok_bind, Comp.bind_done hlocal]

/-- What it does to the table, however its transmission ends. -/
theorem sendTo_assigns {payload : Bytes} {port : UInt32} (ha : ipv4strToUint32 ipv4str = .ok a)
    (hb : s.udpPcbMgr.block? sock.block = some b) (hopen : b.state = .OPEN)
    (hport : b.endpoint.port = 0) (haddr : localAddr cfg b a = .ok addr)
    (hp : searchPort s.udpPcbMgr addr 65536 sourcePortMin = some p)
    (h : ((sendTo cfg sock payload ipv4str port).run s).next? = some t) :
    t.udpPcbMgr = assignTable s.udpPcbMgr sock p := by
  rw [sendTo_run ha hb hopen hport haddr hp] at h
  -- what is left to do only sends
  exact udpOutput_keeps (Q := fun u => u.udpPcbMgr = assignTable s.udpPcbMgr sock p)
    (fun _ _ _ hu => hu) cfg _ _ _ _ t rfl h

/-- Otherwise `sendTo` leaves the table alone. -/
theorem sendTo_cases {payload : Bytes} {port : UInt32}
    (h : ((sendTo cfg sock payload ipv4str port).run s).next? = some t) :
    t.udpPcbMgr = s.udpPcbMgr ∨
      ∃ a b addr p, ipv4strToUint32 ipv4str = .ok a ∧ s.udpPcbMgr.block? sock.block = some b ∧
        b.state = .OPEN ∧ b.endpoint.port = 0 ∧ localAddr cfg b a = .ok addr ∧
        searchPort s.udpPcbMgr addr 65536 sourcePortMin = some p ∧
        t.udpPcbMgr = assignTable s.udpPcbMgr sock p := by
  have hsend := h
  obtain rfl | ⟨a, ha, h⟩ := Comp.next?_lift_bind h
  · exact Or.inl rfl
  dsimp only at h
  rw [Comp.run_get_bind] at h
  obtain rfl | ⟨b, hget, h⟩ := Comp.next?_lift_bind h
  · exact Or.inl rfl
  have hb := UdpPcbManager.get_eq_ok hget
  by_cases hopen : b.state = .OPEN
  · rw [if_neg (not_not.mpr hopen)] at h
    obtain rfl | ⟨addr, haddr, h⟩ := Comp.next?_lift_bind h
    · exact Or.inl rfl
    by_cases hport : b.endpoint.port = 0
    · obtain ⟨p, hp, -⟩ := searchPort_sendTo s.udpPcbMgr addr
      exact Or.inr ⟨a, b, addr, p, ha, hb, hopen, hport, haddr, hp,
        sendTo_assigns ha hb hopen hport haddr hp hsend⟩
    · rw [localPort, if_neg hport, Comp.pure_bind] at h
      exact Or.inl (udpOutput_keeps (Q := fun u => u.udpPcbMgr = s.udpPcbMgr) (fun _ _ _ hu => hu)
        cfg _ _ _ _ t rfl h)
  · rw [if_pos hopen] at h
    cases h
    exact Or.inl rfl

/-- Nothing the language promises is left of a receive that takes a datagram. -/
theorem recvFromStrict_run {buf : Bytes} {endpoint : IpEndpoint}
    (hb : s.udpPcbMgr.block? sock.block = some b) :
    (recvFromStrict sock buf endpoint).run s =
      if b.interrupted = 1 then .done s ⟨-1, buf, endpoint⟩
      else if b.que = [] then .hangs else .undef := by
  rw [recvFromStrict, recvFromWith, Comp.run_get_bind, get_eq hb, Comp.lift_ok_bind]
  by_cases hint : b.interrupted = 1
  · rw [if_pos hint, if_pos hint]
    rfl
  · rw [if_neg hint, if_neg hint]
    cases b.que with
    | nil => rfl
    | cons payload rest =>
      dsimp only
      rw [if_neg (List.cons_ne_nil payload rest), copyInto]
      split <;> rfl

/-- `recvFrom` on an existing block. -/
theorem recvFrom_run {buf : Bytes} {endpoint : IpEndpoint} {dead : DeadRead}
    (hb : s.udpPcbMgr.block? sock.block = some b) :
    (recvFrom sock buf endpoint dead).run s =
      if b.interrupted = 1 then .done s ⟨-1, buf, endpoint⟩
      else match b.que with
        | [] => .hangs
        | payload :: rest =>
          if payload.data.length ≤ buf.length then
            .done { s with udpPcbMgr := takeTable s.udpPcbMgr sock rest }
              ⟨dead.size, patch buf 0 payload.data, dead.endpoint⟩
          else .undef := by
  rw [recvFrom, recvFromWith, Comp.run_get_bind, get_eq hb, Comp.lift_ok_bind]
  by_cases hint : b.interrupted = 1
  · rw [if_pos hint, if_pos hint]
    rfl
  · rw [if_neg hint, if_neg hint]
    cases b.que with
    | nil => rfl
    | cons payload rest =>
      dsimp only
      by_cases hfit : payload.data.length ≤ buf.length
      · rw [if_pos hfit, copyInto_eq (by omega)]
        rfl
      · rw [if_neg hfit, copyInto, if_neg (by omega)]
        rfl

theorem recvFrom_throws {buf : Bytes} {endpoint : IpEndpoint} {dead : DeadRead}
    (hb : s.udpPcbMgr.block? sock.block = none) :
    (recvFrom sock buf endpoint dead).run s = .threw s .outOfRange := by
  rw [recvFrom, recvFromWith, Comp.run_get_bind, get_throws hb]
  rfl

theorem recvFromStrict_throws {buf : Bytes} {endpoint : IpEndpoint}
    (hb : s.udpPcbMgr.block? sock.block = none) :
    (recvFromStrict sock buf endpoint).run s = .threw s .outOfRange := by
  rw [recvFromStrict, recvFromWith, Comp.run_get_bind, get_throws hb]
  rfl

end UdpSocket

/-! ## Runs of operations -/

/-- The operations on the table, from all sides: the application, the receive path and the signal
handler. -/
inductive UdpOp : Type where
  | «open»
  | bind (sock : UdpSocket) (ipv4str : List Char) (port : UInt16)
  | sendTo (sock : UdpSocket) (payload : Bytes) (ipv4str : List Char) (port : UInt32)
  | recvFrom (sock : UdpSocket) (buf : Bytes) (endpoint : IpEndpoint) (dead : DeadRead)
  | handle (protocolData : Ipv4ProtocolData)
  | interruptAll

/-- What the operations return. -/
inductive UdpRet : Type where
  | opened (sock : Except ℤ UdpSocket)
  | bound (result : Except ℤ ℤ)
  | sent (result : ℤ)
  | received (received : Received)
  | handled (result : ℤ)
  | interrupted (result : ℤ)

def UdpOp.exec (cfg : Config) : UdpOp → Call UdpRet
  | .open => do return .opened (← UdpSocket.open)
  | .bind sock ipv4str port => do return .bound (← sock.bind ipv4str port)
  | .sendTo sock payload ipv4str port => do
    return .sent (← UdpSocket.sendTo cfg sock payload ipv4str port)
  | .recvFrom sock buf endpoint dead => do
    return .received (← sock.recvFrom buf endpoint dead)
  | .handle protocolData => do return .handled (← UdpHandler.handle protocolData)
  | .interruptAll => do return .interrupted (← UdpEventHandler.handle)

theorem UdpSocket.localPort_keeps {Q : Stack → Prop}
    (hQ : ∀ s m, Q s → Q { s with udpPcbMgr := m }) (sock : UdpSocket) (pcb : UdpControlBlock)
    (addr : UInt32) : (sock.localPort pcb addr).Keeps Q := by
  unfold UdpSocket.localPort
  split
  · refine Comp.Keeps.read fun s hs => ?_
    split
    · exact Comp.Keeps.hang
    · refine (Comp.Keeps.set (hQ s _ hs)).bind fun _ => ?_
      split
      · exact Comp.Keeps.throw _
      · exact Comp.Keeps.pure _
  · exact Comp.Keeps.pure _

theorem UdpSocket.sendTo_keeps {Q : Stack → Prop} (hout : IgnoresOutput Q)
    (hQ : ∀ s m, Q s → Q { s with udpPcbMgr := m }) (cfg : Config) (sock : UdpSocket)
    (payload : Bytes) (ipv4str : List Char) (port : UInt32) :
    (UdpSocket.sendTo cfg sock payload ipv4str port).Keeps Q := by
  refine (Comp.Keeps.lift _).bind fun ipAddr => Comp.Keeps.read fun s _ => ?_
  refine (Comp.Keeps.lift _).bind fun pcb => ?_
  split
  · exact Comp.Keeps.throw _
  · refine (Comp.Keeps.lift _).bind fun addr => ?_
    exact (UdpSocket.localPort_keeps hQ sock pcb addr).bind fun port =>
      udpOutput_keeps hout cfg _ _ _

/-- What ignores the output and the table, every operation keeps. -/
theorem UdpOp.exec_keeps {Q : Stack → Prop} (hout : IgnoresOutput Q)
    (hQ : ∀ s m, Q s → Q { s with udpPcbMgr := m }) (cfg : Config) (op : UdpOp) :
    (op.exec cfg).Keeps Q := by
  cases op with
  | «open» =>
    refine Comp.Keeps.bind ?_ fun _ => Comp.Keeps.pure _
    refine Comp.Keeps.read fun s hs => ?_
    split
    · exact (Comp.Keeps.set (hQ s _ hs)).bind fun _ => Comp.Keeps.pure _
    · exact Comp.Keeps.pure _
  | bind sock ipv4str port =>
    refine Comp.Keeps.bind ?_ fun _ => Comp.Keeps.pure _
    refine (Comp.Keeps.lift _).bind fun ipv4 => Comp.Keeps.read fun s hs => ?_
    split
    · exact Comp.Keeps.pure _
    · refine (Comp.Keeps.lift _).bind fun pcb => ?_
      exact (Comp.Keeps.set (hQ s _ hs)).bind fun _ => Comp.Keeps.pure _
  | sendTo sock payload ipv4str port =>
    exact (UdpSocket.sendTo_keeps hout hQ cfg sock payload ipv4str port).bind fun _ =>
      Comp.Keeps.pure _
  | recvFrom sock buf endpoint dead =>
    refine Comp.Keeps.bind ?_ fun _ => Comp.Keeps.pure _
    refine Comp.Keeps.read fun s hs => (Comp.Keeps.lift _).bind fun pcb => ?_
    split
    · exact Comp.Keeps.pure _
    split
    · exact Comp.Keeps.hang
    · refine (Comp.Keeps.lift _).bind fun buf => ?_
      refine (Comp.Keeps.set (hQ s _ hs)).bind fun _ => ?_
      exact (Comp.Keeps.pure _).bind fun _ => Comp.Keeps.pure _
  | handle d =>
    exact (UdpHandler.handle_keeps (fun s _ _ hs => hQ s _ hs) d).bind fun _ => Comp.Keeps.pure _
  | interruptAll =>
    refine Comp.Keeps.bind ?_ fun _ => Comp.Keeps.pure _
    exact Comp.Keeps.read fun s hs => (Comp.Keeps.set (hQ s _ hs)).bind fun _ => Comp.Keeps.pure _

/-- An operation and how it ended: with a value or with an exception. -/
structure UdpEvent : Type where
  op : UdpOp
  ret : Except Err UdpRet

/-- One operation of a run. An operation that leaves defined behaviour or does not return makes no
step. -/
def UdpEvent.Step (cfg : Config) (s : Stack) (ev : UdpEvent) (t : Stack) : Prop :=
  match ev.ret with
  | .ok r => (ev.op.exec cfg).run s = .done t r
  | .error e => (ev.op.exec cfg).run s = .threw t e

/-- Runs of operations, with their trace. -/
abbrev UdpRun (cfg : Config) := Runs.Run (UdpEvent.Step cfg)

/-- An event that leaves the table `m` alone: no datagram was queued; a receive was interrupted, or
there is no block. -/
def UdpEvent.Idle (m : UdpPcbManager) (ev : UdpEvent) : Prop :=
  match ev.op with
  | .recvFrom sock _ _ _ => (∀ received, ev.ret = .ok (.received received) → received.len = -1) ∧
      ∀ b, m.block? sock.block = some b → b.interrupted = 1
  | .handle _ => ev.ret ≠ .ok (.handled 0)
  | _ => True

/-- **All an event can do to the table.** -/
inductive UdpEvent.Effect (cfg : Config) (m : UdpPcbManager) : UdpEvent → UdpPcbManager → Prop where
  | idle {ev : UdpEvent} : ev.Idle m → Effect cfg m ev m
  | opened {m' : UdpPcbManager} {i : ℕ} {ret : Except Err UdpRet} :
      m.alloc = some (m', i) → Effect cfg m ⟨.open, ret⟩ m'
  | bound {sock : UdpSocket} {ipv4str : List Char} {a : UInt32} {p : UInt16}
      {ret : Except Err UdpRet} : ipv4strToUint32 ipv4str = .ok a → m.select a p = none →
      Effect cfg m ⟨.bind sock ipv4str p, ret⟩ (UdpSocket.bindTable m sock a p)
  | assigned {sock : UdpSocket} {payload : Bytes} {ipv4str : List Char} {port : UInt32}
      {ret : Except Err UdpRet} {a addr : UInt32} {b : UdpControlBlock} {p : UInt16} :
      ipv4strToUint32 ipv4str = .ok a → m.block? sock.block = some b → b.state = .OPEN →
      b.endpoint.port = 0 → UdpSocket.localAddr cfg b a = .ok addr →
      UdpSocket.searchPort m addr 65536 sourcePortMin = some p →
      Effect cfg m ⟨.sendTo sock payload ipv4str port, ret⟩ (UdpSocket.assignTable m sock p)
  | queued {d : Ipv4ProtocolData} {i : ℕ} : m.select d.dst (u16 d.data 2) = some i →
      Effect cfg m ⟨.handle d, .ok (.handled 0)⟩
        (m.modify i fun pcb => { pcb with que := pcb.que ++ [UdpHandler.datagram d] })
  | taken {sock : UdpSocket} {buf : Bytes} {endpoint : IpEndpoint} {dead : DeadRead}
      {b : UdpControlBlock} {payload : UdpPcbPayload} {rest : List UdpPcbPayload} :
      m.block? sock.block = some b → b.interrupted ≠ 1 → b.que = payload :: rest →
      payload.data.length ≤ buf.length →
      Effect cfg m ⟨.recvFrom sock buf endpoint dead, .ok (.received
        ⟨dead.size, patch buf 0 payload.data, dead.endpoint⟩)⟩ (UdpSocket.takeTable m sock rest)
  | interrupted {ret : Except Err UdpRet} : Effect cfg m ⟨.interruptAll, ret⟩ m.interruptAll

/-- A step, as the end of its call. -/
theorem UdpEvent.Step.next? {cfg : Config} {s t : Stack} {ev : UdpEvent}
    (h : ev.Step cfg s t) : ((ev.op.exec cfg).run s).next? = some t := by
  rw [UdpEvent.Step] at h
  split at h <;> rw [h] <;> rfl

section

variable {cfg : Config} {s t : Stack} {sock : UdpSocket} {ret : Except Err UdpRet}

theorem UdpEvent.Step.effect_open (h : UdpEvent.Step cfg s ⟨.open, ret⟩ t) :
    UdpEvent.Effect cfg s.udpPcbMgr ⟨.open, ret⟩ t.udpPcbMgr := by
  have hnext := h.next?
  rw [UdpOp.exec, Comp.next?_bind_pure, UdpSocket.open_run] at hnext
  cases halloc : s.udpPcbMgr.alloc with
  | none =>
    rw [halloc] at hnext
    cases hnext
    exact .idle trivial
  | some mi =>
    rw [halloc] at hnext
    cases hnext
    exact .opened halloc

theorem UdpEvent.Step.effect_bind {ipv4str : List Char} {p : UInt16}
    (h : UdpEvent.Step cfg s ⟨.bind sock ipv4str p, ret⟩ t) :
    UdpEvent.Effect cfg s.udpPcbMgr ⟨.bind sock ipv4str p, ret⟩ t.udpPcbMgr := by
  have hnext := h.next?
  rw [UdpOp.exec, Comp.next?_bind_pure] at hnext
  -- an address that does not parse ends the call where it started
  obtain rfl | ⟨a, ha, -⟩ := Comp.next?_lift_bind hnext
  · exact .idle trivial
  rw [UdpSocket.bind_run ha] at hnext
  cases hsel : s.udpPcbMgr.select a p with
  | some i =>
    rw [hsel] at hnext
    cases hnext
    exact .idle trivial
  | none =>
    rw [hsel] at hnext
    cases hb : s.udpPcbMgr.block? sock.block with
    | some b =>
      rw [hb] at hnext
      cases hnext
      exact .bound ha hsel
    | none =>
      rw [hb] at hnext
      cases hnext
      exact .idle trivial

theorem UdpEvent.Step.effect_sendTo {payload : Bytes} {ipv4str : List Char} {port : UInt32}
    (h : UdpEvent.Step cfg s ⟨.sendTo sock payload ipv4str port, ret⟩ t) :
    UdpEvent.Effect cfg s.udpPcbMgr ⟨.sendTo sock payload ipv4str port, ret⟩ t.udpPcbMgr := by
  have hnext := h.next?
  rw [UdpOp.exec, Comp.next?_bind_pure] at hnext
  obtain hsame | ⟨a, b, addr, p, ha, hb, hopen, hport, haddr, hp, htable⟩ :=
    UdpSocket.sendTo_cases hnext
  · rw [hsame]
    exact .idle trivial
  · rw [htable]
    exact .assigned ha hb hopen hport haddr hp

theorem UdpEvent.Step.effect_recvFrom {buf : Bytes} {endpoint : IpEndpoint} {dead : DeadRead}
    (h : UdpEvent.Step cfg s ⟨.recvFrom sock buf endpoint dead, ret⟩ t) :
    UdpEvent.Effect cfg s.udpPcbMgr ⟨.recvFrom sock buf endpoint dead, ret⟩ t.udpPcbMgr := by
  cases hb : s.udpPcbMgr.block? sock.block with
  | none =>
    have hthrow : ((UdpOp.recvFrom sock buf endpoint dead).exec cfg).run s =
        .threw s .outOfRange := Comp.bind_threw (UdpSocket.recvFrom_throws hb)
    rw [UdpEvent.Step] at h
    cases ret with
    | error e =>
      dsimp only at h
      rw [hthrow] at h
      cases h
      exact .idle ⟨fun _ hret => (nomatch hret), fun b hb' => (nomatch hb.symm.trans hb')⟩
    | ok r =>
      dsimp only at h
      rw [hthrow] at h
      cases h
  | some b =>
    rw [UdpEvent.Step, UdpOp.exec, Comp.run_bind, UdpSocket.recvFrom_run hb] at h
    by_cases hint : b.interrupted = 1
    · rw [if_pos hint] at h
      cases ret with
      | error e => cases h
      | ok r =>
        cases h
        refine .idle ⟨fun received hret => ?_, fun b' hb' => ?_⟩
        · cases hret
          rfl
        · cases hb.symm.trans hb'
          exact hint
    · rw [if_neg hint] at h
      cases hque : b.que with
      | nil =>
        -- nothing to take: the call waits, and makes no step
        rw [hque] at h
        cases ret <;> cases h
      | cons payload rest =>
        rw [hque] at h
        dsimp only at h
        by_cases hfit : payload.data.length ≤ buf.length
        · rw [if_pos hfit] at h
          cases ret with
          | error e => cases h
          | ok r =>
            cases h
            exact .taken hb hint hque hfit
        · rw [if_neg hfit] at h
          cases ret <;> cases h

theorem UdpEvent.Step.effect_handle {d : Ipv4ProtocolData}
    (h : UdpEvent.Step cfg s ⟨.handle d, ret⟩ t) :
    UdpEvent.Effect cfg s.udpPcbMgr ⟨.handle d, ret⟩ t.udpPcbMgr := by
  rw [UdpEvent.Step] at h
  cases ret with
  | error e =>
    obtain hthrow | ⟨_, _, -, hpure⟩ := Comp.bind_eq_threw h
    · rw [UdpHandler.handle_eq_threw hthrow]
      exact .idle (fun hret => nomatch hret)
    · cases hpure
  | ok r =>
    obtain ⟨u, v, hdone, hpure⟩ := Comp.bind_eq_done h
    cases hpure
    obtain ⟨rfl, rfl, -⟩ | ⟨i, rfl, hsel, rfl⟩ := UdpHandler.handle_eq_done hdone
    · exact .idle fun hret => absurd (UdpRet.handled.inj (Except.ok.inj hret)) (by decide)
    · exact .queued hsel

/-- **Every step has one of these effects.** -/
theorem UdpEvent.Step.effect {ev : UdpEvent} (h : ev.Step cfg s t) :
    ev.Effect cfg s.udpPcbMgr t.udpPcbMgr := by
  obtain ⟨op, ret⟩ := ev
  cases op with
  | «open» => exact h.effect_open
  | bind sock ipv4str p => exact h.effect_bind
  | sendTo sock payload ipv4str port => exact h.effect_sendTo
  | recvFrom sock buf endpoint dead => exact h.effect_recvFrom
  | handle d => exact h.effect_handle
  | interruptAll =>
    cases h.next?
    exact .interrupted

end

end Suika
