import Suika.EchoAnswers

/-!
# The end of the program

`SIGINT` or `SIGTERM` sets the flag of `main` and interrupts its socket; from then on `main` has at
most five calls left, and serves at most one request (`echoRun_shutdown`). It may still be kept from
returning, in two ways: by an answer that leaves defined behaviour, and by a receive that nobody
interrupts any more, since a `SIGHUP` from outside has ended the interrupt thread, and that finds
nothing `main` can answer. In every other state there is a way to the end (`echoRun_returns_iff`).

The calls are taken whole here, as the events of `Dispatch` are; what the threads may do to each
other inside of them is the subject of `UdpThreads` and `UdpWakeup`.
-/

namespace Suika

open Cpp BinaryPayload UdpPcbManager

/-! ## How much is left -/

/-- The calls `main` has left once its flag is set. -/
def MainPoint.left : MainPoint → ℕ
  | .open => 5
  | .bind _ => 4
  | .test _ => 3
  | .recvFrom _ => 5
  | .sendTo _ _ _ => 4
  | .shutdown => 2
  | .join => 1
  | .returned => 0

/-- The requests it may still serve. -/
def MainPoint.answersLeft : MainPoint → ℕ
  | .recvFrom _ => 1
  | .sendTo _ _ _ => 1
  | _ => 0

theorem MainPoint.left_le (point : MainPoint) : point.left ≤ 5 := by
  cases point <;> simp [left]

theorem MainPoint.answersLeft_le (point : MainPoint) : point.answersLeft ≤ 1 := by
  cases point <;> simp [answersLeft]

/-- A step of `main`. -/
def isMain (r : ProcessRecord) : Bool :=
  match r.label with
  | .main _ => true
  | _ => false

/-- A step that serves something. -/
def isAnswering (r : ProcessRecord) : Bool := !(servedBy r).isEmpty

theorem length_inHand_le (point : MainPoint) : point.inHand.length ≤ 1 := by
  cases point <;> simp [MainPoint.inHand]

/-- Each step serves at most one request. -/
theorem length_flatMap_servedBy (tr : List ProcessRecord) :
    (tr.flatMap servedBy).length = tr.countP isAnswering := by
  have hone : ∀ r : ProcessRecord,
      (servedBy r).length = if isAnswering r then 1 else 0 := by
    rintro ⟨p, ev, q⟩
    have hle : (servedBy ⟨p, ev, q⟩).length ≤ 1 := by
      cases ev with
      | main dead => exact length_inHand_le p.point
      | kill sig => exact Nat.zero_le 1
      | signal sig => exact Nat.zero_le 1
    cases hanswered : servedBy ⟨p, ev, q⟩ with
    | nil => simp [isAnswering, hanswered]
    | cons request rest =>
      rw [hanswered, List.length_cons] at hle
      have hrest : rest.length = 0 := by omega
      simp [isAnswering, hanswered, hrest]
  induction tr with
  | nil => rfl
  | cons r tr ih =>
    rw [List.flatMap_cons, List.length_append, hone, ih, List.countP_cons, Nat.add_comm]

section

variable {address : EtherAddr} {p q : Process} {ev : ProcessEvent}

/-- Every call of `main` leads nearer to the end, once the flag is set. -/
theorem MainPoint.Ends.left_lt {host : Host} {dead : DeadRead} {s t : Stack}
    {point next : MainPoint} (h : Ends host true dead point s (.done t next)) :
    next.left + 1 ≤ point.left ∧
      (if point.inHand.isEmpty then 0 else 1) + next.answersLeft ≤ point.answersLeft := by
  cases h with
  | received =>
    rw [takeOver]
    split
    · exact ⟨by decide, by decide⟩
    · exact ⟨Nat.le_refl 5, Nat.le_refl 1⟩
  | answered => exact ⟨Nat.le_refl 4, Nat.le_refl 1⟩
  | _ => exact ⟨by simp [left], by simp [answersLeft, MainPoint.inHand]⟩

/-- The flag stays set. -/
theorem Process.Step.terminate (h : Process.Step (mainHost address) p ev q)
    (hterm : p.terminate = true) : q.terminate = true := by
  cases h with
  | kill sig => cases sig <;> first | rfl | exact hterm
  | _ => exact hterm

/-- **One event behind the flag.** -/
theorem Process.Step.left_le (hp : p.Invariant) (hterm : p.terminate = true)
    (h : Process.Step (mainHost address) p ev q) :
    (if isMain ⟨p, ev, q⟩ then 1 else 0) + q.point.left ≤ p.point.left ∧
      (if isAnswering ⟨p, ev, q⟩ then 1 else 0) + q.point.answersLeft ≤ p.point.answersLeft := by
  cases h with
  | kill sig =>
    have hpoint : (p.kill sig).point = p.point := by cases sig <;> rfl
    simp [isMain, isAnswering, servedBy, hpoint]
  | @main dead s next hrun =>
    have hends := MainPoint.next_ends address p.terminate dead hp.machine.cache hp.table
    rw [hrun, hterm] at hends
    obtain ⟨hleft, hanswers⟩ := hends.left_lt
    refine ⟨by simpa [isMain, Nat.add_comm] using hleft, ?_⟩
    simpa [isAnswering, servedBy] using hanswers
  | shutdown hpoint => simp [isMain, isAnswering, servedBy, hpoint, MainPoint.left,
      MainPoint.answersLeft, MainPoint.inHand]
  | join hpoint => simp [isMain, isAnswering, servedBy, hpoint, MainPoint.left,
      MainPoint.answersLeft, MainPoint.inHand]
  | _ => simp [isMain, isAnswering, servedBy]

end

/-- **The end is near.** From any state of a run in which the flag is set, whatever happens from
there on: `main` makes at most the calls it has left, at most five, serves at most one more
request, and has joined the interrupt thread when it returns. -/
theorem echoRun_shutdown (address : EtherAddr) {before tr : List ProcessRecord} {p q : Process}
    (hbefore : Process.Run (mainHost address) Process.start before p) (hterm : p.terminate = true)
    (hrun : Process.Run (mainHost address) p tr q) :
    tr.countP isMain + q.point.left ≤ p.point.left ∧ p.point.left ≤ 5 ∧
      (tr.flatMap servedBy).length ≤ 1 ∧ (q.point = .returned → q.running = false) := by
  have hp := Process.Run.invariant hbefore
  have hleft := Runs.Run.countP_add_le (I := fun p => p.Invariant ∧ p.terminate = true)
    (fun p => p.point.left) isMain (fun ht h => ⟨Process.Step.invariant ht.1 h, h.terminate ht.2⟩)
    (fun _ ht h => (Process.Step.left_le ht.1 ht.2 h).1) hrun ⟨hp, hterm⟩
  have hanswers := Runs.Run.countP_add_le (I := fun p => p.Invariant ∧ p.terminate = true)
    (fun p => p.point.answersLeft) isAnswering
    (fun ht h => ⟨Process.Step.invariant ht.1 h, h.terminate ht.2⟩)
    (fun _ ht h => (Process.Step.left_le ht.1 ht.2 h).2) hrun ⟨hp, hterm⟩
  have hone := p.point.answersLeft_le
  refine ⟨hleft, p.point.left_le, ?_, (Process.Run.invariant (hbefore.append hrun)).stopped⟩
  rw [length_flatMap_servedBy]
  omega

/-- `SIGINT` in front of the loop. -/
def serverKilled : Process := serverBound.onSignal

/-- `main` leaves the loop, stops the interrupt thread, and returns. -/
def serverReturned : Process := { serverKilled with point := .returned, running := false }

def endTrace : List ProcessRecord :=
  let leaving := { serverKilled with point := .shutdown }
  let joining := { serverKilled with hup := true, point := .join }
  let stopped := { serverKilled with point := .join, running := false }
  [⟨serverKilled, .main ⟨0, ⟨0, 0⟩⟩, leaving⟩, ⟨leaving, .main ⟨0, ⟨0, 0⟩⟩, joining⟩,
    ⟨joining, .signal .SIGHUP, stopped⟩, ⟨stopped, .main ⟨0, ⟨0, 0⟩⟩, serverReturned⟩]

theorem serverKilled_run : Process.Run (mainHost exampleAddress) Process.start
    (serverTrace ++ [⟨serverBound, .kill .SIGINT, serverKilled⟩]) serverKilled :=
  serverTrace_run.snoc (.kill .SIGINT)

theorem endTrace_run :
    Process.Run (mainHost exampleAddress) serverKilled endTrace serverReturned :=
  (((Runs.Run.nil.snoc (.main rfl)).snoc (.shutdown rfl)).snoc (.hup rfl rfl)).snoc (.join rfl rfl)

/-- It takes all the calls that are left. -/
theorem echoRun_shutdown_example : endTrace.countP isMain = 3 ∧
    endTrace.countP isMain + serverReturned.point.left ≤ serverKilled.point.left ∧
      serverKilled.point.left ≤ 5 ∧ (endTrace.flatMap servedBy).length ≤ 1 ∧
      (serverReturned.point = .returned → serverReturned.running = false) :=
  ⟨rfl, echoRun_shutdown exampleAddress serverKilled_run rfl endTrace_run⟩

/-! ## Whether the end is reached -/

/-- `main` does not come back any more: its answer leaves defined behaviour, or it receives while
nobody is left to interrupt it or to bring it anything, and what waits there, if anything, is too
long for its buffer or of odd size. -/
def Process.Stranded (p : Process) : Prop :=
  (∃ s buffer src, p.point = .sendTo s buffer src ∧
      ¬ (buffer.length % 2 = 0 ∧ buffer.length ≤ 65507)) ∨
    (∃ s, p.point = .recvFrom s) ∧ p.running = false ∧ ¬ p.table.Interrupted ∧
      ∀ front rest, que p.stack 0 = front :: rest →
        ¬ (front.data.length % 2 = 0 ∧ front.data.length ≤ 10000)

/-- `main` may return from here, with receives that read the datagram they popped. -/
def Process.MayReturn (host : Host) (p : Process) : Prop :=
  ∃ tr q, Process.Run host p tr q ∧ (∀ r ∈ tr, r.pre.ReadsFaithfully r.label) ∧
    q.point = .returned

section

variable {address : EtherAddr} {p q : Process} {ev : ProcessEvent}

/-- A signal that is sent changes nothing of what `main` depends on but the flag. -/
theorem Process.kill_eq (p : Process) (sig : Kill) :
    (p.kill sig).point = p.point ∧ (p.kill sig).running = p.running ∧
      (p.kill sig).stack = p.stack := by
  cases sig <;> exact ⟨rfl, rfl, rfl⟩

/-- A call of `main` does not lead out of it. -/
theorem MainPoint.Ends.stranded {host : Host} {terminate : Bool} {dead : DeadRead} {s t : Stack}
    {point next : MainPoint} (h : Ends host terminate dead point s (.done t next))
    (hread : ∀ sock, point = .recvFrom sock →
      UdpOp.ReadsFaithfully s.udpPcbMgr (.recvFrom sock (List.replicate 10000 0) ⟨0, 0⟩ dead))
    (hstranded : (∃ sock buffer src, point = .sendTo sock buffer src ∧
        ¬ (buffer.length % 2 = 0 ∧ buffer.length ≤ 65507)) ∨
      (∃ sock, point = .recvFrom sock) ∧ ¬ s.udpPcbMgr.Interrupted ∧
        ∀ front rest, que s 0 = front :: rest →
          ¬ (front.data.length % 2 = 0 ∧ front.data.length ≤ 10000)) :
    ∃ sock buffer src, next = .sendTo sock buffer src ∧
      ¬ (buffer.length % 2 = 0 ∧ buffer.length ≤ 65507) := by
  rcases hstranded with ⟨sock, buffer, src, rfl, hbad⟩ | ⟨⟨sock, rfl⟩, hint, hbad⟩
  · cases h with
    | answered hev hfits => exact absurd ⟨hev, hfits⟩ hbad
  · cases h with
    | interrupted hb hset => exact absurd ⟨_, hb, hset⟩ hint
    | @received _ b front rest hb hno hque hfit =>
      -- the datagram fits the buffer, so it is one of odd size
      obtain rfl := hread _ rfl b front rest hb hno hque
      have hodd := hbad front rest ((que_eq hb).trans hque)
      rw [takeOver_eq hfit]
      exact ⟨_, _, _, rfl, fun hgood => hodd ⟨hgood.1, hfit⟩⟩

/-- **Stranded for good.** -/
theorem Process.Step.stranded (hp : p.Invariant) (hread : p.ReadsFaithfully ev)
    (h : Process.Step (mainHost address) p ev q) (hstranded : p.Stranded) : q.Stranded := by
  -- where the interrupt thread still runs, `main` is in front of its answer
  have hsignal : ∀ {dispatcher : Dispatcher} {hup usr2 running : Bool}, p.running = true →
      Process.Stranded { p with dispatcher, hup, usr2, running } := by
    intro dispatcher hup usr2 running hrunning
    rcases hstranded with hanswer | ⟨-, hstopped, -⟩
    · exact Or.inl hanswer
    · rw [hstopped] at hrunning
      cases hrunning
  cases h with
  | kill sig =>
    obtain ⟨hpoint, hrunning, hstack⟩ := p.kill_eq sig
    rw [Process.Stranded, Process.table, hpoint, hrunning, hstack]
    exact hstranded
  | hup hrunning => exact hsignal hrunning
  | usr1 hrunning => exact hsignal hrunning
  | usr2 hrunning => exact hsignal hrunning
  | irq hrunning => exact hsignal hrunning
  | @main dead s next hrun =>
    have hends := MainPoint.next_ends address p.terminate dead hp.machine.cache hp.table
    rw [hrun] at hends
    exact Or.inl (hends.stranded hread (hstranded.imp_right fun h => ⟨h.1, h.2.2⟩))
  | shutdown hpoint =>
    rw [Process.Stranded, hpoint] at hstranded
    rcases hstranded with ⟨_, _, _, h, -⟩ | ⟨⟨_, h⟩, -⟩ <;> cases h
  | join hpoint =>
    rw [Process.Stranded, hpoint] at hstranded
    rcases hstranded with ⟨_, _, _, h, -⟩ | ⟨⟨_, h⟩, -⟩ <;> cases h

/-- One event on the way. -/
theorem Process.MayReturn.of_step {host : Host} (h : Process.Step host p ev q)
    (hread : p.ReadsFaithfully ev) (hq : q.MayReturn host) : p.MayReturn host := by
  obtain ⟨tr, r, hrun, htr, hr⟩ := hq
  exact ⟨_, r, Runs.Run.cons h hrun, List.forall_mem_cons.mpr ⟨hread, htr⟩, hr⟩

/-- Only a receive reads behind a `pop`. -/
theorem Process.readsFaithfully_of_ne (hpoint : ∀ sock, p.point ≠ .recvFrom sock)
    (dead : DeadRead) : p.ReadsFaithfully (.main dead) :=
  fun sock h => absurd h (hpoint sock)

/-- From the join, with the signal on its way or taken. -/
theorem Process.mayReturn_join {host : Host} (hpoint : p.point = .join)
    (hstop : p.hup = true ∨ p.running = false) : p.MayReturn host := by
  have hlast : ∀ q : Process, q.point = .join → q.running = false → q.MayReturn host := by
    intro q hq hstopped
    have hstep : Process.Step host q (.main ⟨0, ⟨0, 0⟩⟩) { q with point := .returned } :=
      .join hq hstopped
    exact .of_step hstep (readsFaithfully_of_ne (by simp [hq]) _)
      ⟨[], _, .nil, fun r hr => absurd hr List.not_mem_nil, rfl⟩
  by_cases hrunning : p.running = false
  · exact hlast p hpoint hrunning
  · rw [Bool.not_eq_false] at hrunning
    have hhup : p.hup = true := hstop.resolve_right (by simp [hrunning])
    have hstep : Process.Step host p (.signal .SIGHUP) { p with hup := false, running := false } :=
      .hup hrunning hhup
    exact .of_step hstep trivial (hlast _ hpoint rfl)

theorem Process.mayReturn_shutdown {host : Host} (hpoint : p.point = .shutdown) :
    p.MayReturn host := by
  have hstep : Process.Step host p (.main ⟨0, ⟨0, 0⟩⟩) { p with hup := true, point := .join } :=
    .shutdown hpoint
  exact .of_step hstep (readsFaithfully_of_ne (by simp [hpoint]) _)
    (mayReturn_join rfl (Or.inl rfl))

/-- From the condition of the loop. -/
theorem Process.mayReturn_test {host : Host} {s : UdpSocket} (hpoint : p.point = .test s)
    (hterm : p.terminate = true) : p.MayReturn host := by
  have hrun : (p.point.next host.config p.terminate ⟨0, ⟨0, 0⟩⟩).run p.stack =
      .done p.stack .shutdown := by
    rw [hpoint, hterm]
    rfl
  exact .of_step (.main hrun) (readsFaithfully_of_ne (by simp [hpoint]) _) (mayReturn_shutdown rfl)

/-- Where a call of `main` leads that takes no datagram. -/
theorem MainPoint.Ends.next_cases {host : Host} {dead : DeadRead} {s t : Stack}
    {point next : MainPoint} (h : Ends host true dead point s (.done t next))
    (hnone : ∀ sock, point = .recvFrom sock → s.udpPcbMgr.Interrupted) :
    next = .shutdown ∨ (∃ sock, next = .test sock) ∨ point = .open ∧ ∃ sock, next = .bind sock := by
  cases h with
  | opened => exact Or.inr (Or.inr ⟨rfl, _, rfl⟩)
  | bound => exact Or.inr (Or.inl ⟨_, rfl⟩)
  | tested => exact Or.inl rfl
  | interrupted => exact Or.inr (Or.inl ⟨_, rfl⟩)
  | received hb hint =>
    obtain ⟨b, hb', hset⟩ := hnone _ rfl
    obtain rfl := Option.some.inj (hb.symm.trans hb')
    exact absurd hset hint
  | answered => exact Or.inr (Or.inl ⟨_, rfl⟩)

/-- A call that comes back is a step. -/
theorem Process.exists_main (address : EtherAddr) (hp : p.Invariant) (hterm : p.terminate = true)
    (hcall : p.point.CanCall p.table)
    (hnone : ∀ sock, p.point = .recvFrom sock → p.table.Interrupted) :
    ∃ q, Process.Step (mainHost address) p (.main ⟨0, ⟨0, 0⟩⟩) q ∧ q.terminate = true ∧
      p.ReadsFaithfully (.main ⟨0, ⟨0, 0⟩⟩) ∧
      (q.point = .shutdown ∨ (∃ sock, q.point = .test sock) ∨
        p.point = .open ∧ ∃ sock, q.point = .bind sock) := by
  have hends := MainPoint.next_ends address p.terminate ⟨0, ⟨0, 0⟩⟩ hp.machine.cache hp.table
  obtain ⟨t, next, hdone⟩ := hends.exists_done hcall (by decide)
  rw [hdone, hterm] at hends
  exact ⟨_, .main hdone, hterm,
    fun sock hpoint => hp.readsFaithfully (hnone sock hpoint) (.main ⟨0, ⟨0, 0⟩⟩) sock hpoint,
    hends.next_cases hnone⟩

theorem Process.mayReturn_call (hp : p.Invariant) (hterm : p.terminate = true)
    (hcall : p.point.CanCall p.table)
    (hnone : ∀ sock, p.point = .recvFrom sock → p.table.Interrupted) (hopen : p.point ≠ .open) :
    p.MayReturn (mainHost address) := by
  obtain ⟨q, hstep, hq, hread, hpoint | ⟨sock, hpoint⟩ | ⟨hpoint, -⟩⟩ :=
    exists_main address hp hterm hcall hnone
  · exact .of_step hstep hread (mayReturn_shutdown hpoint)
  · exact .of_step hstep hread (mayReturn_test hpoint hq)
  · exact absurd hpoint hopen

theorem Process.mayReturn_bind (hp : p.Invariant) (hterm : p.terminate = true) {s : UdpSocket}
    (hpoint : p.point = .bind s) : p.MayReturn (mainHost address) := by
  have hcall : p.point.CanCall p.table := by
    rw [hpoint]
    trivial
  exact mayReturn_call hp hterm hcall (by simp [hpoint]) (by simp [hpoint])

theorem Process.mayReturn_open (hp : p.Invariant) (hterm : p.terminate = true)
    (hpoint : p.point = .open) : p.MayReturn (mainHost address) := by
  have hcall : p.point.CanCall p.table := by
    rw [hpoint]
    trivial
  obtain ⟨q, hstep, hq, hread, hnext | ⟨sock, hnext⟩ | ⟨-, sock, hnext⟩⟩ :=
    exists_main address hp hterm hcall (by simp [hpoint])
  · exact .of_step hstep hread (mayReturn_shutdown hnext)
  · exact .of_step hstep hread (mayReturn_test hnext hq)
  · exact .of_step hstep hread (mayReturn_bind (hstep.invariant hp) hq hnext)

/-- From an answer that stays in defined behaviour. -/
theorem Process.mayReturn_sendTo (hp : p.Invariant) (hterm : p.terminate = true) {s : UdpSocket}
    {buffer : Bytes} {src : IpEndpoint} (hpoint : p.point = .sendTo s buffer src)
    (hgood : buffer.length % 2 = 0 ∧ buffer.length ≤ 65507) : p.MayReturn (mainHost address) := by
  have hcall : p.point.CanCall p.table := by
    rw [hpoint]
    exact hgood
  exact mayReturn_call hp hterm hcall (by simp [hpoint]) (by simp [hpoint])

/-- From a receive that was interrupted. -/
theorem Process.mayReturn_interrupted (hp : p.Invariant) (hterm : p.terminate = true)
    {s : UdpSocket} (hpoint : p.point = .recvFrom s) (hint : p.table.Interrupted) :
    p.MayReturn (mainHost address) := by
  have hcall : p.point.CanCall p.table := by
    obtain ⟨b, hb, hset⟩ := hint
    rw [hpoint]
    exact ⟨b, hb, Or.inl hset⟩
  exact mayReturn_call hp hterm hcall (fun _ _ => hint) (by simp [hpoint])

/-- From any other receive, if it can be interrupted or finds what `main` can answer. -/
theorem Process.mayReturn_recvFrom (hp : p.Invariant) (hterm : p.terminate = true) {s : UdpSocket}
    (hpoint : p.point = .recvFrom s) (hfree : ¬ p.Stranded) : p.MayReturn (mainHost address) := by
  by_cases hint : p.table.Interrupted
  · exact mayReturn_interrupted hp hterm hpoint hint
  by_cases hrunning : p.running = true
  · -- the signal is still on its way
    have husr2 := (hp.woken s hpoint hterm).resolve_right hint
    let d : Dispatcher := { p.dispatcher with
      machine := { p.dispatcher.machine with
        stack := { p.stack with udpPcbMgr := p.table.interruptAll } } }
    have hstep : Process.Step (mainHost address) p (.signal .SIGUSR2)
        { p with dispatcher := d, usr2 := false } := .usr2 hrunning husr2 ⟨_, rfl, rfl⟩
    have hq := hstep.invariant hp
    exact .of_step hstep trivial (mayReturn_interrupted hq hterm hpoint
      ((hq.woken s hpoint hterm).resolve_left (by simp)))
  · -- the datagram in front is received and answered
    have hfront : ∃ front rest, que p.stack 0 = front :: rest ∧
        front.data.length % 2 = 0 ∧ front.data.length ≤ 10000 := by
      by_contra hno
      exact hfree (Or.inr ⟨⟨s, hpoint⟩, Bool.not_eq_true _ ▸ hrunning, hint,
        fun front rest hque hgood => hno ⟨front, rest, hque, hgood⟩⟩)
    obtain ⟨front, rest, hque, hev, hfit⟩ := hfront
    have hholds := hp.table
    rw [hpoint] at hholds
    obtain ⟨rfl, hsole⟩ := hholds
    obtain ⟨b, hb, -, -⟩ := hsole.socket
    rw [que_eq hb] at hque
    have hno : b.interrupted ≠ 1 := fun hset => hint ⟨b, hb, hset⟩
    have hstep : Process.Step (mainHost address) p _ _ :=
      Process.Step.received hpoint hb hno hque hfit
    refine .of_step hstep (fun sock hsock c front' rest' hc _ hque' => ?_)
      (mayReturn_sendTo (hstep.invariant hp) hterm rfl ⟨hev, by omega⟩)
    obtain rfl : serverSocket = sock := MainPoint.recvFrom.inj (hpoint.symm.trans hsock)
    obtain rfl : b = c := Option.some.inj (hb.symm.trans hc)
    obtain ⟨rfl, -⟩ := List.cons.inj (hque.symm.trans hque')
    rfl

end

/-- **When the end can be reached**, from any state of a run in which the flag is set, with receives
that read the datagram they popped: exactly when `main` is not stranded. So a program whose
interrupt thread was left alone can always be ended, unless it has to answer a datagram of odd size;
one whose interrupt thread was stopped from outside hangs in the next receive that finds nothing. -/
theorem echoRun_returns_iff (address : EtherAddr) {tr : List ProcessRecord} {p : Process}
    (hrun : Process.Run (mainHost address) Process.start tr p) (hterm : p.terminate = true) :
    p.MayReturn (mainHost address) ↔ ¬ p.Stranded := by
  have hp := Process.Run.invariant hrun
  constructor
  · rintro ⟨tr', q, hrun', hread, hq⟩ hstranded
    have hend := Runs.Run.invariant_of (I := fun p => p.Invariant ∧ p.Stranded)
      (C := Process.ReadsFaithfully)
      (fun ht hr h => ⟨Process.Step.invariant ht.1 h, h.stranded ht.1 hr ht.2⟩)
      hrun' ⟨hp, hstranded⟩ hread
    rcases hend.2 with ⟨s, buffer, src, hpoint, -⟩ | ⟨⟨s, hpoint⟩, -⟩ <;>
      rw [hq] at hpoint <;> cases hpoint
  · intro hfree
    cases hpoint : p.point with
    | «open» => exact Process.mayReturn_open hp hterm hpoint
    | bind s => exact Process.mayReturn_bind hp hterm hpoint
    | test s => exact Process.mayReturn_test hpoint hterm
    | recvFrom s => exact Process.mayReturn_recvFrom hp hterm hpoint hfree
    | sendTo s buffer src =>
      refine Process.mayReturn_sendTo hp hterm hpoint ?_
      by_contra hbad
      exact hfree (Or.inl ⟨s, buffer, src, hpoint, hbad⟩)
    | shutdown => exact Process.mayReturn_shutdown hpoint
    | join => exact Process.mayReturn_join hpoint (hp.stopping hpoint)
    | returned => exact ⟨[], p, .nil, fun r hr => absurd hr List.not_mem_nil, hpoint⟩

/-- From the condition of the loop it can. -/
theorem echoRun_returns_example : serverKilled.MayReturn (mainHost exampleAddress) := by
  refine (echoRun_returns_iff exampleAddress serverKilled_run rfl).mpr ?_
  rintro (⟨s, buffer, src, hpoint, -⟩ | ⟨⟨s, hpoint⟩, -⟩) <;> cases hpoint

end Suika
