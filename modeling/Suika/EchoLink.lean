import Suika.Link
import Suika.EchoAnswers

/-!
# An echo over a wire

A datagram is read by the host on which `main` runs, `main` answers it, and the answer is read again
(`echoRun_link`). Both times `payload()` appends 8 bytes to what was sent: an echo comes back 16
bytes longer, and there is one for payloads of up to 1464 bytes only.
-/

namespace Suika

open Cpp BinaryPayload UdpPcbManager

/-- A payload as `main` sends it back. -/
def echoed (payload : Bytes) : Bytes := payload ++ List.replicate 8 0

@[simp] theorem length_echoed (payload : Bytes) : (echoed payload).length = payload.length + 8 := by
  rw [echoed, List.length_append, List.length_replicate]

section

variable {address : EtherAddr} {g : Host} {s t : Stack} {b : UdpControlBlock} {src : IpEndpoint}
  {payload buffer mac : Bytes} {id : UInt16} {p : Process} {tr : List ProcessRecord}

/-- A datagram for the server waits at its block. -/
theorem received_server (h : SoleOpen serverEndpoint s.udpPcbMgr) :
    s.received src serverEndpoint payload = UdpHandler.deliver s 0 ⟨echoed payload, src⟩ := by
  have hsel : s.udpPcbMgr.select serverEndpoint.addr serverEndpoint.port = some 0 :=
    (h.select serverEndpoint.addr serverEndpoint.port).trans (if_pos ⟨Or.inr rfl, rfl⟩)
  rw [Stack.received, hsel]
  rfl

/-- Once it was taken from a queue that was empty before, the table is as it was. -/
theorem takeTable_received (h : SoleOpen serverEndpoint s.udpPcbMgr)
    (hb : s.udpPcbMgr.block? 0 = some b) (hque : b.que = []) :
    UdpSocket.takeTable (s.received src serverEndpoint payload).udpPcbMgr serverSocket [] =
      s.udpPcbMgr := by
  rw [received_server h, UdpSocket.takeTable, UdpHandler.deliver]
  refine ext_block? fun i => ?_
  by_cases hi : 0 = i
  · subst hi
    have hself := block?_modify_self (m := s.udpPcbMgr.modify 0 fun pcb => { pcb with
      que := pcb.que ++ [⟨echoed payload, src⟩] }) (i := 0) fun pcb => { pcb with que := [] }
    refine hself.trans ?_
    rw [block?_modify_self, hb, ← hque]
    rfl
  · exact (block?_modify_ne _ hi).trans (block?_modify_ne _ hi)

/-- `main` takes over the only datagram that waits. -/
theorem next_received (cfg : Config) (terminate : Bool) (h : SoleOpen serverEndpoint s.udpPcbMgr)
    (hb : s.udpPcbMgr.block? 0 = some b) (hint : b.interrupted ≠ 1) (hque : b.que = [])
    (hfits : payload.length ≤ 1472) :
    (MainPoint.next cfg terminate ⟨(echoed payload).length, src⟩ (.recvFrom serverSocket)).run
        (s.received src serverEndpoint payload) =
      .done s (.sendTo serverSocket (echoed payload) src) := by
  have hfit : (echoed payload).length ≤ 10000 := by
    rw [length_echoed]
    omega
  have hblock : (s.received src serverEndpoint payload).udpPcbMgr.block? 0 =
      some { b with que := [⟨echoed payload, src⟩] } := by
    rw [received_server h, UdpHandler.deliver, block?_modify_self, hb]
    simp [hque]
  have htaken : takeOver ⟨echoed payload, src⟩ ⟨(echoed payload).length, src⟩ =
      .sendTo serverSocket (echoed payload) src := takeOver_eq hfit
  rw [MainPoint.next_recvFrom cfg terminate hblock hint rfl hfit (by dsimp only; omega), htaken,
    takeTable_received h hb hque, received_server h]
  rfl

/-- `main` answers it, if the gateway is known. -/
theorem next_answered (terminate : Bool) (dead : DeadRead)
    (h : SoleOpen serverEndpoint s.udpPcbMgr) (hcache : EtherCache s)
    (hknown : ∃ c, ArpCache.select s.arpCache (mainHost address).gateway = some c)
    (hev : buffer.length % 2 = 0) (hfits : buffer.length ≤ 65507) :
    (MainPoint.next (mainHost address).config terminate dead (.sendTo serverSocket buffer src)).run
        s =
      .done ((mainHost address).write s (.ipv4 udpType
        (udpOutput.segmentBytes serverEndpoint src buffer) src.addr)) (.test serverSocket) := by
  have hends : MainPoint.Ends (mainHost address) terminate dead (.sendTo serverSocket buffer src) s
      _ := MainPoint.ends_sendTo terminate dead buffer src hcache h
  generalize (MainPoint.next (mainHost address).config terminate dead
    (.sendTo serverSocket buffer src)).run s = out at hends ⊢
  cases hends with
  | answered _ _ =>
    obtain ⟨c, hc⟩ := hknown
    rw [answer, hc]
    rfl
  | unsummed hno => exact absurd ⟨hev, hfits⟩ hno
  | finished hpoint => rcases hpoint with hpoint | hpoint | hpoint <;> cases hpoint

/-- **An echo over the wire.** A datagram that can be delivered to the server, while `main` waits in
front of an empty queue, is taken over, and the table is as it was; the answer is one frame, and
whoever sent the datagram reads it exactly when it can be delivered in turn. It is 8 bytes longer
than what was sent, and 8 more are appended when it is read. -/
theorem echoRun_link (hrun : Process.Run (mainHost address) Process.start tr p)
    (hpoint : p.point = .recvFrom serverSocket) (hidle : p.dispatcher.machine.Idle)
    (hknown : ∃ c, ArpCache.select p.stack.arpCache (mainHost address).gateway = some c)
    (hb : p.table.block? 0 = some b) (hint : b.interrupted ≠ 1) (hque : b.que = [])
    (hmac : mac.length = 6) (hsrc : src.addr = g.unicast) (hev : payload.length % 2 = 0)
    (hdeliverable : Deliverable g (mainHost address) src serverEndpoint payload id) :
    ∃ n u answer,
      p.dispatcher.machine.Reads (mainHost address) ((Output.ipv4 udpType
        (udpOutput.segmentBytes src serverEndpoint payload) serverEndpoint.addr).frame g mac id) n ∧
      (p.point.next (mainHost address).config p.terminate ⟨(echoed payload).length, src⟩).run
        n.stack = .done p.stack (.sendTo serverSocket (echoed payload) src) ∧
      (∀ terminate dead, (MainPoint.next (mainHost address).config terminate dead
        (.sendTo serverSocket (echoed payload) src)).run p.stack = .done u (.test serverSocket)) ∧
      u.udpPcbMgr = p.table ∧ u.sent = p.stack.sent ++ [answer] ∧
      ∀ m k : Machine, m.Idle → (m.Reads g answer k ↔
        Deliverable (mainHost address) g serverEndpoint src (echoed payload) p.stack.ipId ∧
          k = { m with stack := m.stack.received serverEndpoint src (echoed payload) }) := by
  have hinv := hrun.invariant
  have htable := hinv.table
  rw [hpoint] at htable ⊢
  have hserver : SoleOpen serverEndpoint p.stack.udpPcbMgr := htable.2
  have hcache : EtherCache p.stack := hinv.machine.cache
  have hfits : payload.length ≤ 1472 := by
    have hle := hdeliverable.legible.fits
    rw [udpOutput.length_segmentBytes] at hle
    omega
  have hlen := length_echoed payload
  have hread := (reads_datagram (h := mainHost address) hidle hmac hsrc hev (by omega)).mpr
    ⟨hdeliverable, rfl⟩
  have hlength := (mainHost address).length_gatewayAddress hcache hknown
  refine ⟨_, _, _, hread, next_received _ _ hserver hb hint hque hfits, fun terminate dead =>
    next_answered terminate dead hserver hcache hknown (by omega) (by omega), rfl, rfl,
    fun m k hm => reads_datagram hm hlength rfl (by omega) (by omega)⟩

end

/-! ### "hi" there and back -/

/-- `main` waits for a datagram, and the gateway is known. -/
def serverReady : Process := { serverResolved with point := .recvFrom serverSocket }

theorem readyTrace_run : Process.Run (mainHost exampleAddress) Process.start
    (resolvedTrace ++ [⟨serverResolved, .main ⟨0, ⟨0, 0⟩⟩, serverReady⟩]) serverReady :=
  resolvedTrace_run.snoc (.main rfl)

theorem deliverable_request : Deliverable peerHost (mainHost exampleAddress) ⟨0xC0000201, 9000⟩
    serverEndpoint [0x68, 0x69] 128 where
  legible := ⟨by decide, rfl, by decide⟩
  checksum := by decide

theorem deliverable_answer : Deliverable (mainHost exampleAddress) peerHost serverEndpoint
    ⟨0xC0000201, 9000⟩ (echoed [0x68, 0x69]) 128 where
  legible := ⟨by decide, rfl, by decide⟩
  checksum := by decide

/-- "hi" comes back, 8 zero bytes behind it, wherever 192.0.2.1 is by then. -/
theorem echoRun_link_hi : ∃ answer : Bytes, ∀ m : Machine, m.Idle → m.Reads peerHost answer
    { m with
      stack := m.stack.received serverEndpoint ⟨0xC0000201, 9000⟩ (echoed [0x68, 0x69]) } := by
  have hblock : serverReady.table.block? 0 = some ⟨0, .OPEN, [], serverEndpoint, 0⟩ := rfl
  have hmac : exampleAddress.val.length = 6 := exampleAddress.length_val
  obtain ⟨n, u, answer, -, -, -, -, -, hread⟩ := echoRun_link readyTrace_run rfl rfl ⟨_, rfl⟩
    hblock (by decide) rfl hmac rfl (by decide) deliverable_request
  exact ⟨answer, fun m hm => (hread m _ hm).mpr ⟨deliverable_answer, rfl⟩⟩

end Suika
