import Suika.Lib.Runs
import Suika.Arp

/-!
# ARP on a LAN

Any number of hosts that run the ARP module, and the frames they put on the wire. A step is a call
of `arpResolve` at some host, or the delivery of a frame to some host. Frames stay on the wire: any
frame that was ever sent may be delivered at any time, to any host, any number of times or never,
which covers loss, duplication and reordering. The handler's exceptions drop a frame.

`LanInvariant` ties all caches and all frames together: every cache entry is the binding of some
host, and every frame is a packet whose sender fields are the binding of some host. `lanRun_arp`
draws the conclusions.
-/

namespace Suika

open Cpp

/-- The hosts of a LAN. No two have the same unicast address. -/
structure Lan (H : Type) : Type where
  mac : H → EtherAddr
  unicast : H → UInt32
  gateway : H → UInt32
  /-- unicast addresses are pairwise distinct -/
  unicast_inj : ∀ g h, unicast g = unicast h → g = h

/-- What a host does with a frame off the wire: the ARP handler gets the body. -/
def receiveFrame (cfg : Config) (frame : Bytes) : Call ℤ := do
  let type ← EtherFrame.etherType frame
  if type = arpType then ArpProtocolHandler.handle cfg ⟨type, ← EtherFrame.body frame⟩
  else return 0

/-- The events on a LAN. -/
inductive LanEvent (H : Type) : Type where
  | resolve (h : H) (ip : UInt32)
  | deliver (h : H) (frame : Bytes)

namespace Lan

variable {H : Type} (lan : Lan H)

/-- The configuration of a host. -/
def config (h : H) : Config := Config.ofMain (lan.mac h) (lan.unicast h) (lan.gateway h)

/-- Its interface. -/
def interface (h : H) : IpNetworkInterface := ⟨interfaceFamilyIp, lan.unicast h⟩

/-- A call at one host; the others stay as they are. -/
def At {α : Type} (h : H) (m : Call α) (s t : H → Stack) : Prop :=
  (m.run (s h)).next? = some (t h) ∧ ∀ g, g ≠ h → t g = s g

/-- One step. -/
def Step (s : H → Stack) (ev : LanEvent H) (t : H → Stack) : Prop :=
  match ev with
  | .resolve h ip => At h (arpResolve (lan.config h) (lan.interface h) ip) s t
  | .deliver h frame => (∃ g, frame ∈ (s g).sent) ∧ At h (receiveFrame (lan.config h) frame) s t

/-- Nothing cached, nothing sent. -/
def Initial (s : H → Stack) : Prop := ∀ h, (s h).arpCache = [] ∧ (s h).sent = []

/-! ## The invariant -/

/-- An address pair that belongs to some host. -/
def Binding (ip : UInt32) (mac : Bytes) : Prop :=
  ∃ g, ip = lan.unicast g ∧ mac = (lan.mac g).val

/-- A packet whose sender fields belong to some host. -/
def Honest (p : ArpPacket) : Prop := lan.Binding p.senderProtocol p.senderHardware.val

/-- A frame around such a packet. -/
def HonestFrame (frame : Bytes) : Prop :=
  ∃ (address : EtherAddr) (p : ArpPacket) (dst : Bytes), dst.length = 6 ∧ lan.Honest p ∧
    frame = EtherDevice.frameBytes address p.encode dst arpType

end Lan

/-- All caches and all frames are about hosts of the LAN. -/
structure LanInvariant {H : Type} (lan : Lan H) (s : H → Stack) : Prop where
  cache : ∀ h, ∀ c ∈ (s h).arpCache, lan.Binding c.protocolAddress c.hardwareAddress
  frames : ∀ h, ∀ frame ∈ (s h).sent, lan.HonestFrame frame

namespace Lan

variable {H : Type} {lan : Lan H} {s t : H → Stack}

/-- The frame of a request. -/
def requestFrame (lan : Lan H) (h : H) (ip : UInt32) : Bytes :=
  EtherDevice.frameBytes (lan.mac h) (ArpPacket.request (lan.mac h) (lan.unicast h) ip).encode
    EtherDevice.broadcastAddress arpType

theorem honest_requestFrame (h : H) (ip : UInt32) : lan.HonestFrame (lan.requestFrame h ip) :=
  ⟨lan.mac h, _, _, rfl, ⟨h, rfl, rfl⟩, rfl⟩

/-- A frame off the wire reaches the handler as the packet it was made of, and padding. -/
theorem receiveFrame_run (cfg : Config) (address : EtherAddr) (p : ArpPacket) {dst : Bytes}
    (hd : dst.length = 6) :
    ∃ pad, receiveFrame cfg (EtherDevice.frameBytes address p.encode dst arpType) =
      ArpProtocolHandler.handle cfg ⟨arpType, p.encode ++ pad⟩ := by
  refine ⟨List.replicate (46 - p.encode.length) 0, ?_⟩
  rw [receiveFrame, EtherDevice.frameBytes, EtherFrame.etherType_frame address _ _ _ hd,
    Comp.lift_ok_bind, if_pos rfl, EtherFrame.body_frame address _ _ hd p.encode_fits,
    Comp.lift_ok_bind]

/-- **All a step can do**: a request goes out at one host, or one host learns from a packet and
maybe answers it, or nothing happens. -/
theorem Step.effect (hinv : LanInvariant lan s) {ev : LanEvent H} (h : lan.Step s ev t) :
    ∃ k, (∀ g, g ≠ k → t g = s g) ∧
      (t k = s k ∨
        (∃ ip, t k = { s k with sent := (s k).sent ++ [lan.requestFrame k ip] }) ∨
        ∃ p, lan.Honest p ∧
          t k = ArpProtocolHandler.afterPacket (lan.mac k) (lan.unicast k) p (s k)) := by
  cases ev with
  | resolve k ip =>
    obtain ⟨hrun, hothers⟩ := h
    refine ⟨k, hothers, ?_⟩
    cases hsel : ArpCache.select (s k).arpCache ip with
    | some c =>
      rw [arpResolve_hit hsel] at hrun
      exact Or.inl (Option.some.inj hrun).symm
    | none =>
      rw [arpResolve_miss hsel] at hrun
      exact Or.inr (Or.inl ⟨ip, (Option.some.inj hrun).symm⟩)
  | deliver k frame =>
    obtain ⟨⟨g, hframe⟩, hrun, hothers⟩ := h
    refine ⟨k, hothers, ?_⟩
    -- a frame on the wire is some honest packet, so the handler sees that packet and padding
    obtain ⟨address, p, dst, hd, hp, rfl⟩ := hinv.frames g frame hframe
    obtain ⟨pad, hreceive⟩ := receiveFrame_run (lan.config k) address p hd
    rw [hreceive, config, ArpProtocolHandler.handle_packet] at hrun
    split at hrun
    · exact Or.inl (Option.some.inj hrun).symm
    · split at hrun
      · exact Or.inr (Or.inr ⟨p, hp, (Option.some.inj hrun).symm⟩)
      · exact Or.inl (Option.some.inj hrun).symm

/-- **One step keeps the invariant.** -/
theorem Step.invariant {ev : LanEvent H} (hinv : LanInvariant lan s) (h : lan.Step s ev t) :
    LanInvariant lan t := by
  obtain ⟨k, hothers, hk⟩ := h.effect hinv
  -- only the host `k` moved
  have hmoved : (∀ c ∈ (t k).arpCache, lan.Binding c.protocolAddress c.hardwareAddress) ∧
      ∀ frame ∈ (t k).sent, lan.HonestFrame frame := by
    rcases hk with hk | ⟨ip, hk⟩ | ⟨p, hp, hk⟩
    · rw [hk]
      exact ⟨hinv.cache k, hinv.frames k⟩
    · rw [hk]
      refine ⟨hinv.cache k, fun frame hframe => ?_⟩
      rcases List.mem_append.mp hframe with hframe | hframe
      · exact hinv.frames k frame hframe
      · rw [List.mem_singleton.mp hframe]
        exact honest_requestFrame k ip
    · rw [hk]
      refine ⟨fun c hc => ?_, fun frame hframe => ?_⟩
      · rcases ArpCache.mem_create hc with hc | rfl
        · exact hinv.cache k c hc
        · exact hp
      · dsimp only [ArpProtocolHandler.afterPacket] at hframe
        split at hframe
        · rcases List.mem_append.mp hframe with hframe | hframe
          · exact hinv.frames k frame hframe
          · rw [List.mem_singleton.mp hframe]
            exact ⟨lan.mac k, _, _, p.senderHardware.length_val, ⟨k, rfl, rfl⟩, rfl⟩
        · exact hinv.frames k frame hframe
  refine ⟨?_, ?_⟩
  · intro h c hc
    by_cases hhk : h = k
    · subst hhk
      exact hmoved.1 c hc
    · rw [hothers h hhk] at hc
      exact hinv.cache h c hc
  · intro h frame hframe
    by_cases hhk : h = k
    · subst hhk
      exact hmoved.2 frame hframe
    · rw [hothers h hhk] at hframe
      exact hinv.frames h frame hframe

/-- What a host has in its cache stays there. -/
theorem Step.select_ne_none {ev : LanEvent H} (hinv : LanInvariant lan s) (h : lan.Step s ev t)
    {g : H} {ip : UInt32} (hsel : ∃ c, ArpCache.select (s g).arpCache ip = some c) :
    ∃ c, ArpCache.select (t g).arpCache ip = some c := by
  obtain ⟨k, hothers, hk⟩ := h.effect hinv
  by_cases hgk : g = k
  · subst hgk
    obtain ⟨c, hc⟩ := hsel
    rcases hk with hk | ⟨ip', hk⟩ | ⟨p, hp, hk⟩ <;> rw [hk]
    · exact ⟨c, hc⟩
    · exact ⟨c, hc⟩
    · exact ⟨c, ArpCache.select_create_of_some hc⟩
  · rw [hothers g hgk]
    exact hsel

theorem invariant_of_initial (hs : Initial s) : LanInvariant lan s where
  cache h c hc := by
    rw [(hs h).1] at hc
    exact absurd hc List.not_mem_nil
  frames h frame hframe := by
    rw [(hs h).2] at hframe
    exact absurd hframe List.not_mem_nil

/-- With the invariant, a cached address of a host is that host's. -/
theorem arpResolve_of_select (hinv : LanInvariant lan s) {g h : H}
    (hsel : ∃ c, ArpCache.select (s g).arpCache (lan.unicast h) = some c) :
    (arpResolve (lan.config g) (lan.interface g) (lan.unicast h)).run (s g) =
      .done (s g) (lan.mac h).val := by
  obtain ⟨c, hc⟩ := hsel
  obtain ⟨hmem, hip⟩ := ArpCache.select_eq_some hc
  obtain ⟨k, hkip, hkmac⟩ := hinv.cache g c hmem
  obtain rfl : k = h := lan.unicast_inj k h (hkip.symm.trans hip)
  rw [arpResolve_hit hc, hkmac]

/-! ## One exchange -/

/-- A request for the host it is delivered to is answered with the binding of that host, to the
sender. -/
theorem deliver_request {A B : H}
    (h : lan.Step s (.deliver B (lan.requestFrame A (lan.unicast B))) t) :
    (t B).sent = (s B).sent ++ [EtherDevice.frameBytes (lan.mac B)
      (ArpPacket.reply (lan.mac B) (lan.unicast B)
        (ArpPacket.request (lan.mac A) (lan.unicast A) (lan.unicast B))).encode
      (lan.mac A).val arpType] := by
  obtain ⟨-, hrun, -⟩ := h
  have hbroadcast : EtherDevice.broadcastAddress.length = 6 := rfl
  obtain ⟨pad, hreceive⟩ := receiveFrame_run (lan.config B) (lan.mac A)
    (ArpPacket.request (lan.mac A) (lan.unicast A) (lan.unicast B)) hbroadcast
  have htarget : (ArpPacket.request (lan.mac A) (lan.unicast A) (lan.unicast B)).targetProtocol =
      lan.unicast B := rfl
  rw [requestFrame, hreceive, config, ArpProtocolHandler.handle_packet, if_neg (fun hne => hne rfl),
    if_pos htarget] at hrun
  rw [← Option.some.inj hrun]
  rfl

/-- Whoever such an answer is meant for learns the binding from it. -/
theorem deliver_reply {A B : H} (h : lan.Step s (.deliver A (EtherDevice.frameBytes (lan.mac B)
      (ArpPacket.reply (lan.mac B) (lan.unicast B)
        (ArpPacket.request (lan.mac A) (lan.unicast A) (lan.unicast B))).encode
      (lan.mac A).val arpType)) t) :
    ∃ c, ArpCache.select (t A).arpCache (lan.unicast B) = some c := by
  obtain ⟨-, hrun, -⟩ := h
  obtain ⟨pad, hreceive⟩ := receiveFrame_run (lan.config A) (lan.mac B)
    (ArpPacket.reply (lan.mac B) (lan.unicast B)
      (ArpPacket.request (lan.mac A) (lan.unicast A) (lan.unicast B))) (lan.mac A).length_val
  have htarget : (ArpPacket.reply (lan.mac B) (lan.unicast B)
      (ArpPacket.request (lan.mac A) (lan.unicast A) (lan.unicast B))).targetProtocol =
        lan.unicast A := rfl
  rw [hreceive, config, ArpProtocolHandler.handle_packet, if_neg (fun hne => hne rfl),
    if_pos htarget] at hrun
  rw [← Option.some.inj hrun]
  exact ArpCache.exists_select_create

/-- `frame` is what `arpRequest` at `A` puts on the wire to ask for `ip`. -/
def Requests (lan : Lan H) (A : H) (ip : UInt32) (frame : Bytes) : Prop :=
  ∃ s : Stack, (arpRequest (lan.config A) (lan.interface A) ip).run s =
    .done { s with sent := s.sent ++ [frame] } 0

theorem Requests.eq {A : H} {ip : UInt32} {frame : Bytes} (h : lan.Requests A ip frame) :
    frame = lan.requestFrame A ip := by
  obtain ⟨s, hs⟩ := h
  rw [arpRequest_eq] at hs
  have hsent := congrArg Stack.sent (Outcome.done.inj hs).1
  exact (List.singleton_inj.mp (List.append_cancel_left hsent)).symm

end Lan

/-- **ARP never learns a wrong binding**, and an exchange that was completed resolves.
* At every host, every cache entry maps the unicast address of some host to its MAC address.
* If a request of `A` for the address of `B` was delivered to `B`, and the reply `B` then sent was
  delivered to `A`, then `arpResolve` at `A` returns the MAC address of `B`. -/
theorem lanRun_arp {H : Type} (lan : Lan H) {s t : H → Stack}
    {tr : List (Runs.Record (H → Stack) (LanEvent H))} (hs : Lan.Initial s)
    (hrun : Runs.Run lan.Step s tr t) :
    (∀ h, ∀ c ∈ (t h).arpCache, ∃ g, c.protocolAddress = lan.unicast g ∧
      c.hardwareAddress = (lan.mac g).val) ∧
    ∀ (A B : H) (request reply : Bytes)
      (before mid after : List (Runs.Record (H → Stack) (LanEvent H)))
      (r₁ r₂ : Runs.Record (H → Stack) (LanEvent H)),
      tr = before ++ r₁ :: mid ++ r₂ :: after → lan.Requests A (lan.unicast B) request →
      r₁.label = .deliver B request → (r₁.post B).sent = (r₁.pre B).sent ++ [reply] →
      r₂.label = .deliver A reply →
        (arpResolve (lan.config A) (lan.interface A) (lan.unicast B)).run (t A) =
          .done (t A) (lan.mac B).val := by
  have hinit : LanInvariant lan s := Lan.invariant_of_initial hs
  have hinv : LanInvariant lan t := hrun.invariant (fun hI hl => Lan.Step.invariant hI hl) hinit
  refine ⟨hinv.cache, ?_⟩
  rintro A B request reply before mid after ⟨s₁, l₁, t₁⟩ ⟨s₂, l₂, t₂⟩ rfl hrequest hl₁ hreply hl₂
  dsimp only at hl₁ hl₂ hreply
  subst hl₁ hl₂
  obtain rfl := hrequest.eq
  -- the run up to the second delivery, and from there on
  have hcut : before ++ ⟨s₁, .deliver B (lan.requestFrame A (lan.unicast B)), t₁⟩ :: mid ++
      ⟨s₂, .deliver A reply, t₂⟩ :: after =
        (before ++ ⟨s₁, .deliver B (lan.requestFrame A (lan.unicast B)), t₁⟩ :: mid ++
          [⟨s₂, .deliver A reply, t₂⟩]) ++ after := by
    rw [List.append_assoc _ [_] after]
    rfl
  obtain ⟨hstep₁, -⟩ :=
    hrun.record ⟨s₁, .deliver B (lan.requestFrame A (lan.unicast B)), t₁⟩ (by simp)
  rw [hcut] at hrun
  obtain ⟨u, hfront, hback⟩ := hrun.of_append
  obtain ⟨hbefore, hstep₂, rfl⟩ := hfront.of_snoc
  have hinv₂ : LanInvariant lan s₂ :=
    hbefore.invariant (fun hI hl => Lan.Step.invariant hI hl) hinit
  have hsent := Lan.deliver_request hstep₁
  dsimp only at hstep₂ hsent
  rw [hreply] at hsent
  obtain rfl := List.singleton_inj.mp (List.append_cancel_left hsent)
  have hlearned := Lan.deliver_reply hstep₂
  -- what `A` learned from the reply stays in its cache to the end of the run
  have hkept := hback.invariant
    (I := fun s => LanInvariant lan s ∧
      ∃ c, ArpCache.select (s A).arpCache (lan.unicast B) = some c)
    (fun hI hl => ⟨Lan.Step.invariant hI.1 hl, Lan.Step.select_ne_none hI.1 hl hI.2⟩)
    ⟨Lan.Step.invariant hinv₂ hstep₂, hlearned⟩
  exact Lan.arpResolve_of_select hinv hkept.2

/-! ## An exchange -/

/-- Two hosts. -/
def exampleLan : Lan Bool where
  mac h := if h then peerAddress else exampleAddress
  unicast h := if h then 0xC0000202 else 0xC0000201
  gateway _ := 0xC0000201
  unicast_inj := by decide

/-- What `false` asks. -/
def exampleRequest : Bytes := exampleLan.requestFrame false 0xC0000202

/-- What `true` answers. -/
def exampleReply : Bytes :=
  EtherDevice.frameBytes (exampleLan.mac true)
    (ArpPacket.reply (exampleLan.mac true) 0xC0000202
      (ArpPacket.request (exampleLan.mac false) 0xC0000201 0xC0000202)).encode
    (exampleLan.mac false).val arpType

/-- The states of the two hosts. -/
def lanState (atFalse atTrue : Stack) (h : Bool) : Stack := if h then atTrue else atFalse

/-- `false` with its request sent, before and after it learned from the answer. -/
def asking (cache : List CacheData) : Stack :=
  { Stack.init with arpCache := cache, sent := [exampleRequest] }

/-- `true` behind the request. -/
def answering : Stack :=
  { Stack.init with
    arpCache := [⟨0xC0000201, (exampleLan.mac false).val⟩]
    sent := [exampleReply] }

/-- `false` behind the answer. -/
def answered : Stack := asking [⟨0xC0000202, (exampleLan.mac true).val⟩]

/-- A miss, the request, the answer. -/
def lanTrace : List (Runs.Record (Bool → Stack) (LanEvent Bool)) :=
  [⟨lanState Stack.init Stack.init, .resolve false 0xC0000202, lanState (asking []) Stack.init⟩,
    ⟨lanState (asking []) Stack.init, .deliver true exampleRequest,
      lanState (asking []) answering⟩,
    ⟨lanState (asking []) answering, .deliver false exampleReply, lanState answered answering⟩]

set_option maxRecDepth 10000 in
theorem lanTrace_run : Runs.Run exampleLan.Step (lanState Stack.init Stack.init) lanTrace
    (lanState answered answering) := by
  refine ((Runs.Run.nil.snoc ?_).snoc ?_).snoc ?_
  · exact ⟨rfl, fun | true, _ => rfl | false, h => absurd rfl h⟩
  · exact ⟨⟨false, List.mem_singleton_self _⟩, rfl, fun | true, h => absurd rfl h | false, _ => rfl⟩
  · exact ⟨⟨true, List.mem_singleton_self _⟩, rfl, fun | true, _ => rfl | false, h => absurd rfl h⟩

/-- Behind the exchange, `false` has the address of `true`. -/
theorem lanRun_arp_exchange :
    (arpResolve (exampleLan.config false) (exampleLan.interface false) 0xC0000202).run answered =
      .done answered [0, 0, 0x5e, 0, 0x53, 2] :=
  (lanRun_arp exampleLan (fun h => by cases h <;> exact ⟨rfl, rfl⟩) lanTrace_run).2 false true
    exampleRequest exampleReply [_] [] [] _ _ rfl ⟨Stack.init, rfl⟩ rfl rfl rfl

end Suika
