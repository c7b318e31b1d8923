import Suika.Lib.History
import Suika.ArpHandler
import Suika.Ipv4Input
import Suika.IcmpReply
import Suika.Dispatch

/-!
# What a stack sends

Four things make a stack write a frame: a packet for the gateway, a request for the gateway in its
place while the gateway is not in the ARP cache, a reply to an ARP request, and nothing else. An
`Output` says which of them a frame is, without its bytes. A stack `Realizes` a list of outputs when
the frames it wrote are those of the list, byte by byte, its counter of `ip_gen_id` stands where the
list leaves it, and packets are only there once the gateway was cached.

Everything the program does extends this list, by outputs that have a cause
(`MachineEvent.Step.emits`), and so does a handler that throws and ends the program
(`MachineEvent.Throws.emits`). `machineRun_sent` says so for whole runs.
-/

namespace Suika

open Cpp BinaryPayload

/-- What sets one stack apart from another: the address of its device, that of its interface, and
the gateway of its route. -/
structure Host : Type where
  address : EtherAddr
  unicast : UInt32
  gateway : UInt32

/-- The set-up of `main` for a host. -/
def Host.config (host : Host) : Config := Config.ofMain host.address host.unicast host.gateway

/-- What one frame is sent for. -/
inductive Output : Type where
  /-- the gateway is asked for its address, in place of a packet -/
  | arpRequest
  /-- a request is answered -/
  | arpReply (p : ArpPacket)
  /-- a packet goes to the gateway -/
  | ipv4 (protocol : UInt8) (data : Bytes) (dst : UInt32)

namespace Output

/-- The numbers of `ip_gen_id` it takes. -/
def ids : Output → ℕ
  | .arpReply _ => 0
  | _ => 1

/-- The numbers a list of outputs takes. -/
def numbered : List Output → ℕ
  | [] => 0
  | o :: log => o.ids + numbered log

/-- The bytes that are written, for the hardware address of the gateway and the next number. -/
def frame (host : Host) (mac : Bytes) (id : UInt16) : Output → Bytes
  | .arpRequest =>
    EtherDevice.frameBytes host.address
      (ArpPacket.request host.address host.unicast host.gateway).encode
      EtherDevice.broadcastAddress arpType
  | .arpReply p =>
    EtherDevice.frameBytes host.address (ArpPacket.reply host.address host.unicast p).encode
      p.senderHardware.val arpType
  | .ipv4 protocol data dst =>
    EtherDevice.frameBytes host.address (Ipv4Output.packetBytes protocol data host.unicast dst id)
      mac ipType

/-- The frames of a list of outputs, from the number `n` on. -/
def frames (host : Host) (mac : Bytes) : ℕ → List Output → List Bytes
  | _, [] => []
  | n, o :: log => o.frame host mac (UInt16.ofNat n) :: frames host mac (n + o.ids) log

variable {host : Host} {mac mac' : Bytes} {n : ℕ} {o : Output} {log log' : List Output}

@[simp] theorem numbered_nil : numbered [] = 0 := rfl

@[simp] theorem numbered_cons : numbered (o :: log) = o.ids + numbered log := rfl

@[simp] theorem numbered_append : numbered (log ++ log') = numbered log + numbered log' := by
  induction log with
  | nil => simp
  | cons o log ih => simp [ih, Nat.add_assoc]

@[simp] theorem numbered_singleton : numbered [o] = o.ids := Nat.add_zero _

theorem frames_append :
    frames host mac n (log ++ log') =
      frames host mac n log ++ frames host mac (n + numbered log) log' := by
  induction log generalizing n with
  | nil => rfl
  | cons o log ih =>
    have hsum : n + o.ids + numbered log = n + numbered (o :: log) := by
      rw [numbered_cons, Nat.add_assoc]
    rw [List.cons_append, frames, frames, ih, hsum, List.cons_append]

/-- Only packets are addressed to the gateway. -/
theorem frames_congr (h : ∀ protocol data dst, .ipv4 protocol data dst ∉ log) :
    frames host mac n log = frames host mac' n log := by
  induction log generalizing n with
  | nil => rfl
  | cons o log ih =>
    have hrest := ih (n := n + o.ids) fun protocol data dst hmem =>
      h protocol data dst (List.mem_cons_of_mem _ hmem)
    have hfirst : o.frame host mac (UInt16.ofNat n) = o.frame host mac' (UInt16.ofNat n) := by
      cases o with
      | arpRequest => rfl
      | arpReply p => rfl
      | ipv4 protocol data dst => exact absurd List.mem_cons_self (h protocol data dst)
    rw [frames, frames, hrest, hfirst]

end Output

/-- The hardware address packets go to, if there is one. -/
def Host.gatewayAddress (host : Host) (s : Stack) : Bytes :=
  ((ArpCache.select s.arpCache host.gateway).map CacheData.hardwareAddress).getD []

/-- The stack with one more frame written. -/
def Host.write (host : Host) (s : Stack) (o : Output) : Stack :=
  { s with
    ipId := s.ipId + UInt16.ofNat o.ids
    sent := s.sent ++ [o.frame host (host.gatewayAddress s) s.ipId] }

/-- The state of a stack that has sent exactly this. -/
structure Realizes (host : Host) (s : Stack) (log : List Output) : Prop where
  sent : s.sent = Output.frames host (host.gatewayAddress s) 128 log
  ipId : s.ipId = UInt16.ofNat (128 + Output.numbered log)
  /-- no packet goes out before the gateway is cached -/
  resolved : ∀ protocol data dst, .ipv4 protocol data dst ∈ log →
    ∃ c, ArpCache.select s.arpCache host.gateway = some c
  cache : EtherCache s

theorem Realizes.init (host : Host) : Realizes host Stack.init [] where
  sent := rfl
  ipId := rfl
  resolved _ _ _ h := absurd h List.not_mem_nil
  cache _ h := absurd h List.not_mem_nil

namespace Realizes

variable {host : Host} {s t : Stack} {log : List Output}

/-- The table of control blocks is not part of it. -/
theorem of_table (h : Realizes host s log) (hcache : t.arpCache = s.arpCache)
    (hid : t.ipId = s.ipId) (hsent : t.sent = s.sent) : Realizes host t log where
  sent := by rw [hsent, h.sent, Host.gatewayAddress, Host.gatewayAddress, hcache]
  ipId := hid.trans h.ipId
  resolved := by
    rw [hcache]
    exact h.resolved
  cache := by
    rw [EtherCache, hcache]
    exact h.cache

/-- A frame more. -/
theorem write (h : Realizes host s log) {o : Output}
    (hresolved : ∀ protocol data dst, o = .ipv4 protocol data dst →
      ∃ c, ArpCache.select s.arpCache host.gateway = some c) :
    Realizes host (host.write s o) (log ++ [o]) where
  sent := by
    have hsent : (host.write s o).sent =
        s.sent ++ [o.frame host (host.gatewayAddress s) s.ipId] := rfl
    rw [hsent, Output.frames_append, h.ipId]
    exact congrArg (· ++ _) h.sent
  ipId := by
    have hid : (host.write s o).ipId = s.ipId + UInt16.ofNat o.ids := rfl
    rw [hid, h.ipId, Output.numbered_append, Output.numbered_singleton, ← UInt16.ofNat_add,
      Nat.add_assoc]
  resolved protocol data dst hmem := by
    rcases List.mem_append.mp hmem with hmem | hmem
    · exact h.resolved protocol data dst hmem
    · exact hresolved protocol data dst (List.mem_singleton.mp hmem).symm
  cache := h.cache

/-- A new entry changes nothing that was sent: a packet has found the gateway, and its entry stays
the first one. -/
theorem create (h : Realizes host s log) (p : ArpPacket) :
    Realizes host { s with arpCache := ArpCache.create s.arpCache p.sender } log where
  sent := by
    rw [h.sent]
    cases hsel : ArpCache.select s.arpCache host.gateway with
    | some c =>
      rw [Host.gatewayAddress, Host.gatewayAddress, hsel, ArpCache.select_create_of_some hsel]
    | none =>
      refine Output.frames_congr fun protocol data dst hmem => ?_
      obtain ⟨c, hc⟩ := h.resolved protocol data dst hmem
      rw [hsel] at hc
      cases hc
  ipId := h.ipId
  resolved protocol data dst hmem := by
    obtain ⟨c, hc⟩ := h.resolved protocol data dst hmem
    exact ⟨c, ArpCache.select_create_of_some hc⟩
  cache c hc := by
    rcases ArpCache.mem_create hc with hc | rfl
    · exact h.cache c hc
    · exact p.senderHardware.length_val

/-- A packet for this host: its sender is cached, a request is answered. -/
theorem afterPacket (h : Realizes host s log) (p : ArpPacket) :
    Realizes host (ArpProtocolHandler.afterPacket host.address host.unicast p s)
      (log ++ if p.operationCode = 1 then [.arpReply p] else []) := by
  by_cases hop : p.operationCode = 1
  · have hwrite : ArpProtocolHandler.afterPacket host.address host.unicast p s =
        host.write { s with arpCache := ArpCache.create s.arpCache p.sender } (.arpReply p) := by
      have hid : s.ipId = s.ipId + UInt16.ofNat 0 := (UInt16.add_zero _).symm
      rw [ArpProtocolHandler.afterPacket, if_pos hop, Host.write, Output.ids, ← hid]
      rfl
    rw [if_pos hop, hwrite]
    exact (h.create p).write fun _ _ _ heq => by cases heq
  · rw [if_neg hop, List.append_nil]
    refine (h.create p).of_table rfl rfl ?_
    rw [ArpProtocolHandler.afterPacket, if_neg hop]

end Realizes

/-- The same since an earlier state: a gateway that was cached then still is. -/
structure RealizesSince (host : Host) (before s : Stack) (log : List Output) : Prop where
  realizes : Realizes host s log
  gateway : ∀ c, ArpCache.select before.arpCache host.gateway = some c →
    ArpCache.select s.arpCache host.gateway = some c

namespace RealizesSince

variable {host : Host} {before s t : Stack} {log : List Output}

theorem refl (h : Realizes host s log) : RealizesSince host s s log := ⟨h, fun _ hc => hc⟩

/-- Who has to ask for the gateway now had to ask for it then. -/
theorem unknown (h : RealizesSince host before s log)
    (hnone : ArpCache.select s.arpCache host.gateway = none) :
    ArpCache.select before.arpCache host.gateway = none := by
  cases hsel : ArpCache.select before.arpCache host.gateway with
  | none => rfl
  | some c =>
    rw [h.gateway c hsel] at hnone
    cases hnone

theorem of_table (h : RealizesSince host before s log) (hcache : t.arpCache = s.arpCache)
    (hid : t.ipId = s.ipId) (hsent : t.sent = s.sent) : RealizesSince host before t log where
  realizes := h.realizes.of_table hcache hid hsent
  gateway := by
    rw [hcache]
    exact h.gateway

theorem write (h : RealizesSince host before s log) {o : Output}
    (hresolved : ∀ protocol data dst, o = .ipv4 protocol data dst →
      ∃ c, ArpCache.select s.arpCache host.gateway = some c) :
    RealizesSince host before (host.write s o) (log ++ [o]) :=
  ⟨h.realizes.write hresolved, h.gateway⟩

theorem afterPacket (h : RealizesSince host before s log) (p : ArpPacket) :
    RealizesSince host before (ArpProtocolHandler.afterPacket host.address host.unicast p s)
      (log ++ if p.operationCode = 1 then [.arpReply p] else []) :=
  ⟨h.realizes.afterPacket p, fun c hc => ArpCache.select_create_of_some (h.gateway c hc)⟩

end RealizesSince

/-! ## Calls that send -/

section

variable {host : Host} {before s : Stack} {protocol : UInt8} {data : Bytes} {src dst : UInt32}

/-- What `ipv4_output` throws an exception for before it builds a packet: a broadcast from no
address, or from the address of somebody else. -/
def Host.Refuses (host : Host) (src dst : UInt32) : Prop :=
  src = ipAddrAny ∧ dst = ipAddrBroadcast ∨ src ≠ host.unicast

theorem Host.unicast_of_not_refuses (h : ¬ host.Refuses src dst) : src = host.unicast :=
  not_not.mp fun hne => h (Or.inr hne)

/-- **All an output of a host can do**, for a source address that is not left open or is the one of
the host: nothing; a request for the gateway; or the packet. -/
theorem ipv4Output_cases (protocol : UInt8) (data : Bytes) (dst : UInt32) (hcache : EtherCache s)
    (hsrc : src = ipAddrAny → src = host.unicast) :
    65515 < data.length ∧ (ipv4Output host.config protocol data src dst).run s = .undef ∨
      host.Refuses src dst ∧
        (∃ what, (ipv4Output host.config protocol data src dst).run s =
          .threw s (.runtimeError what)) ∨
      ¬ host.Refuses src dst ∧ data.length ≤ 65515 ∧
        (ArpCache.select s.arpCache host.gateway = none ∧
          (ipv4Output host.config protocol data src dst).run s =
            .threw (host.write s .arpRequest)
              (.arpResolveException "not find arp cache. call arp reqest") ∨
        (∃ c, ArpCache.select s.arpCache host.gateway = some c) ∧
          (ipv4Output host.config protocol data src dst).run s =
            .done (host.write s (.ipv4 protocol data dst)) 0) := by
  have hroutes : host.config.routes = [⟨host.gateway, ⟨interfaceFamilyIp, host.unicast⟩⟩] := rfl
  by_cases hbc : src = ipAddrAny ∧ dst = ipAddrBroadcast
  · refine Or.inr (Or.inl ⟨Or.inl hbc, "src is required", ?_⟩)
    rw [ipv4Output, if_pos hbc]
    rfl
  by_cases huni : src = host.unicast
  swap
  · refine Or.inr (Or.inl ⟨Or.inr huni, "ip not match", ?_⟩)
    have hlookup : host.config.lookup dst =
        .ok ⟨host.gateway, ⟨interfaceFamilyIp, host.unicast⟩⟩ := rfl
    rw [ipv4Output, if_neg hbc, hlookup, Comp.lift_ok_bind,
      if_pos ⟨fun hany => huni (hsrc hany), huni⟩]
    rfl
  by_cases hd : data.length ≤ 65515
  swap
  · refine Or.inl ⟨Nat.lt_of_not_le hd, ?_⟩
    rw [ipv4Output_accepted hbc rfl (Or.inr huni),
      Ipv4Output.packet_undefined _ _ _ _ _ (Nat.lt_of_not_le hd)]
    rfl
  refine Or.inr (Or.inr ⟨not_or.mpr ⟨hbc, not_not.mpr huni⟩, hd, ?_⟩)
  cases hsel : ArpCache.select s.arpCache host.gateway with
  | none =>
    refine Or.inl ⟨rfl, ?_⟩
    rw [ipv4Output_miss hroutes (Or.inr huni) hbc hd hsel]
    rfl
  | some c =>
    refine Or.inr ⟨⟨c, rfl⟩, ?_⟩
    have hmac : host.gatewayAddress s = c.hardwareAddress := by
      rw [Host.gatewayAddress, hsel]
      rfl
    rw [ipv4Output_hit hroutes (Or.inr huni) hbc hd hsel
      (hcache c (ArpCache.select_eq_some hsel).1), Host.write, hmac, huni]
    rfl

/-- Whether an output leaves defined behaviour does not depend on the state. -/
theorem ipv4Output_undef_congr {t : Stack} (hs : EtherCache s)
    (hsrc : src = ipAddrAny → src = host.unicast)
    (h : (ipv4Output host.config protocol data src dst).run s = .undef) :
    (ipv4Output host.config protocol data src dst).run t = .undef := by
  by_cases hbc : src = ipAddrAny ∧ dst = ipAddrBroadcast
  · rw [ipv4Output, if_pos hbc] at h
    cases h
  by_cases huni : src = host.unicast
  swap
  · have hlookup : host.config.lookup dst =
        .ok ⟨host.gateway, ⟨interfaceFamilyIp, host.unicast⟩⟩ := rfl
    rw [ipv4Output, if_neg hbc, hlookup, Comp.lift_ok_bind,
      if_pos ⟨fun hany => huni (hsrc hany), huni⟩] at h
    cases h
  by_cases hd : data.length ≤ 65515
  · have hroutes : host.config.routes = [⟨host.gateway, ⟨interfaceFamilyIp, host.unicast⟩⟩] := rfl
    cases hsel : ArpCache.select s.arpCache host.gateway with
    | none =>
      rw [ipv4Output_miss hroutes (Or.inr huni) hbc hd hsel] at h
      cases h
    | some c =>
      rw [ipv4Output_hit hroutes (Or.inr huni) hbc hd hsel
        (hs c (ArpCache.select_eq_some hsel).1)] at h
      cases h
  · rw [ipv4Output_accepted hbc rfl (Or.inr huni),
      Ipv4Output.packet_undefined _ _ _ _ _ (Nat.lt_of_not_le hd)]
    rfl

/-- An output that returns has sent its packet; one that throws may have sent the request in place
of it, and then the gateway was not known from the beginning. -/
theorem ipv4Output_emits {P Q : Output → Prop} (hsrc : src = ipAddrAny → src = host.unicast)
    (hpacket : src = host.unicast → data.length ≤ 65515 → P (.ipv4 protocol data dst))
    (hrequest : ArpCache.select before.arpCache host.gateway = none → Q .arpRequest) :
    (ipv4Output host.config protocol data src dst).Emits (RealizesSince host before) P Q := by
  refine ⟨fun {s t v log} hs h => ?_, fun {s t e log} hs h => ?_⟩ <;>
    rcases ipv4Output_cases protocol data dst hs.realizes.cache hsrc with
      ⟨-, hu⟩ | ⟨-, what, hw⟩ | ⟨hsends, hd, ⟨hnone, hmiss⟩ | ⟨hc, hhit⟩⟩
  · rw [hu] at h
    cases h
  · rw [hw] at h
    cases h
  · rw [hmiss] at h
    cases h
  · rw [hhit] at h
    cases h
    refine ⟨[_], hs.write fun _ _ _ _ => hc, fun o ho => ?_⟩
    rw [List.mem_singleton.mp ho]
    exact hpacket (Host.unicast_of_not_refuses hsends) hd
  · rw [hu] at h
    cases h
  · rw [hw] at h
    cases h
    exact emits_nil hs
  · rw [hmiss] at h
    cases h
    refine ⟨[.arpRequest], hs.write fun _ _ _ heq => (by cases heq), fun o ho => ?_⟩
    rw [List.mem_singleton.mp ho]
    exact hrequest (hs.unknown hnone)
  · rw [hhit] at h
    cases h

/-- The handler of echo requests sends one reply, or throws behind a request for the gateway. -/
theorem IcmpHandler.handle_emits {P Q : Output → Prop} {interface : IpNetworkInterface}
    (hinterface : interface.unicast = host.unicast) (hd : data.length ≤ 65515)
    (hPQ : ∀ o, P o → Q o)
    (hreply : EchoRequest data → P (.ipv4 icmpType (IcmpHandler.replyBytes data) src))
    (hrequest : EchoRequest data →
      ArpCache.select before.arpCache host.gateway = none → Q .arpRequest) :
    (IcmpHandler.handle host.config ⟨icmpType, data, src, dst, interface⟩).Emits
      (RealizesSince host before) P Q := by
  refine Comp.Emits.lift_bind fun _ hinfo => Comp.Emits.lift_bind fun valid hverify => ?_
  have h8 : 8 ≤ data.length := IcmpHandler.length_of_info hinfo
  have hev : data.length % 2 = 0 := by
    by_contra hodd
    dsimp only at hverify
    rw [verifyChecksum, calculateChecksum_odd (by omega) (by omega)] at hverify
    cases hverify
  cases valid with
  | false => exact Comp.Emits.throw _
  | true =>
    refine Comp.Emits.lift_bind fun type htype => ?_
    split
    · rename_i hecho
      rw [hecho] at htype
      have hechoes : EchoRequest data := ⟨h8, hev, hd, htype, hverify⟩
      rw [IcmpHandler.replyIcmp_eq h8 hev hd, hinterface]
      refine Comp.Emits.bind hPQ (Comp.Emits.bind hPQ ?_ fun _ => Comp.Emits.pure _) fun _ =>
        Comp.Emits.pure _
      exact ipv4Output_emits (fun _ => rfl) (fun _ _ => hreply hechoes) (hrequest hechoes)
    · split
      · exact Comp.Emits.lift_bind fun _ _ => Comp.Emits.pure _
      · exact Comp.Emits.pure _

/-- The ARP handler answers requests for this host. -/
theorem ArpProtocolHandler.handle_emits {P Q : Output → Prop} {pd : ProtocolData}
    (hreply : ∀ (p : ArpPacket) (pad : Bytes), pd.data = p.encode ++ pad →
      p.targetProtocol = host.unicast → p.operationCode = 1 → P (.arpReply p)) :
    (ArpProtocolHandler.handle host.config pd).Emits (RealizesSince host before) P Q where
  of_done hs h := by
    obtain ⟨p, pad, hdata, -⟩ := ArpProtocolHandler.done_packet h
    obtain ⟨type, data⟩ := pd
    obtain rfl : data = p.encode ++ pad := hdata
    rw [Host.config, ArpProtocolHandler.handle_packet] at h
    split at h
    · cases h
    split at h
    · rename_i htarget
      cases h
      refine ⟨_, hs.afterPacket p, fun o ho => ?_⟩
      split at ho
      · rename_i hop
        rw [List.mem_singleton.mp ho]
        exact hreply p pad rfl htarget hop
      · exact absurd ho List.not_mem_nil
    · cases h
  of_threw hs h := by
    -- a packet that is refused has changed nothing
    obtain ⟨rfl, -⟩ := ArpProtocolHandler.handle_eq_threw h
    exact emits_nil hs

end

/-- A body the IPv4 handler passes on: its header verifies, it is for this host, and it holds the
bytes that its total length announces. -/
structure Ipv4Data.PassedOn (host : Host) (body : Bytes) : Prop where
  header : 20 ≤ body.length
  verifies : HeaderVerifies body
  target : u32 body 16 = host.unicast
  total : headerBytes body ≤ (u16 body 2).toNat
  fits : (u16 body 2).toNat ≤ body.length

theorem Ipv4Data.PassedOn.length_payloadBytes {host : Host} {body : Bytes}
    (h : PassedOn host body) : (payloadBytes body).length ≤ body.length := by
  rw [payloadBytes, List.length_drop, List.length_take]
  have := h.fits
  omega

/-- **What the IPv4 handler comes down to**: it leaves defined behaviour, it throws with nothing
done, or it calls the handler of the protocol, if there is one. -/
theorem Ipv4ProtocolHandler.handle_reduces {host : Host} (protocolHandlers : Ipv4ProtocolHandlers)
    (pd : ProtocolData) (s : Stack) :
    (handle host.config protocolHandlers pd).run s = .undef ∨
      (∃ e, (handle host.config protocolHandlers pd).run s = .threw s e) ∨
      Ipv4Data.PassedOn host pd.data ∧
        match protocolHandlers (u8 pd.data 9) with
        | none => (handle host.config protocolHandlers pd).run s = .done s 0
        | some handler => (handle host.config protocolHandlers pd).run s =
            (handler ⟨u8 pd.data 9, Ipv4Data.payloadBytes pd.data, u32 pd.data 12,
              u32 pd.data 16, ⟨interfaceFamilyIp, host.unicast⟩⟩ >>= fun _ => pure 0 :
                Call ℤ).run s := by
  by_cases h20 : 20 ≤ pd.data.length
  swap
  · refine Or.inl ?_
    have hdst : Ipv4Data.dst pd.data = Eval.undefined := readUint32_undefined (by omega)
    refine Comp.lift_bind_undef (readUint32_quiet _ _) fun _ => ?_
    rw [hdst]
    rfl
  rw [handle_run _ _ h20]
  split
  · exact Or.inl rfl
  split
  · exact Or.inr (Or.inl ⟨_, rfl⟩)
  rename_i hv
  split
  · exact Or.inr (Or.inl ⟨_, rfl⟩)
  rename_i htotal
  split
  · exact Or.inl rfl
  rename_i hfits
  rw [dispatch, Host.config, Device.getTargetInterface_ofMain, Comp.lift_ok_bind]
  dsimp only
  split
  · exact Or.inr (Or.inl ⟨_, rfl⟩)
  rename_i htarget
  refine Or.inr (Or.inr ⟨⟨h20, not_not.mp hv, (not_not.mp htarget).symm, Nat.le_of_not_lt htotal,
    Nat.le_of_not_lt hfits⟩, ?_⟩)
  cases protocolHandlers (u8 pd.data 9) with
  | none => rfl
  | some handler => rfl

/-- **When it returns**: nobody handles the protocol of the body, or the handler of the protocol
returned. -/
theorem Ipv4ProtocolHandler.handle_eq_done {host : Host} {protocolHandlers : Ipv4ProtocolHandlers}
    {pd : ProtocolData} {s t : Stack} {v : ℤ}
    (h : (handle host.config protocolHandlers pd).run s = .done t v) :
    Ipv4Data.PassedOn host pd.data ∧
      match protocolHandlers (u8 pd.data 9) with
      | none => t = s
      | some handler => ∃ w, (handler ⟨u8 pd.data 9, Ipv4Data.payloadBytes pd.data,
          u32 pd.data 12, u32 pd.data 16, ⟨interfaceFamilyIp, host.unicast⟩⟩).run s =
            .done t w := by
  rcases handle_reduces protocolHandlers pd s with hu | ⟨e, he⟩ | ⟨hpassed, hend⟩
  · rw [hu] at h
    cases h
  · rw [he] at h
    cases h
  refine ⟨hpassed, ?_⟩
  cases hhandler : protocolHandlers (u8 pd.data 9) with
  | none =>
    rw [hhandler] at hend
    rw [hend] at h
    cases h
    rfl
  | some handler =>
    rw [hhandler] at hend
    rw [hend] at h
    obtain ⟨u, w, hw, hpure⟩ := Comp.bind_eq_done h
    cases hpure
    exact ⟨w, hw⟩

/-- And it throws where it has done nothing yet, or where that handler throws. -/
theorem Ipv4ProtocolHandler.handle_eq_threw {host : Host} {protocolHandlers : Ipv4ProtocolHandlers}
    {pd : ProtocolData} {s t : Stack} {e : Err}
    (h : (handle host.config protocolHandlers pd).run s = .threw t e) :
    t = s ∨ Ipv4Data.PassedOn host pd.data ∧
      ∃ handler, protocolHandlers (u8 pd.data 9) = some handler ∧
        (handler ⟨u8 pd.data 9, Ipv4Data.payloadBytes pd.data, u32 pd.data 12, u32 pd.data 16,
          ⟨interfaceFamilyIp, host.unicast⟩⟩).run s = .threw t e := by
  rcases handle_reduces protocolHandlers pd s with hu | ⟨e', he⟩ | ⟨hpassed, hend⟩
  · rw [hu] at h
    cases h
  · rw [he] at h
    cases h
    exact Or.inl rfl
  cases hhandler : protocolHandlers (u8 pd.data 9) with
  | none =>
    rw [hhandler] at hend
    rw [hend] at h
    cases h
  | some handler =>
    rw [hhandler] at hend
    rw [hend] at h
    obtain hthrew | ⟨_, _, -, hpure⟩ := Comp.bind_eq_threw h
    · exact Or.inr ⟨hpassed, handler, rfl, hthrew⟩
    · cases hpure

/-- The handlers of ICMP and UDP send answers to echo requests only. -/
theorem ipProtocolInit_emits {host : Host} {before : Stack} {P Q : Output → Prop}
    {data : Bytes} {src dst : UInt32} {protocol : UInt8} {handler : Ipv4ProtocolData → Call ℤ}
    (hhandler : ipProtocolInit host.config protocol = some handler) (hd : data.length ≤ 65515)
    (hPQ : ∀ o, P o → Q o)
    (hreply : protocol = icmpType → EchoRequest data →
      P (.ipv4 icmpType (IcmpHandler.replyBytes data) src))
    (hrequest : protocol = icmpType → EchoRequest data →
      ArpCache.select before.arpCache host.gateway = none → Q .arpRequest) :
    (handler ⟨protocol, data, src, dst, ⟨interfaceFamilyIp, host.unicast⟩⟩).Emits
      (RealizesSince host before) P Q := by
  obtain ⟨rfl, rfl⟩ | ⟨-, rfl⟩ := ipProtocolInit_cases hhandler
  · exact IcmpHandler.handle_emits rfl hd hPQ (hreply rfl) (hrequest rfl)
  · -- UDP only queues
    exact Comp.Emits.of_keeps fun log =>
      UdpHandler.handle_keeps (fun u i datagram hu => hu.of_table rfl rfl rfl) _

/-- And so does the IPv4 handler, for the bodies it passes on. -/
theorem ipv4_emits {host : Host} {before : Stack} {P Q : Output → Prop} {pd : ProtocolData}
    (hlen : pd.data.length ≤ 65515) (hPQ : ∀ o, P o → Q o)
    (hreply : Ipv4Data.PassedOn host pd.data → u8 pd.data 9 = icmpType →
      EchoRequest (Ipv4Data.payloadBytes pd.data) →
      P (.ipv4 icmpType (IcmpHandler.replyBytes (Ipv4Data.payloadBytes pd.data))
        (u32 pd.data 12)))
    (hrequest : Ipv4Data.PassedOn host pd.data → u8 pd.data 9 = icmpType →
      EchoRequest (Ipv4Data.payloadBytes pd.data) →
      ArpCache.select before.arpCache host.gateway = none → Q .arpRequest) :
    (Ipv4ProtocolHandler.handle host.config (ipProtocolInit host.config) pd).Emits
      (RealizesSince host before) P Q where
  of_done hs h := by
    obtain ⟨hpassed, hend⟩ := Ipv4ProtocolHandler.handle_eq_done h
    cases hhandler : ipProtocolInit host.config (u8 pd.data 9) with
    | none =>
      rw [hhandler] at hend
      obtain rfl := hend
      exact emits_nil hs
    | some handler =>
      rw [hhandler] at hend
      obtain ⟨w, hw⟩ := hend
      have hd := hpassed.length_payloadBytes.trans hlen
      exact (ipProtocolInit_emits hhandler hd hPQ (hreply hpassed) (hrequest hpassed)).of_done hs hw
  of_threw hs h := by
    obtain rfl | ⟨hpassed, handler, hhandler, hthrew⟩ := Ipv4ProtocolHandler.handle_eq_threw h
    · exact emits_nil hs
    · have hd := hpassed.length_payloadBytes.trans hlen
      exact (ipProtocolInit_emits hhandler hd hPQ (hreply hpassed) (hrequest hpassed)).of_threw hs
        hthrew

/-! ## `sendTo` -/

/-- The segment `udp_output` builds. -/
def udpOutput.segmentBytes (src dest : IpEndpoint) (d : Bytes) : Bytes :=
  udpSegment src.port dest.port (UInt16.ofNat (8 + d.length)) (udpOutput.checksum src dest d) d

@[simp] theorem udpOutput.length_segmentBytes (src dest : IpEndpoint) (d : Bytes) :
    (segmentBytes src dest d).length = 8 + d.length := UdpData.length_udpSegment _ _ _ _ _

/-- A segment was built for a payload of even size that leaves room for the header. -/
theorem udpOutput.segment_eq_ok {src dest : IpEndpoint} {d segment : Bytes}
    (h : udpOutput.segment src dest d = .ok segment) :
    d.length % 2 = 0 ∧ d.length + 8 ≤ 65535 ∧ segment = udpOutput.segmentBytes src dest d := by
  have hd : d.length + 8 ≤ 65535 := by
    by_contra hgt
    rw [udpOutput.segment_eq_unsummed, udpOutput.unsummed_undefined src dest (by omega)] at h
    cases h
  have hev : d.length % 2 = 0 := by
    by_contra hodd
    rw [udpOutput.segment_eq_unsummed, udpOutput.unsummed_eq src dest hd, Eval.ok_bind,
      udpChecksum_odd _ _ (by rw [UdpData.length_udpSegment]; omega)
        (by rw [UdpData.length_udpSegment]; omega)] at h
    cases h
  rw [udpOutput.segment_eq src dest hev hd] at h
  cases h
  exact ⟨hev, hd, rfl⟩

section

variable {host : Host} {s t : Stack} {src dest : IpEndpoint} {d : Bytes}

/-- **All `udp_output` of a host can do.** -/
theorem udpOutput_cases (host : Host) (src dest : IpEndpoint) (d : Bytes) (hcache : EtherCache s)
    (hsrc : src.addr = ipAddrAny → src.addr = host.unicast) :
    ¬ (d.length % 2 = 0 ∧ d.length ≤ 65507) ∧ (udpOutput host.config src dest d).run s = .undef ∨
      host.Refuses src.addr dest.addr ∧
        (∃ what, (udpOutput host.config src dest d).run s = .threw s (.runtimeError what)) ∨
      ¬ host.Refuses src.addr dest.addr ∧ d.length % 2 = 0 ∧ d.length ≤ 65507 ∧
        (ArpCache.select s.arpCache host.gateway = none ∧
          (udpOutput host.config src dest d).run s = .threw (host.write s .arpRequest)
            (.arpResolveException "not find arp cache. call arp reqest") ∨
        (∃ c, ArpCache.select s.arpCache host.gateway = some c) ∧
          (udpOutput host.config src dest d).run s =
            .done (host.write s (.ipv4 udpType (udpOutput.segmentBytes src dest d) dest.addr))
              0) := by
  rcases hseg : udpOutput.segment src dest d with (_ | e) | segment
  · refine Or.inl ⟨fun hd => ?_, ?_⟩
    · rw [udpOutput.segment_eq src dest hd.1 (by omega)] at hseg
      cases hseg
    · rw [udpOutput, hseg]
      rfl
  · -- nothing in front of the checksum throws, and the checksum does not either
    exfalso
    by_cases hd : d.length + 8 ≤ 65535
    · rw [udpOutput.segment_eq_unsummed, udpOutput.unsummed_eq src dest hd, Eval.ok_bind] at hseg
      obtain ⟨cs, -, hseg⟩ := (udpChecksum_quiet _ _ _).of_bind_eq_throwing hseg
      rw [UdpData.setChecksum_udpSegment] at hseg
      cases hseg
    · rw [udpOutput.segment_eq_unsummed, udpOutput.unsummed_undefined src dest (by omega)] at hseg
      cases hseg
  obtain ⟨hev, hd, rfl⟩ := udpOutput.segment_eq_ok hseg
  have hlen := udpOutput.length_segmentBytes src dest d
  have h8 : 8 ≤ (udpOutput.segmentBytes src dest d).length := by omega
  obtain ⟨text, htext⟩ := UdpData.exists_info h8
  rw [udpOutput, hseg, Comp.lift_ok_bind, htext, Comp.lift_ok_bind]
  rcases ipv4Output_cases udpType (udpOutput.segmentBytes src dest d) dest.addr hcache hsrc with
    ⟨hbig, hu⟩ | hw | ⟨hsends, hfits, hends⟩
  · exact Or.inl ⟨fun hfits => by omega, hu⟩
  · exact Or.inr (Or.inl hw)
  · exact Or.inr (Or.inr ⟨hsends, hev, by omega, hends⟩)

/-- The local address of `sendTo` is not left open. -/
theorem localAddr_config {b : UdpControlBlock} {a addr : UInt32}
    (h : UdpSocket.localAddr host.config b a = .ok addr) :
    addr = ipAddrAny → addr = host.unicast := by
  intro hany
  rw [UdpSocket.localAddr] at h
  split at h
  · exact (Except.ok.inj h).symm
  · rename_i hne
    cases h
    exact absurd hany hne

/-- The local address of `sendTo` is always found. -/
theorem exists_localAddr (host : Host) (b : UdpControlBlock) (a : UInt32) :
    ∃ addr, UdpSocket.localAddr host.config b a = .ok addr := by
  unfold UdpSocket.localAddr
  split
  · exact ⟨_, rfl⟩
  · exact ⟨_, rfl⟩

/-- An address is never refused as if it could not be resolved. -/
theorem ipv4strToUint32_ne_arpResolve (str : List Char) (what : String) :
    ipv4strToUint32 str ≠ Eval.throwing (.arpResolveException what) := by
  have hloop : ∀ (words : List (List Char)) (idx : ℕ) (ret : UInt32),
      ipv4strToUint32.loop str words idx ret ≠ Eval.throwing (.arpResolveException what) := by
    intro words
    induction words with
    | nil =>
      intro idx ret h
      cases h
    | cons word words ih =>
      intro idx ret
      rw [ipv4strToUint32.loop]
      split
      · intro h
        cases h
      · split
        · exact ih _ _
        · intro h
          cases h
  exact hloop _ _ _

/-- `sendTo` of a block that has its port. -/
theorem sendTo_settled {m : UdpPcbManager} {sock : UdpSocket} {ipv4str : List Char}
    {b : UdpControlBlock} {a addr : UInt32} (payload : Bytes) (port : UInt32)
    (ha : ipv4strToUint32 ipv4str = .ok a) (haddr : UdpSocket.localAddr host.config b a = .ok addr)
    (hb : m.block? sock.block = some b) (hopen : b.state = .OPEN) (hport : b.endpoint.port ≠ 0)
    {s : Stack} (hs : s.udpPcbMgr = m) :
    (UdpSocket.sendTo host.config sock payload ipv4str port).run s =
      (udpOutput host.config ⟨addr, b.endpoint.port⟩ ⟨a, port.toUInt16⟩ payload).run s := by
  subst hs
  rw [UdpSocket.sendTo, ha, Comp.lift_ok_bind]
  dsimp only
  rw [Comp.run_get_bind, UdpSocket.get_eq hb, Comp.lift_ok_bind, if_neg (not_not.mpr hopen),
    haddr, Comp.lift_ok_bind, UdpSocket.localPort, if_neg hport, Comp.pure_bind]

/-- **What `sendTo` comes down to**, by the table it finds: it stops with the state as it is, or it
calls `udp_output` in a state in which the block behind the socket is open and has the source
port. Only the latter resolves addresses. -/
theorem sendTo_reduces (host : Host) (m : UdpPcbManager) (sock : UdpSocket) (payload : Bytes)
    (ipv4str : List Char) (port : UInt32) :
    (∀ s, s.udpPcbMgr = m →
      (UdpSocket.sendTo host.config sock payload ipv4str port).run s = .undef) ∨
    (∃ e, (∀ what, e ≠ .arpResolveException what) ∧ ∀ s, s.udpPcbMgr = m →
      (UdpSocket.sendTo host.config sock payload ipv4str port).run s = .threw s e) ∨
    ∃ (m' : UdpPcbManager) (b : UdpControlBlock) (a addr : UInt32),
      ipv4strToUint32 ipv4str = .ok a ∧ UdpSocket.localAddr host.config b a = .ok addr ∧
      m'.block? sock.block = some b ∧ b.state = .OPEN ∧ b.endpoint.port ≠ 0 ∧
      ∀ s, s.udpPcbMgr = m → (UdpSocket.sendTo host.config sock payload ipv4str port).run s =
        (udpOutput host.config ⟨addr, b.endpoint.port⟩ ⟨a, port.toUInt16⟩ payload).run
          { s with udpPcbMgr := m' } := by
  rcases ha : ipv4strToUint32 ipv4str with (_ | e) | a
  · refine Or.inl fun s _ => ?_
    rw [UdpSocket.sendTo, ha]
    rfl
  · refine Or.inr (Or.inl ⟨e, fun what he => ?_, fun s _ => ?_⟩)
    · rw [he] at ha
      exact ipv4strToUint32_ne_arpResolve ipv4str what ha
    · rw [UdpSocket.sendTo, ha]
      rfl
  cases hb : m.block? sock.block with
  | none =>
    refine Or.inr (Or.inl ⟨.outOfRange, fun _ he => (by cases he), ?_⟩)
    rintro s rfl
    rw [UdpSocket.sendTo, ha, Comp.lift_ok_bind]
    dsimp only
    rw [Comp.run_get_bind, UdpSocket.get_throws hb]
    rfl
  | some b =>
    by_cases hopen : b.state = .OPEN
    swap
    · refine Or.inr (Or.inl ⟨.runtimeError "pcb not found", fun _ he => (by cases he), ?_⟩)
      rintro s rfl
      rw [UdpSocket.sendTo, ha, Comp.lift_ok_bind]
      dsimp only
      rw [Comp.run_get_bind, UdpSocket.get_eq hb, Comp.lift_ok_bind, if_pos hopen]
      rfl
    obtain ⟨addr, haddr⟩ := exists_localAddr host b a
    by_cases hport : b.endpoint.port = 0
    · -- the block gets a port first, far above 0
      obtain ⟨p, hp, hmin, -⟩ := UdpSocket.searchPort_sendTo m addr
      have hp0 : p ≠ 0 := by
        rintro rfl
        exact absurd hmin (by decide)
      have hblock : (UdpSocket.assignTable m sock p).block? sock.block =
          some { b with endpoint := ⟨b.endpoint.addr, p⟩ } := by
        rw [UdpSocket.assignTable, UdpPcbManager.block?_modify_self, hb]
        rfl
      refine Or.inr (Or.inr ⟨UdpSocket.assignTable m sock p,
        { b with endpoint := ⟨b.endpoint.addr, p⟩ }, a, addr, rfl, haddr, hblock, hopen, hp0, ?_⟩)
      rintro s rfl
      exact UdpSocket.sendTo_run ha hb hopen hport haddr hp
    · exact Or.inr (Or.inr ⟨m, b, a, addr, rfl, haddr, hb, hopen, hport, fun s hs => by
        rw [sendTo_settled payload port ha haddr hb hopen hport hs, ← hs]⟩)

/-- What a call of `sendTo` is for: a datagram from the block behind the socket, whose port it has
by then, to the endpoint it names. -/
structure SentTo (host : Host) (t : Stack) (sock : UdpSocket) (payload : Bytes)
    (ipv4str : List Char) (port : UInt32) (src dest : IpEndpoint) : Prop where
  dstAddr : ipv4strToUint32 ipv4str = .ok dest.addr
  dstPort : dest.port = port.toUInt16
  srcAddr : src.addr = host.unicast
  srcPort : ∃ b, t.udpPcbMgr.block? sock.block = some b ∧ b.state = .OPEN ∧
    b.endpoint.port = src.port
  even : payload.length % 2 = 0
  fits : payload.length ≤ 65507

/-- **All a call of `sendTo` can send**: nothing, or a request for the gateway, when it throws; the
datagram it is for, when it returns. -/
theorem sendTo_ends (sock : UdpSocket) (payload : Bytes) (ipv4str : List Char) (port : UInt32)
    {log : List Output} (hs : Realizes host s log) :
    (∀ t e, (UdpSocket.sendTo host.config sock payload ipv4str port).run s = .threw t e →
      Realizes host t log ∨
        ArpCache.select s.arpCache host.gateway = none ∧ Realizes host t (log ++ [.arpRequest])) ∧
    ∀ t v, (UdpSocket.sendTo host.config sock payload ipv4str port).run s = .done t v →
      ∃ src dest, SentTo host t sock payload ipv4str port src dest ∧
        Realizes host t
          (log ++ [.ipv4 udpType (udpOutput.segmentBytes src dest payload) dest.addr]) := by
  rcases sendTo_reduces host s.udpPcbMgr sock payload ipv4str port with
    hu | ⟨e, -, he⟩ | ⟨m, b, a, addr, ha, haddr, hb, hopen, -, hrun⟩
  · rw [hu s rfl]
    exact ⟨fun _ _ h => (nomatch h), fun _ _ h => (nomatch h)⟩
  · rw [he s rfl]
    refine ⟨fun t e h => ?_, fun _ _ h => (nomatch h)⟩
    cases h
    exact Or.inl hs
  have hm : Realizes host { s with udpPcbMgr := m } log := hs.of_table rfl rfl rfl
  have hsrc : addr = ipAddrAny → addr = host.unicast := localAddr_config haddr
  rw [hrun s rfl]
  rcases udpOutput_cases host ⟨addr, b.endpoint.port⟩ ⟨a, port.toUInt16⟩ payload hm.cache hsrc with
    ⟨-, hu⟩ | ⟨-, what, hw⟩ | ⟨hsends, hev, hd, ⟨hnone, hmiss⟩ | ⟨hc, hhit⟩⟩
  · rw [hu]
    exact ⟨fun _ _ h => (nomatch h), fun _ _ h => (nomatch h)⟩
  · rw [hw]
    refine ⟨fun t e h => ?_, fun _ _ h => (nomatch h)⟩
    cases h
    exact Or.inl hm
  · rw [hmiss]
    refine ⟨fun t e h => ?_, fun _ _ h => (nomatch h)⟩
    cases h
    exact Or.inr ⟨hnone, hm.write fun _ _ _ heq => by cases heq⟩
  · rw [hhit]
    refine ⟨fun _ _ h => (nomatch h), fun t v h => ?_⟩
    cases h
    have huni : addr = host.unicast := Host.unicast_of_not_refuses hsends
    exact ⟨⟨addr, b.endpoint.port⟩, ⟨a, port.toUInt16⟩,
      ⟨ha, rfl, huni, ⟨b, hb, hopen, rfl⟩, hev, hd⟩, hm.write fun _ _ _ _ => hc⟩

end

/-- An operation that is not `sendTo` touches nothing but the table. -/
theorem UdpOp.exec_table {cfg : Config} {op : UdpOp} {s t : Stack}
    (hop : ∀ sock payload ipv4str port, op ≠ .sendTo sock payload ipv4str port)
    (h : ((op.exec cfg).run s).next? = some t) : t = { s with udpPcbMgr := t.udpPcbMgr } := by
  cases op with
  | «open» =>
    rw [UdpOp.exec, Comp.next?_bind_pure, UdpSocket.open_run] at h
    split at h <;> cases h <;> rfl
  | bind sock ipv4str port =>
    rw [UdpOp.exec, Comp.next?_bind_pure] at h
    rcases ha : ipv4strToUint32 ipv4str with (_ | e) | a
    · rw [UdpSocket.bind, ha] at h
      cases h
    · rw [UdpSocket.bind, ha] at h
      cases h
      rfl
    · rw [UdpSocket.bind_run ha] at h
      split at h
      · cases h
        rfl
      · split at h <;> cases h <;> rfl
  | sendTo sock payload ipv4str port => exact absurd rfl (hop _ _ _ _)
  | recvFrom sock buf endpoint dead =>
    rw [UdpOp.exec, Comp.next?_bind_pure] at h
    cases hb : s.udpPcbMgr.block? sock.block with
    | none =>
      rw [UdpSocket.recvFrom_throws hb] at h
      cases h
      rfl
    | some b =>
      rw [UdpSocket.recvFrom_run hb] at h
      split at h
      · cases h
        rfl
      split at h
      · cases h
      · split at h <;> cases h
        rfl
  | handle d =>
    rw [UdpOp.exec, Comp.next?_bind_pure] at h
    exact UdpHandler.handle_keeps (Q := fun t => t = { s with udpPcbMgr := t.udpPcbMgr })
      (fun u i datagram hu => by rw [hu]; rfl) d s t rfl h
  | interruptAll =>
    cases h
    rfl

/-! ## Events -/

/-- A body of this type waits for its handler. -/
def Machine.Waits (m : Machine) (type : UInt16) (body : Bytes) : Prop :=
  ∃ p ∈ m.protocolQueues, p.1 = type ∧ ∃ d ∈ p.2, d.data = body

/-- Why an event from `m` to `n` sends something. -/
inductive Causes (host : Host) (m n : Machine) : MachineEvent → Output → Prop where
  /-- a request for this host waited -/
  | arpReply {p : ArpPacket} {pad : Bytes} : m.Waits arpType (p.encode ++ pad) →
      p.targetProtocol = host.unicast → p.operationCode = 1 →
      Causes host m n (.signal .SIGUSR1) (.arpReply p)
  /-- an echo request for this host waited; the answer goes back to its source -/
  | echoReply {body : Bytes} : m.Waits ipType body → Ipv4Data.PassedOn host body →
      u8 body 9 = icmpType → EchoRequest (Ipv4Data.payloadBytes body) →
      Causes host m n (.signal .SIGUSR1)
        (.ipv4 icmpType (IcmpHandler.replyBytes (Ipv4Data.payloadBytes body)) (u32 body 12))
  /-- the application sent a datagram -/
  | datagram {sock : UdpSocket} {payload : Bytes} {ipv4str : List Char} {port : UInt32}
      {src dest : IpEndpoint} : SentTo host n.stack sock payload ipv4str port src dest →
      Causes host m n (.call (.sendTo sock payload ipv4str port))
        (.ipv4 udpType (udpOutput.segmentBytes src dest payload) dest.addr)
  /-- such a request waited, the gateway is not known, and the handler throws -/
  | echoRequest {body : Bytes} : m.Waits ipType body → Ipv4Data.PassedOn host body →
      u8 body 9 = icmpType → EchoRequest (Ipv4Data.payloadBytes body) →
      ArpCache.select m.stack.arpCache host.gateway = none →
      MachineEvent.Throws host.config m (.signal .SIGUSR1) n →
      Causes host m n (.signal .SIGUSR1) .arpRequest
  /-- the application tried to send a datagram, and the gateway is not known -/
  | arpRequest {sock : UdpSocket} {payload : Bytes} {ipv4str : List Char} {port : UInt32} :
      ArpCache.select m.stack.arpCache host.gateway = none →
      Causes host m n (.call (.sendTo sock payload ipv4str port)) .arpRequest

/-- What causes a packet keeps it small enough. -/
theorem Causes.length_le {host : Host} {m n : Machine} {ev : MachineEvent} {protocol : UInt8}
    {data : Bytes} {dst : UInt32} (h : Causes host m n ev (.ipv4 protocol data dst)) :
    data.length ≤ 65515 := by
  cases h with
  | echoReply _ _ _ hrequest =>
    exact (IcmpHandler.echoes_replyBytes hrequest.header).length.trans_le hrequest.fits
  | @datagram sock payload ipv4str port src dest hsent =>
    have hfits := hsent.fits
    have hlen := udpOutput.length_segmentBytes src dest payload
    omega

/-- What waits in the queues is no longer than the body of a frame. -/
def Machine.Bounded (m : Machine) : Prop :=
  ∀ p ∈ m.protocolQueues, ∀ d ∈ p.2, d.data.length ≤ 1500

/-- The handler of a waiting body sends answers to it; where it throws, it may have asked for the
gateway in place of one. -/
theorem protocolHandlers_emits {host : Host} {m n : Machine} {Q : Output → Prop}
    (hPQ : ∀ o, Causes host m n (.signal .SIGUSR1) o → Q o)
    (hrequest : ∀ body, m.Waits ipType body → Ipv4Data.PassedOn host body →
      u8 body 9 = icmpType → EchoRequest (Ipv4Data.payloadBytes body) →
      ArpCache.select m.stack.arpCache host.gateway = none → Q .arpRequest)
    (hbounded : m.Bounded) {p : UInt16 × List ProtocolData} (hp : p ∈ m.protocolQueues)
    {d : ProtocolData} (hd : d ∈ p.2) :
    (protocolHandlers host.config p.1 d).Emits (RealizesSince host m.stack)
      (Causes host m n (.signal .SIGUSR1)) Q := by
  have hlen := hbounded p hp d hd
  unfold protocolHandlers
  split
  · rename_i harp
    exact ArpProtocolHandler.handle_emits fun q pad hdata htarget hop =>
      .arpReply ⟨p, hp, harp, d, hd, hdata⟩ htarget hop
  split
  · rename_i hip
    have hwaits : m.Waits ipType d.data := ⟨p, hp, hip, d, hd, rfl⟩
    exact ipv4_emits (by omega) hPQ (.echoReply hwaits) (hrequest d.data hwaits)
  · exact Comp.Emits.undefined

/-- **Everything an event sends has its cause.** -/
theorem MachineEvent.Step.emits {host : Host} {m n : Machine} {ev : MachineEvent}
    {log : List Output} (hbounded : m.Bounded) (hs : Realizes host m.stack log)
    (h : ev.Step host.config m n) :
    ∃ out, Realizes host n.stack (log ++ out) ∧ ∀ o ∈ out, Causes host m n ev o := by
  cases ev with
  | signal sig =>
    cases sig with
    | SIGHUP =>
      cases h
      exact emits_nil hs
    | SIGUSR1 =>
      obtain ⟨⟨queues, s⟩, hdrain, rfl⟩ := Outcome.mapState_eq_done.mp h
      obtain ⟨out, hout, hcaused⟩ := drainAll_emits (Q := fun _ => True) (fun p hp d hd =>
        protocolHandlers_emits (fun _ _ => trivial) (fun _ _ _ _ _ _ => trivial) hbounded hp hd)
        (RealizesSince.refl hs) hdrain
      exact ⟨out, hout.realizes, hcaused⟩
    | SIGUSR2 =>
      cases h
      exact emits_nil (hs.of_table rfl rfl rfl)
    | irq frame =>
      obtain ⟨_, _, hhandler, hpure⟩ := Comp.bind_eq_done h
      cases hpure
      obtain rfl | ⟨d, rfl⟩ := EtherDevice.handler_done hhandler
      · exact emits_nil hs
      · exact emits_nil hs
  | call op =>
    by_cases hop : ∃ sock payload ipv4str port, op = .sendTo sock payload ipv4str port
    · obtain ⟨sock, payload, ipv4str, port, rfl⟩ := hop
      obtain ⟨hthrew, hdone⟩ := sendTo_ends sock payload ipv4str port hs
      have hnext : ((((UdpOp.sendTo sock payload ipv4str port).exec host.config).run
          m.stack).mapState fun s => { m with stack := s }).next? = some n := h
      rw [UdpOp.exec, Comp.run_bind] at hnext
      rcases hr : (UdpSocket.sendTo host.config sock payload ipv4str port).run m.stack with
        ⟨t, v⟩ | ⟨t, e⟩ | _ | _ <;> rw [hr] at hnext <;> cases hnext
      · obtain ⟨src, dest, hsent, ht⟩ := hdone t v hr
        refine ⟨_, ht, fun o ho => ?_⟩
        rw [List.mem_singleton.mp ho]
        exact .datagram hsent
      · rcases hthrew t e hr with ht | ⟨hnone, ht⟩
        · exact emits_nil ht
        · refine ⟨_, ht, fun o ho => ?_⟩
          rw [List.mem_singleton.mp ho]
          exact .arpRequest hnone
    · have hnext : (((op.exec host.config).run m.stack).mapState fun s =>
          { m with stack := s }).next? = some n := h
      have htable : ∃ t, ((op.exec host.config).run m.stack).next? = some t ∧
          n = { m with stack := t } := by
        rcases hr : (op.exec host.config).run m.stack with ⟨t, v⟩ | ⟨t, e⟩ | _ | _ <;>
          rw [hr] at hnext <;> cases hnext <;> exact ⟨t, rfl, rfl⟩
      obtain ⟨t, ht, rfl⟩ := htable
      have hsame := UdpOp.exec_table (fun sock payload ipv4str port heq =>
        hop ⟨sock, payload, ipv4str, port, heq⟩) ht
      refine emits_nil (hs.of_table ?_ ?_ ?_) <;> rw [hsame]

/-- **And so has what an event sent that ended the program.** -/
theorem MachineEvent.Throws.emits {host : Host} {m n : Machine} {ev : MachineEvent}
    {log : List Output} (hbounded : m.Bounded) (hs : Realizes host m.stack log)
    (h : ev.Throws host.config m n) :
    ∃ out, Realizes host n.stack (log ++ out) ∧ ∀ o ∈ out, Causes host m n ev o := by
  have hthrows := h
  cases ev with
  | signal sig =>
    obtain ⟨e, he⟩ := h
    cases sig with
    | SIGHUP => cases he
    | SIGUSR1 =>
      obtain ⟨⟨queues, s⟩, hdrain, rfl⟩ := Outcome.mapState_eq_threw.mp he
      obtain ⟨out, hout, hcaused⟩ := drainAll_emits_threw (fun _ ho => ho) (fun p hp d hd =>
        protocolHandlers_emits (fun _ ho => ho) (fun body hwaits hpassed hicmp hrequest hnone =>
          .echoRequest hwaits hpassed hicmp hrequest hnone hthrows) hbounded hp hd)
        (RealizesSince.refl hs) hdrain
      exact ⟨out, hout.realizes, hcaused⟩
    | SIGUSR2 => cases he
    | irq frame =>
      obtain hhandler | ⟨_, _, -, hpure⟩ := Comp.bind_eq_threw he
      · obtain rfl | ⟨d, rfl⟩ := EtherDevice.handler_next (congrArg Outcome.next? hhandler)
        · exact emits_nil hs
        · exact emits_nil hs
      · cases hpure
  | call op => exact h.elim

/-! ## Runs -/

/-- A step of the machine is one of the dispatcher, whatever is pending and recorded there. -/
theorem MachineEvent.Step.effect {cfg : Config} {m n : Machine} {ev : MachineEvent}
    (h : ev.Step cfg m n) : ∃ e, Dispatcher.Effect ⟨m, true, []⟩ ev e ∧ e.machine = n := by
  have hstep : ∃ e, Dispatcher.Step cfg ⟨m, true, []⟩ ev e ∧ e.machine = n := by
    rcases ev with (_ | _ | _ | frame) | op
    · exact ⟨_, ⟨n, h, rfl⟩, rfl⟩
    · obtain ⟨⟨queues, s⟩, hdrain, rfl⟩ := Outcome.mapState_eq_done.mp h
      obtain rfl := drainAll_eq_done hdrain
      exact ⟨_, ⟨rfl, Dispatcher.handleProtocolSignal_eq_done.mpr ⟨s, hdrain, rfl⟩⟩, rfl⟩
    · exact ⟨_, ⟨n, h, rfl⟩, rfl⟩
    · obtain ⟨_, v, hhandler, hpure⟩ := Comp.bind_eq_done h
      cases hpure
      rw [← Dispatcher.handler_machine frame ⟨m, true, []⟩] at hhandler
      obtain ⟨e, he, rfl⟩ := Outcome.mapState_eq_done.mp hhandler
      exact ⟨e, ⟨v, he⟩, rfl⟩
    · exact ⟨_, ⟨n, h, rfl⟩, rfl⟩
  obtain ⟨e, he, hn⟩ := hstep
  exact ⟨e, he.effect, hn⟩

/-- A body is what the device read, at most 1514 bytes of it, without the header. -/
theorem length_frameBody (frame : Bytes) : (frameBody frame).length ≤ 1500 := by
  rw [frameBody, List.length_drop, List.length_take]
  omega

theorem MachineEvent.Step.bounded {cfg : Config} {m n : Machine} {ev : MachineEvent}
    (hm : m.Bounded) (h : ev.Step cfg m n) : n.Bounded := by
  obtain ⟨e, heffect, rfl⟩ := h.effect
  cases heffect with
  | @queued frame hframe =>
    intro p hp d hd
    obtain ⟨q, hq, rfl⟩ := List.mem_map.mp hp
    dsimp only at hd
    split at hd
    · rcases List.mem_append.mp hd with hd | hd
      · exact hm q hq d hd
      · rw [List.mem_singleton.mp hd]
        exact length_frameBody frame
    · exact hm q hq d hd
  | dropped _ => exact hm
  | drained _ =>
    intro p hp d hd
    obtain ⟨q, -, rfl⟩ := List.mem_map.mp hp
    exact absurd hd List.not_mem_nil
  | other _ _ => exact hm

theorem Machine.bounded_init : Machine.init.Bounded := by
  have hempty : ∀ p ∈ protocolQueueInit, p.2 = [] := by decide
  intro p hp d hd
  rw [hempty p hp] at hd
  exact absurd hd List.not_mem_nil

theorem MachineRun.bounded {cfg : Config} {tr : List (Runs.Record Machine MachineEvent)}
    {m : Machine} (hrun : MachineRun cfg Machine.init tr m) : m.Bounded :=
  Runs.Run.invariant (fun hm h => MachineEvent.Step.bounded hm h) hrun Machine.bounded_init

/-- What a run has sent: the frames of outputs that each have a cause in the run. -/
structure SentFor (host : Host) (tr : List (Runs.Record Machine MachineEvent)) (m : Machine)
    (log : List Output) : Prop where
  realizes : Realizes host m.stack log
  caused : ∀ o ∈ log, ∃ r ∈ tr, Causes host r.pre r.post r.label o

/-- One event more. -/
theorem SentFor.snoc {host : Host} {tr : List (Runs.Record Machine MachineEvent)} {m n : Machine}
    {ev : MachineEvent} {log : List Output} (h : SentFor host tr m log)
    (hemits : ∃ out, Realizes host n.stack (log ++ out) ∧ ∀ o ∈ out, Causes host m n ev o) :
    ∃ log, SentFor host (tr ++ [⟨m, ev, n⟩]) n log := by
  obtain ⟨out, hn, hout⟩ := hemits
  refine ⟨log ++ out, hn, fun o ho => ?_⟩
  rcases List.mem_append.mp ho with ho | ho
  · obtain ⟨r, hr, hc⟩ := h.caused o ho
    exact ⟨r, List.mem_append_left _ hr, hc⟩
  · exact ⟨_, List.mem_append_right _ (List.mem_singleton_self _), hout o ho⟩

theorem MachineRun.sentFor {host : Host} {tr : List (Runs.Record Machine MachineEvent)}
    {m : Machine} (hrun : MachineRun host.config Machine.init tr m) :
    ∃ log, SentFor host tr m log := by
  induction hrun with
  | nil => exact ⟨[], Realizes.init host, fun o ho => absurd ho List.not_mem_nil⟩
  | snoc hrun hstep ih =>
    obtain ⟨log, hlog⟩ := ih
    exact hlog.snoc (hstep.emits (MachineRun.bounded hrun) hlog.realizes)

theorem MachineReaches.sentFor {host : Host} {tr : List (Runs.Record Machine MachineEvent)}
    {m : Machine} (h : MachineReaches host.config tr m) : ∃ log, SentFor host tr m log := by
  cases h with
  | running hrun => exact hrun.sentFor
  | ended hrun hthrows =>
    obtain ⟨log, hlog⟩ := hrun.sentFor
    exact hlog.snoc (hthrows.emits (MachineRun.bounded hrun) hlog.realizes)

/-- The host of `exampleConfig`. -/
def exampleHost : Host := ⟨exampleAddress, 0xC0000202, 0xC0000201⟩

/-- An echo request of 192.0.2.1. -/
def pingFrame : Bytes :=
  EtherDevice.frameBytes peerAddress
    (Ipv4Output.packetBytes icmpType (echoMessage 8 0 0xF7FD 1 1 []) 0xC0000201 0xC0000202 128)
    exampleAddress.val ipType

end Suika
