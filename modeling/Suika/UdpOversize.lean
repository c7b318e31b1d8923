import Suika.UdpCodec
import Suika.Ipv4Codec

/-!
# Payloads of any size

What becomes of a payload on its way through `udp_output` and `ipv4_output`. Each of them adds its
header to the size, cuts the sum to 16 bits, resizes its vector to that, and copies the payload
whole.

* What leaves the device is exact: both length fields count every byte, and the packet ends with the
  payload (`udpOutput_ends`).
* A payload is not refused because of its size. From 65508 bytes on the copy of the IPv4 layer runs
  past the end of the packet, and from 65528 on already the copy of the UDP layer; in front of both,
  the checksum reads behind a payload of odd size (`outputExact_iff`).
-/

namespace Suika

open Cpp BinaryPayload

/-! ## How an output ends -/

/-- An output that fails before its packet is transmitted, or transmits a packet with `P`. -/
inductive EndsWith (cfg : Config) (P : Bytes → Prop) (s : Stack) : Outcome Err Stack ℤ → Prop where
  /-- it threw, and nothing was sent -/
  | failed {t : Stack} {e : Err} (hsent : t.sent = s.sent) : EndsWith cfg P s (.threw t e)
  /-- it threw, and an ARP request was sent -/
  | resolving {t : Stack} {e : Err} {request mac : Bytes}
      (hsent : t.sent =
        s.sent ++ [EtherDevice.frameBytes cfg.address request mac arpType]) :
      EndsWith cfg P s (.threw t e)
  /-- it returned, and the packet was sent -/
  | transmitted {t : Stack} {v : ℤ} {packet mac : Bytes}
      (hsent : t.sent = s.sent ++ [EtherDevice.frameBytes cfg.address packet mac ipType])
      (hpacket : P packet) : EndsWith cfg P s (.done t v)

theorem EndsWith.mono {cfg : Config} {P Q : Bytes → Prop} {s : Stack} {o : Outcome Err Stack ℤ}
    (h : EndsWith cfg P s o) (hPQ : ∀ packet, P packet → Q packet) : EndsWith cfg Q s o := by
  cases h with
  | failed hsent => exact failed hsent
  | resolving hsent => exact resolving hsent
  | transmitted hsent hpacket => exact transmitted hsent (hPQ _ hpacket)

/-- Every output in defined behaviour ends in one of these ways, with the packet it built. -/
theorem ipv4Output_ends {cfg : Config} {protocol : UInt8} {d : Bytes} {src dst : UInt32} {s : Stack}
    (hdefined : (ipv4Output cfg protocol d src dst).run s ≠ .undef) :
    EndsWith cfg (fun packet => ipv4Output.packet protocol d src dst s.ipId = .ok packet) s
      ((ipv4Output cfg protocol d src dst).run s) := by
  by_cases haccepts : Ipv4Output.Accepts cfg src dst
  · obtain ⟨hbc, route, hlookup, hsrc⟩ := haccepts
    rw [ipv4Output_accepted hbc hlookup hsrc] at hdefined ⊢
    rcases hp : ipv4Output.packet protocol d src dst s.ipId with (_ | e) | packet
    · rw [hp] at hdefined
      exact absurd rfl hdefined
    · exact .failed rfl
    rw [Comp.lift_ok_bind]
    cases hc : ArpCache.select s.arpCache route.gateway with
    | none =>
      have hmiss : (arpResolve cfg route.interface route.gateway).run
          { s with ipId := s.ipId + 1 } = .threw _ _ := arpResolve_miss hc
      rw [Comp.bind_threw hmiss]
      exact .resolving rfl
    | some c =>
      have hhit : (arpResolve cfg route.interface route.gateway).run
          { s with ipId := s.ipId + 1 } = .done _ _ := arpResolve_hit hc
      rw [Comp.bind_done hhit]
      by_cases h6 : c.hardwareAddress.length = 6
      · rw [Comp.bind_done (EtherDevice.transmit_eq cfg packet ipType _ h6
          (Ipv4Output.packet_fits hp))]
        exact .transmitted rfl rfl
      · rw [EtherDevice.transmit, if_pos h6]
        exact .failed rfl
  · obtain hundef | ⟨e, he⟩ := ipv4Output_refused haccepts
    · exact absurd hundef hdefined
    · rw [he]
      exact .failed rfl

/-- The tests of `ipv4_output` that throw: a broadcast from no address, or from the address of
somebody else than the interface of the first route. -/
def Ipv4Output.Refuses (cfg : Config) (src dst : UInt32) : Prop :=
  src = ipAddrAny ∧ dst = ipAddrBroadcast ∨
    ∃ route, cfg.lookup dst = .ok route ∧ src ≠ ipAddrAny ∧ src ≠ route.interface.unicast

/-- **When an output stays in defined behaviour**: it is refused, or there is a route to read and
the packet holds the data. -/
theorem ipv4Output_defined_iff {cfg : Config} {protocol : UInt8} {d : Bytes} {src dst : UInt32}
    {s : Stack} : (ipv4Output cfg protocol d src dst).run s ≠ .undef ↔
      Ipv4Output.Refuses cfg src dst ∨ Ipv4Output.Accepts cfg src dst ∧ d.length ≤ 65515 := by
  by_cases hbc : src = ipAddrAny ∧ dst = ipAddrBroadcast
  · rw [ipv4Output, if_pos hbc]
    exact ⟨fun _ => Or.inl (Or.inl hbc), fun _ h => (by cases h)⟩
  cases hroutes : cfg.routes with
  | nil =>
    -- `routes[0]` of an empty vector
    have hlookup : cfg.lookup dst = Eval.undefined := by rw [Config.lookup, hroutes]
    rw [ipv4Output, if_neg hbc, hlookup]
    refine ⟨fun h => absurd rfl h, ?_⟩
    rintro ((hrefused | ⟨route, hroute, -⟩) | ⟨⟨-, route, hroute, -⟩, -⟩)
    · exact absurd hrefused hbc
    · rw [hlookup] at hroute
      cases hroute
    · rw [hlookup] at hroute
      cases hroute
  | cons route routes =>
    have hlookup : cfg.lookup dst = .ok route := by rw [Config.lookup, hroutes]
    by_cases hsrc : src ≠ ipAddrAny ∧ src ≠ route.interface.unicast
    · rw [ipv4Output, if_neg hbc, hlookup, Comp.lift_ok_bind, if_pos hsrc]
      exact ⟨fun _ => Or.inl (Or.inr ⟨route, hlookup, hsrc⟩), fun _ h => (by cases h)⟩
    have hown : src = ipAddrAny ∨ src = route.interface.unicast :=
      or_iff_not_imp_left.mpr fun hany => not_not.mp fun huni => hsrc ⟨hany, huni⟩
    have hno : ¬ Ipv4Output.Refuses cfg src dst := by
      rintro (hrefused | ⟨route', hroute, hne⟩)
      · exact hbc hrefused
      · cases hlookup.symm.trans hroute
        exact hsrc hne
    have haccepts : Ipv4Output.Accepts cfg src dst := ⟨hbc, route, hlookup, hown⟩
    refine ⟨fun h => Or.inr ⟨haccepts, ?_⟩, ?_⟩
    · by_contra hd
      refine h ?_
      rw [ipv4Output_accepted hbc hlookup hown,
        Ipv4Output.packet_undefined _ _ _ _ _ (Nat.lt_of_not_le hd)]
      rfl
    · rintro (hrefused | ⟨-, hd⟩)
      · exact absurd hrefused hno
      rw [ipv4Output_run hroutes hown hbc hd]
      cases hc : ArpCache.select s.arpCache route.gateway with
      | none =>
        have hmiss : (arpResolve cfg route.interface route.gateway).run
            { s with ipId := s.ipId + 1 } = .threw _ _ := arpResolve_miss hc
        rw [Comp.bind_threw hmiss]
        exact fun h => (by cases h)
      | some c =>
        have hhit : (arpResolve cfg route.interface route.gateway).run
            { s with ipId := s.ipId + 1 } = .done _ _ := arpResolve_hit hc
        rw [Comp.bind_done hhit]
        by_cases h6 : c.hardwareAddress.length = 6
        · rw [Comp.bind_done (EtherDevice.transmit_eq cfg _ ipType _ h6
            (Nat.le_succ_of_le (Ipv4Output.packetBytes_fits hd)))]
          exact fun h => (by cases h)
        · rw [EtherDevice.transmit, if_pos h6]
          exact fun h => (by cases h)

/-! ## What is transmitted -/

section

variable {cfg : Config} {src dest : IpEndpoint} {d : Bytes} {s : Stack} {cs : UInt16}

/-- A packet whose length fields count every byte of the payload, and which ends with it. -/
structure CarriesWhole (d packet : Bytes) : Prop where
  length : ∃ n, UdpData.length (packet.drop 20) = .ok n ∧ n.toNat = 8 + d.length
  totalLength : ∃ n, Ipv4Data.totalLength packet = .ok n ∧ n.toNat = 28 + d.length
  payload : packet.drop 28 = d

/-- A packet that was built around a segment carries its payload whole. -/
theorem carriesWhole_of_packet {packet : Bytes} {srcPort dstPort : UInt16} {ipSrc ipDst : UInt32}
    {id : UInt16}
    (h : ipv4Output.packet udpType (udpSegment srcPort dstPort (UInt16.ofNat (8 + d.length)) cs d)
      ipSrc ipDst id = .ok packet) : CarriesWhole d packet := by
  have hfits := Ipv4Output.length_of_packet h
  rw [Ipv4Output.packet_eq _ _ _ _ _ hfits] at h
  rw [UdpData.length_udpSegment] at h hfits
  cases h
  refine ⟨⟨UInt16.ofNat (8 + d.length), ?_, ?_⟩, ⟨UInt16.ofNat (20 + (8 + d.length)), ?_, ?_⟩, rfl⟩
  · exact congrArg Except.ok (join16_be16 _)
  · rw [UInt16.toNat_ofNat', Nat.mod_eq_of_lt (by omega)]
  · exact totalLength_ipv4Header _ _ _ _ _ _ _
  · rw [UInt16.toNat_ofNat', Nat.mod_eq_of_lt (by omega)]
    omega

/-- What `udp_output` is, for a payload its segment has room for: an output of the segment, if the
checksum has no byte to read behind it. -/
theorem udpOutput_run (hd : d.length + 8 ≤ 65535) :
    (udpOutput cfg src dest d).run s =
      if d.length % 2 = 0 then
        (ipv4Output cfg udpType (udpSegment src.port dest.port (UInt16.ofNat (8 + d.length))
          (udpOutput.checksum src dest d) d) src.addr dest.addr).run s
      else .undef := by
  split
  · rename_i hev
    have h8 : 8 ≤ (udpSegment src.port dest.port (UInt16.ofNat (8 + d.length))
        (udpOutput.checksum src dest d) d).length := by
      rw [UdpData.length_udpSegment]
      exact Nat.le_add_right 8 _
    obtain ⟨text, htext⟩ := UdpData.exists_info h8
    rw [udpOutput, udpOutput.segment_eq src dest hev hd, Comp.lift_ok_bind, htext,
      Comp.lift_ok_bind]
  · rename_i hodd
    rw [udpOutput, udpOutput.segment_eq_unsummed, udpOutput.unsummed_eq src dest hd, Eval.ok_bind,
      udpChecksum_odd _ _ (by rw [UdpData.length_udpSegment]; omega)
        (by rw [UdpData.length_udpSegment]; omega)]
    rfl

/-- **What is transmitted is exact**, whatever the payload. -/
theorem udpOutput_ends (hdefined : (udpOutput cfg src dest d).run s ≠ .undef) :
    EndsWith cfg (CarriesWhole d) s ((udpOutput cfg src dest d).run s) := by
  by_cases hd : d.length + 8 ≤ 65535
  · rw [udpOutput_run hd] at hdefined ⊢
    by_cases hev : d.length % 2 = 0
    · rw [if_pos hev] at hdefined ⊢
      exact (ipv4Output_ends hdefined).mono fun packet => carriesWhole_of_packet
    · rw [if_neg hev] at hdefined
      exact absurd rfl hdefined
  · rw [udpOutput, udpOutput.segment_eq_unsummed,
      udpOutput.unsummed_undefined src dest (Nat.lt_of_not_le hd)] at hdefined
    exact absurd rfl hdefined

end

/-! ## Sizes -/

/-- A call that fails before it transmits its packet, or transmits its payload whole. A run that
leaves defined behaviour, such as one whose copy runs past the end of a vector, does neither. -/
def OutputExact (cfg : Config) (src dest : IpEndpoint) (d : Bytes) (s : Stack) : Prop :=
  EndsWith cfg (CarriesWhole d) s ((udpOutput cfg src dest d).run s)

/-- **Sizes.** An output is exact for even sizes up to 65507 bytes, if there is a route to send them
over; and up to 65527 as long as `ipv4_output` throws before it builds a packet. -/
theorem outputExact_iff (cfg : Config) (src dest : IpEndpoint) (d : Bytes) (s : Stack) :
    OutputExact cfg src dest d s ↔
      d.length % 2 = 0 ∧
        (d.length ≤ 65507 ∧ Ipv4Output.Accepts cfg src.addr dest.addr ∨
          d.length ≤ 65527 ∧ Ipv4Output.Refuses cfg src.addr dest.addr) := by
  have hdefined : OutputExact cfg src dest d s ↔ (udpOutput cfg src dest d).run s ≠ .undef := by
    refine ⟨fun h hundef => ?_, udpOutput_ends⟩
    rw [OutputExact, hundef] at h
    cases h
  rw [hdefined]
  by_cases hd : d.length + 8 ≤ 65535
  swap
  · rw [udpOutput, udpOutput.segment_eq_unsummed,
      udpOutput.unsummed_undefined src dest (Nat.lt_of_not_le hd)]
    refine ⟨fun h => absurd rfl h, ?_⟩
    rintro ⟨-, ⟨hle, -⟩ | ⟨hle, -⟩⟩ <;> omega
  rw [udpOutput_run hd]
  by_cases hev : d.length % 2 = 0
  swap
  · rw [if_neg hev]
    exact ⟨fun h => absurd rfl h, fun h => absurd h.1 hev⟩
  rw [if_pos hev, ipv4Output_defined_iff, UdpData.length_udpSegment]
  refine ⟨?_, ?_⟩
  · rintro (hrefuses | ⟨haccepts, hfits⟩)
    · exact ⟨hev, Or.inr ⟨by omega, hrefuses⟩⟩
    · exact ⟨hev, Or.inl ⟨by omega, haccepts⟩⟩
  · rintro ⟨-, ⟨hfits, haccepts⟩ | ⟨-, hrefuses⟩⟩
    · exact Or.inr ⟨haccepts, by omega⟩
    · exact Or.inl hrefuses

/-- 65508 bytes from 192.0.2.2:5555 to 192.0.2.1:40000: the total length wraps to 0, the packet is
resized to nothing, and the segment is copied behind it. -/
theorem not_forall_outputExact :
    ¬ ∀ (cfg : Config) (src dest : IpEndpoint) (d : Bytes) (s : Stack),
      OutputExact cfg src dest d s := by
  intro h
  have hlen : (List.replicate 65508 (0 : UInt8)).length = 65508 := List.length_replicate
  have hexact : EndsWith _ _ _ _ := h exampleConfig ⟨0xC0000202, 5555⟩ ⟨0xC0000201, 40000⟩
    (List.replicate 65508 0) Stack.init
  rw [udpOutput_run (by rw [hlen]; decide), if_pos (by rw [hlen])] at hexact
  obtain (⟨hany, -⟩ | ⟨route, hroute, -, hother⟩) | ⟨-, hfits⟩ :=
    ipv4Output_defined_iff.mp fun hundef => by
      rw [hundef] at hexact
      cases hexact
  · exact absurd hany (by decide)
  · cases hroute
    exact hother rfl
  · rw [UdpData.length_udpSegment, hlen] at hfits
    omega

end Suika
