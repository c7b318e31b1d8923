import Suika.Ipv4

/-!
# Which IPv4 packets are delivered

`Ipv4ProtocolHandler::handle` for every body of at least 20 bytes
(`Ipv4ProtocolHandler.handle_run`): the header is summed over as many bytes as its length field says
and the body has, the payload is taken by the two length fields, and only then the addresses are
compared.

* A packet whose lengths fit together is delivered exactly (`ipv4Delivered`).
* Nothing looks at the version, at a header length below five words or at the fragment fields, and
  nothing compares the total length with the body (`ipv4Guarded_iff`).
-/

namespace Suika

open Cpp BinaryPayload OnesComplement Ipv4Data

/-! ## Every body with a fixed header -/

namespace Ipv4Data

variable {data : Bytes}

/-- A header that claims more than the body has is summed up to the end of the body; an odd body is
left by the last read. -/
theorem verifyHeader_short (h20 : 20 ≤ data.length) (h : data.length < headerBytes data) :
    verifyHeader data =
      if data.length % 2 = 1 then Eval.undefined else .ok (decide (HeaderVerifies data)) := by
  have hle := headerBytes_le data
  have hcount : ((headerBytes data : ℤ) - ((0 : ℕ) : ℤ)).toNat = headerBytes data := by omega
  have hend : calculateChecksum data 0 (headerBytes data) =
      calculateChecksum data 0 (intOfSize data.length) := by
    have hwhole : (intOfSize data.length - ((0 : ℕ) : ℤ)).toNat = data.length := by
      rw [intOfSize_eq (by omega)]
      omega
    rw [calculateChecksum, calculateChecksum, hcount, hwhole, List.drop_zero,
      calculateChecksum.loop_end (by omega)]
  rw [verifyHeader, headerLength_eq (by omega), Eval.ok_bind]
  change (calculateChecksum data 0 (headerBytes data) >>= _ : Eval Err Bool) = _
  rw [hend]
  split
  · rename_i hodd
    rw [calculateChecksum_odd hodd (by omega)]
    rfl
  · rw [calculateChecksum_all (by omega) (by omega), Eval.ok_bind]
    refine congrArg Except.ok ?_
    rw [beq_eq_decide, decide_eq_decide, HeaderVerifies, List.take_of_length_le (by omega),
      ← UInt16.toNat_inj, toNat_ofNat_fold16]
    rfl

end Ipv4Data

namespace Ipv4ProtocolHandler

/-- The last part of `handle`: the address of the interface, the table of handlers, the call. -/
def dispatch (cfg : Config) (protocolHandlers : Ipv4ProtocolHandlers) (body : Bytes) : Call ℤ := do
  match ← Device.getTargetInterface cfg interfaceFamilyIp with
  | .ip interface =>
    if interface.unicast ≠ u32 body 16 then throwRuntime "ip not match error"
    else
      match protocolHandlers (u8 body 9) with
      | none => return 0
      | some handler =>
        let _ ← handler ⟨u8 body 9, payloadBytes body, u32 body 12, u32 body 16, interface⟩
        return 0
  | .other _ => throwRuntime "cast error"

/-- **Every body** with room for the fixed header. -/
theorem handle_run (cfg : Config) (protocolHandlers : Ipv4ProtocolHandlers) {pd : ProtocolData}
    (h20 : 20 ≤ pd.data.length) (s : Stack) :
    (handle cfg protocolHandlers pd).run s =
      if pd.data.length < headerBytes pd.data ∧ pd.data.length % 2 = 1 then .undef
      else if ¬ HeaderVerifies pd.data then .threw s (.runtimeError "invalid header")
      else if (u16 pd.data 2).toNat < headerBytes pd.data then .threw s .lengthError
      else if pd.data.length < (u16 pd.data 2).toNat then .undef
      else (dispatch cfg protocolHandlers pd.data).run s := by
  have hsrc : src pd.data = .ok (u32 pd.data 12) := readUint32_eq (by omega)
  have hdst : dst pd.data = .ok (u32 pd.data 16) := readUint32_eq (by omega)
  have hprotocol : protocol pd.data = .ok (u8 pd.data 9) := readUint8_eq (by omega)
  rw [handle, hsrc, Comp.lift_ok_bind, hdst, Comp.lift_ok_bind, hprotocol, Comp.lift_ok_bind,
    headerLength_eq (by omega), Comp.lift_ok_bind, info_eq h20, Comp.lift_ok_bind]
  have hverify : verifyHeader pd.data =
      if pd.data.length < headerBytes pd.data ∧ pd.data.length % 2 = 1 then Eval.undefined
      else .ok (decide (HeaderVerifies pd.data)) := by
    by_cases hshort : pd.data.length < headerBytes pd.data
    · rw [verifyHeader_short h20 hshort]
      simp only [hshort, true_and]
    · rw [verifyHeader_eq (by omega) (by omega), if_neg (by omega)]
  rw [hverify]
  split
  · rfl
  rw [Comp.lift_ok_bind]
  by_cases hv : HeaderVerifies pd.data
  · rw [if_neg (not_not.mpr hv), if_neg (by simpa using hv), Comp.lift_ok_bind, payload_run h20]
    split
    · rfl
    split
    · rfl
    rw [Comp.lift_ok_bind]
    rfl
  · rw [if_pos hv, if_pos (by simpa using hv)]
    rfl

end Ipv4ProtocolHandler

/-! ## Well-formed packets -/

/-- The header words, with every carry added back, add up to the all-ones word. -/
def Ipv4Data.HeaderValid (data : Bytes) : Prop :=
  foldAll (wordSum (data.take (headerBytes data))) = 65535

/-- A header is at most 30 words, so that one fold recognises the valid ones. -/
theorem Ipv4Data.headerVerifies_iff (data : Bytes) : HeaderVerifies data ↔ HeaderValid data := by
  have hle := headerBytes_le data
  have hlen := List.length_take_le (headerBytes data) data
  have hsum := wordSum_le (data.take (headerBytes data))
  exact fold16_eq_max_iff (by omega)

/-- What happens to a packet that arrives at `interface`. A call that passes the packet on is the
call of its handler, whatever the handlers are. -/
structure Ipv4Delivered (cfg : Config) (interface : IpNetworkInterface) (pd : ProtocolData) :
    Prop where
  delivers : HeaderValid pd.data → u32 pd.data 16 = interface.unicast →
    ∀ (protocolHandlers : Ipv4ProtocolHandlers) (handler : Ipv4ProtocolData → Call ℤ),
      protocolHandlers (u8 pd.data 9) = some handler → ∀ s,
        (Ipv4ProtocolHandler.handle cfg protocolHandlers pd).run s =
          (handler ⟨u8 pd.data 9, (pd.data.take (u16 pd.data 2).toNat).drop (headerBytes pd.data),
            u32 pd.data 12, u32 pd.data 16, interface⟩ >>= fun _ => pure 0 : Call ℤ).run s
  refuses : ¬ HeaderValid pd.data ∨ u32 pd.data 16 ≠ interface.unicast →
    ∃ e, ∀ (protocolHandlers : Ipv4ProtocolHandlers) (s : Stack),
      (Ipv4ProtocolHandler.handle cfg protocolHandlers pd).run s = .threw s e

/-- **A whole packet is delivered exactly**: options skipped, padding dropped, to the handler of its
protocol; and to nobody when its checksum or its address is wrong. -/
theorem ipv4Delivered (cfg : Config) {interface : IpNetworkInterface} {pd : ProtocolData}
    (hi : Device.getTargetInterface cfg interfaceFamilyIp = .ok (.ip interface))
    (hc : Complete pd.data) : Ipv4Delivered cfg interface pd := by
  have htotal := hc.total
  have hbody := hc.body
  -- the lengths fit, so that only checksum and address are left to decide
  have hrun : ∀ (protocolHandlers : Ipv4ProtocolHandlers) (s : Stack),
      (Ipv4ProtocolHandler.handle cfg protocolHandlers pd).run s =
        if ¬ HeaderVerifies pd.data then .threw s (.runtimeError "invalid header")
        else (Ipv4ProtocolHandler.dispatch cfg protocolHandlers pd.data).run s := by
    intro protocolHandlers s
    rw [Ipv4ProtocolHandler.handle_run cfg protocolHandlers hc.le_length, if_neg (by omega)]
    split
    · rfl
    · rw [if_neg (by omega), if_neg (by omega)]
  refine ⟨?_, ?_⟩
  · intro hv hdst protocolHandlers handler hhandler s
    rw [hrun, if_neg (not_not.mpr ((headerVerifies_iff pd.data).mpr hv)),
      Ipv4ProtocolHandler.dispatch, hi, Comp.lift_ok_bind]
    dsimp only
    rw [if_neg (not_not.mpr hdst.symm), hhandler]
    rfl
  · intro hrefused
    by_cases hv : HeaderVerifies pd.data
    · have hdst := hrefused.resolve_left (not_not.mpr ((headerVerifies_iff pd.data).mp hv))
      refine ⟨.runtimeError "ip not match error", fun protocolHandlers s => ?_⟩
      rw [hrun, if_neg (not_not.mpr hv), Ipv4ProtocolHandler.dispatch, hi, Comp.lift_ok_bind]
      dsimp only
      rw [if_pos (Ne.symm hdst)]
      rfl
    · refine ⟨.runtimeError "invalid header", fun protocolHandlers s => ?_⟩
      rw [hrun, if_pos hv]

/-- A header without payload, from 192.0.2.1 to 192.0.2.2. -/
theorem ipv4Delivered_empty :
    Ipv4Delivered exampleConfig ⟨interfaceFamilyIp, 0xC0000202⟩
      ⟨ipType, ipv4Header 20 0 17 0x37d5 0xC0000201 0xC0000202⟩ :=
  ipv4Delivered exampleConfig rfl ⟨by decide, by decide, by decide⟩

/-! ## Malformed packets -/

/-- A packet the stack could pass on: version 4, a header of at least five words, a total length
between header and body, not a fragment. -/
structure Ipv4Data.WellFormed (data : Bytes) : Prop where
  version : (u8 data 0 &&& 0xF0) >>> 4 = ipVersionIpv4
  complete : Complete data
  moreFragments : u16 data 6 &&& 0x2000 = 0
  fragmentOffset : u16 data 6 &&& 0x1FFF = 0

/-- No handler is invoked (what the registered handlers do makes no difference), and the call
returns or throws. -/
structure Ipv4Rejects (cfg : Config) (protocolHandlers : Ipv4ProtocolHandlers) (pd : ProtocolData) :
    Prop where
  silent : ∀ others : Ipv4ProtocolHandlers,
    (∀ protocol, (others protocol).isSome = (protocolHandlers protocol).isSome) → ∀ s,
      (Ipv4ProtocolHandler.handle cfg others pd).run s =
        (Ipv4ProtocolHandler.handle cfg protocolHandlers pd).run s
  ends : ∀ s, ∃ t, ((Ipv4ProtocolHandler.handle cfg protocolHandlers pd).run s).next? = some t

/-- Whatever is malformed is rejected. -/
def Ipv4Guarded (cfg : Config) (protocolHandlers : Ipv4ProtocolHandlers) (pd : ProtocolData) :
    Prop :=
  ¬ WellFormed pd.data → Ipv4Rejects cfg protocolHandlers pd

namespace Ipv4ProtocolHandler

/-- The packet is for this host, and its protocol has a handler. -/
def Addressed (cfg : Config) (protocolHandlers : Ipv4ProtocolHandlers) (body : Bytes) : Prop :=
  ∃ interface, Device.getTargetInterface cfg interfaceFamilyIp = .ok (.ip interface) ∧
    interface.unicast = u32 body 16 ∧ (protocolHandlers (u8 body 9)).isSome

variable {cfg : Config} {protocolHandlers others : Ipv4ProtocolHandlers} {body : Bytes}

/-- Without such a handler, `dispatch` depends on no handler. -/
theorem dispatch_silent (h : ¬ Addressed cfg protocolHandlers body)
    (hkeys : ∀ protocol, (others protocol).isSome = (protocolHandlers protocol).isSome)
    (s : Stack) :
    (dispatch cfg others body).run s = (dispatch cfg protocolHandlers body).run s ∧
      ∃ t, ((dispatch cfg protocolHandlers body).run s).next? = some t := by
  rw [dispatch, dispatch]
  rcases hi : Device.getTargetInterface cfg interfaceFamilyIp with (_ | e) | (interface | family)
  · rw [Device.getTargetInterface] at hi
    split at hi <;> cases hi
  · exact ⟨rfl, s, rfl⟩
  · rw [Comp.lift_ok_bind, Comp.lift_ok_bind]
    dsimp only
    by_cases hdst : interface.unicast = u32 body 16
    · have hnone : protocolHandlers (u8 body 9) = none := by
        by_contra hsome
        exact h ⟨interface, hi, hdst, Option.isSome_iff_ne_none.mpr hsome⟩
      have hothers : others (u8 body 9) = none := by
        rw [← Option.isNone_iff_eq_none, ← Option.not_isSome, hkeys, hnone]
        rfl
      rw [if_neg (not_not.mpr hdst), if_neg (not_not.mpr hdst), hnone, hothers]
      exact ⟨rfl, s, rfl⟩
    · rw [if_pos hdst, if_pos hdst]
      exact ⟨rfl, s, rfl⟩
  · exact ⟨rfl, s, rfl⟩

/-- With one, a handler that throws makes `dispatch` throw the same. -/
theorem dispatch_addressed (h : Addressed cfg protocolHandlers body) (e : Err) (s : Stack) :
    (dispatch cfg (fun protocol => (protocolHandlers protocol).map fun _ _ => Comp.throw e)
      body).run s = .threw s e := by
  obtain ⟨interface, hi, hdst, hsome⟩ := h
  obtain ⟨handler, hhandler⟩ := Option.isSome_iff_exists.mp hsome
  rw [dispatch, hi, Comp.lift_ok_bind]
  dsimp only
  rw [if_neg (not_not.mpr hdst), hhandler]
  rfl

end Ipv4ProtocolHandler

/-- Whoever rejects a packet whose lengths fit has nobody to pass it to: two tables that throw
differently would make a difference. -/
theorem Ipv4Rejects.not_addressed {cfg : Config} {protocolHandlers : Ipv4ProtocolHandlers}
    {pd : ProtocolData} (h : Ipv4Rejects cfg protocolHandlers pd) (h20 : 20 ≤ pd.data.length)
    (hv : HeaderVerifies pd.data) (htotal : headerBytes pd.data ≤ (u16 pd.data 2).toNat)
    (hbody : (u16 pd.data 2).toNat ≤ pd.data.length) :
    ¬ Ipv4ProtocolHandler.Addressed cfg protocolHandlers pd.data := by
  intro haddr
  have hthrows : ∀ e : Err, (Ipv4ProtocolHandler.handle cfg protocolHandlers pd).run Stack.init =
      .threw Stack.init e := by
    intro e
    rw [← h.silent (fun protocol => (protocolHandlers protocol).map fun _ _ => Comp.throw e)
      (fun protocol => Option.isSome_map), Ipv4ProtocolHandler.handle_run _ _ h20,
      if_neg (by omega), if_neg (not_not.mpr hv), if_neg (by omega), if_neg (by omega)]
    exact Ipv4ProtocolHandler.dispatch_addressed haddr e Stack.init
  have hclash := (hthrows .outOfRange).symm.trans (hthrows .lengthError)
  cases hclash

theorem Ipv4Rejects.of_threw {cfg : Config} {protocolHandlers : Ipv4ProtocolHandlers}
    {pd : ProtocolData} (e : Err) (h : ∀ (table : Ipv4ProtocolHandlers) (s : Stack),
      (Ipv4ProtocolHandler.handle cfg table pd).run s = .threw s e) :
    Ipv4Rejects cfg protocolHandlers pd := by
  refine ⟨fun others _ s => ?_, fun s => ⟨s, ?_⟩⟩
  · rw [h, h]
  · rw [h]
    rfl

/-- A packet that gets as far as the table is rejected if the table has nothing for it. -/
theorem Ipv4Rejects.of_dispatch {cfg : Config} {protocolHandlers : Ipv4ProtocolHandlers}
    {pd : ProtocolData} (h : ∀ (table : Ipv4ProtocolHandlers) (s : Stack),
      (Ipv4ProtocolHandler.handle cfg table pd).run s =
        (Ipv4ProtocolHandler.dispatch cfg table pd.data).run s)
    (haddr : ¬ Ipv4ProtocolHandler.Addressed cfg protocolHandlers pd.data) :
    Ipv4Rejects cfg protocolHandlers pd := by
  refine ⟨fun others hkeys s => ?_, fun s => ?_⟩
  · rw [h, h]
    exact (Ipv4ProtocolHandler.dispatch_silent haddr hkeys s).1
  · rw [h]
    exact (Ipv4ProtocolHandler.dispatch_silent haddr (fun _ => rfl) s).2

/-- The packets that are rejected, malformed or not. -/
theorem ipv4Rejects_iff (cfg : Config) (protocolHandlers : Ipv4ProtocolHandlers)
    (pd : ProtocolData) (h20 : 20 ≤ pd.data.length) :
    Ipv4Rejects cfg protocolHandlers pd ↔
      ¬ (pd.data.length < headerBytes pd.data ∧ pd.data.length % 2 = 1) ∧
        (¬ HeaderVerifies pd.data ∨ (u16 pd.data 2).toNat < headerBytes pd.data ∨
          (u16 pd.data 2).toNat ≤ pd.data.length ∧
            ¬ Ipv4ProtocolHandler.Addressed cfg protocolHandlers pd.data) := by
  have hrun := fun table => Ipv4ProtocolHandler.handle_run cfg table h20
  refine ⟨?_, ?_⟩
  · intro hrejects
    obtain ⟨t, hend⟩ := hrejects.ends Stack.init
    rw [hrun] at hend
    split at hend
    · cases hend
    rename_i hodd
    refine ⟨hodd, ?_⟩
    by_cases hv : HeaderVerifies pd.data
    · rw [if_neg (not_not.mpr hv)] at hend
      split at hend
      · rename_i htotal
        exact Or.inr (Or.inl htotal)
      split at hend
      · cases hend
      rename_i htotal hbody
      exact Or.inr (Or.inr ⟨by omega, hrejects.not_addressed h20 hv (by omega) (by omega)⟩)
    · exact Or.inl hv
  · rintro ⟨hodd, hreject⟩
    by_cases hv : HeaderVerifies pd.data
    · by_cases htotal : (u16 pd.data 2).toNat < headerBytes pd.data
      · refine .of_threw .lengthError fun table s => ?_
        rw [hrun, if_neg hodd, if_neg (not_not.mpr hv), if_pos htotal]
      · obtain ⟨hbody, haddr⟩ := (hreject.resolve_left (not_not.mpr hv)).resolve_left htotal
        refine .of_dispatch (fun table s => ?_) haddr
        rw [hrun, if_neg hodd, if_neg (not_not.mpr hv), if_neg htotal, if_neg (by omega)]
    · refine .of_threw (.runtimeError "invalid header") fun table s => ?_
      rw [hrun, if_neg hodd, if_pos hv]

/-- **What is missing**: version, fragments and a short header go through, if the checksum fits and
the lengths can be taken; a total length beyond the body, and a header beyond an odd body, are not
even rejected. -/
theorem ipv4Guarded_iff (cfg : Config) (protocolHandlers : Ipv4ProtocolHandlers)
    (pd : ProtocolData) (h20 : 20 ≤ pd.data.length) :
    Ipv4Guarded cfg protocolHandlers pd ↔
      WellFormed pd.data ∨
        ¬ (pd.data.length < headerBytes pd.data ∧ pd.data.length % 2 = 1) ∧
          (¬ HeaderVerifies pd.data ∨ (u16 pd.data 2).toNat < headerBytes pd.data ∨
            (u16 pd.data 2).toNat ≤ pd.data.length ∧
              ¬ Ipv4ProtocolHandler.Addressed cfg protocolHandlers pd.data) := by
  rw [Ipv4Guarded, ipv4Rejects_iff cfg protocolHandlers pd h20]
  exact or_iff_not_imp_left.symm

/-- A first fragment for 192.0.2.2, with a valid checksum. -/
def fragment : Bytes :=
  [0x45, 0, 0, 20, 0, 0, 0x20, 0, 0xff, 17, 0x17, 0xd5, 0xc0, 0, 2, 1, 0xc0, 0, 2, 2]

/-- A table with one handler, for UDP. -/
def udpOnly : Ipv4ProtocolHandlers := fun protocol =>
  if protocol = udpType then some fun _ => pure 0 else none

theorem ipv4Guarded_fragment : Ipv4Guarded exampleConfig (fun _ => none) ⟨ipType, fragment⟩ :=
  (ipv4Guarded_iff exampleConfig (fun _ => none) ⟨ipType, fragment⟩ (by decide)).mpr
    (Or.inr ⟨by decide, Or.inr (Or.inr ⟨by decide, fun ⟨_, _, _, hsome⟩ => nomatch hsome⟩)⟩)

/-- The fragment is passed to the handler. -/
theorem not_forall_ipv4Guarded :
    ¬ ∀ (cfg : Config) (protocolHandlers : Ipv4ProtocolHandlers) (pd : ProtocolData),
      20 ≤ pd.data.length → Ipv4Guarded cfg protocolHandlers pd := by
  intro h
  have hfragment : ¬ WellFormed fragment := fun hwf => absurd hwf.moreFragments (by decide)
  have hrejects := h exampleConfig udpOnly ⟨ipType, fragment⟩ (by decide) hfragment
  exact hrejects.not_addressed (by decide) (by decide) (by decide) (by decide)
    ⟨⟨interfaceFamilyIp, 0xC0000202⟩, rfl, by decide, rfl⟩

end Suika
