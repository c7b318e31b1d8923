import Suika.Lib.Runs
import Suika.HeaderBounds

/-!
# What the ARP handler accepts and learns

`ArpProtocolHandler.handle_cases` says all a call of the handler can do: it leaves defined
behaviour, it throws and nothing has changed, or the body is a packet and the handler learned from
it. From there:

* which packets are accepted: all that should be, and those of other hardware types too, because
  one test is written twice where two were meant (`arpConforms_iff`);
* the cache over whole runs: its entries can be used as Ethernet addresses and no two are for one
  protocol address (`arpRun_usable`), and the first binding of an address is the one that stays
  (`arpRun_first`).
-/

namespace Suika

open Cpp BinaryPayload ArpData

/-- Long enough for its own length bytes: the header and the four addresses it announces. -/
def ArpComplete (data : Bytes) : Prop :=
  8 + 2 * (u8 data 4).toNat + 2 * (u8 data 5).toNat ≤ data.length

instance (data : Bytes) : Decidable (ArpComplete data) :=
  inferInstanceAs (Decidable (_ ≤ _))

theorem ArpComplete.fits {data : Bytes} (h : ArpComplete data) : ArpFits data := by
  unfold ArpComplete at h
  refine ⟨by omega, by omega, ?_⟩
  rintro ⟨hhal, hpal⟩
  omega

namespace ArpData

/-- The log lines are printed only when all four addresses were read. -/
theorem length_of_arpDump {data : Bytes} (h : arpDump data = .ok ()) : 28 ≤ data.length := by
  obtain ⟨hhal, hpal⟩ := arpDump_eq_ok h
  rw [← arpDumpIn_leftToRight] at h
  have h8 : 8 ≤ data.length := by
    by_contra hlt
    rw [arpDumpIn_short _ (by omega)] at h
    cases h
  rw [arpDumpIn_eq _ h8] at h
  obtain ⟨-, -, h⟩ := Eval.bind_eq_ok h
  obtain ⟨tha, -, h⟩ := Eval.bind_eq_ok h
  obtain ⟨mac, -, h⟩ := Eval.bind_eq_ok h
  -- the last address is the one that ends at byte 28
  obtain ⟨tpa, htpa, -⟩ := Eval.bind_eq_ok h
  rw [targetProtocolAddress, hhal, Eval.ok_bind, hpal, Eval.ok_bind] at htpa
  by_contra hlt
  rw [getAddress_undefined (by decide) (by simp [arpHeaderSize]; omega)] at htpa
  cases htpa

/-- What gets past the log lines is a packet and padding. -/
theorem exists_encode_of_arpDump {data : Bytes} (h : arpDump data = .ok ()) :
    ∃ (p : ArpPacket) (pad : Bytes), data = p.encode ++ pad := by
  have h28 := length_of_arpDump h
  obtain ⟨hhal, hpal⟩ := arpDump_eq_ok h
  rw [hardwareAddressLength, readUint8_eq (by omega)] at hhal
  rw [protocolAddressLength, readUint8_eq (by omega)] at hpal
  obtain ⟨p, pad, hdata, -⟩ := exists_encode h28 (Except.ok.inj hhal) (Except.ok.inj hpal)
  exact ⟨p, pad, hdata⟩

end ArpData

/-! ## One call -/

/-! ### What is thrown

`EtherDevice::transmit` throws the text `error` at a destination that is not 6 bytes long. No other
throw on the way has this text. -/

namespace ArpData

theorem getAddress_quiet (data : Bytes) (len offset : ℕ) : (getAddress data len offset).Quiet := by
  induction len generalizing offset with
  | zero => exact Eval.Quiet.ok _
  | succ len ih =>
    exact (byteAt_quiet data offset).bind fun b => (ih (offset + 1)).bind fun _ => Eval.Quiet.ok _

theorem macAddressToString_error {addr : Bytes} {e : Err}
    (h : macAddressToString addr = Eval.throwing e) : e ≠ .runtimeError "error" := by
  unfold macAddressToString at h
  split at h
  · cases h
  · cases h
    decide

theorem ipV4ToString_error {addr : Bytes} {e : Err} (h : ipV4ToString addr = Eval.throwing e) :
    e ≠ .runtimeError "error" := by
  unfold ipV4ToString at h
  split at h
  · cases h
  · cases h
    intro heq
    have hhead := congrArg (fun what => what.toList.head?) (Err.runtimeError.inj heq)
    simp [toString] at hhead

theorem arpDump_error {data : Bytes} {e : Err} (h : arpDump data = Eval.throwing e) :
    e ≠ .runtimeError "error" := by
  have h8 : (hardwareAddressLength data).Quiet := readUint8_quiet data 4
  have h5 : (protocolAddressLength data).Quiet := readUint8_quiet data 5
  -- only the four formatters throw
  obtain ⟨ht, -, h⟩ := (readUint16_quiet data 0).of_bind_eq_throwing h
  obtain ⟨pt, -, h⟩ := (readUint16_quiet data 2).of_bind_eq_throwing h
  obtain ⟨hal, -, h⟩ := h8.of_bind_eq_throwing h
  obtain ⟨pal, -, h⟩ := h5.of_bind_eq_throwing h
  obtain ⟨op, -, h⟩ := (readUint16_quiet data 6).of_bind_eq_throwing h
  obtain ⟨sha, -, h⟩ := (h8.bind fun _ => getAddress_quiet data _ _).of_bind_eq_throwing h
  rcases Eval.bind_eq_throwing h with h | ⟨smac, -, h⟩
  · exact macAddressToString_error h
  obtain ⟨spa, -, h⟩ :=
    (h8.bind fun _ => h5.bind fun _ => getAddress_quiet data _ _).of_bind_eq_throwing h
  rcases Eval.bind_eq_throwing h with h | ⟨sip, -, h⟩
  · exact ipV4ToString_error h
  obtain ⟨tha, -, h⟩ :=
    (h8.bind fun _ => h5.bind fun _ => getAddress_quiet data _ _).of_bind_eq_throwing h
  rcases Eval.bind_eq_throwing h with h | ⟨tmac, -, h⟩
  · exact macAddressToString_error h
  obtain ⟨tpa, -, h⟩ :=
    (h8.bind fun _ => h5.bind fun _ => getAddress_quiet data _ _).of_bind_eq_throwing h
  rcases Eval.bind_eq_throwing h with h | ⟨tip, -, h⟩
  · exact ipV4ToString_error h
  · cases h

end ArpData

namespace ArpProtocolHandler

/-- **All a call can do**, on any device: leave defined behaviour, throw from the state it started
in (and never because of the length of a destination), or take the body for a packet that is meant
for an interface of the device. -/
theorem handle_cases (cfg : Config) (pd : ProtocolData) (s : Stack) :
    (handle cfg pd).run s = .undef ∨
      (∃ e, e ≠ .runtimeError "error" ∧ (handle cfg pd).run s = .threw s e) ∨
      ∃ (interface : IpNetworkInterface) (p : ArpPacket) (pad : Bytes),
        Device.getTargetInterface cfg interfaceFamilyIp = .ok (.ip interface) ∧
        pd.data = p.encode ++ pad ∧
        (handle cfg pd).run s = .done (afterPacket cfg.address interface.unicast p s) 0 := by
  obtain ⟨type, data⟩ := pd
  rcases hdump : arpDump data with (_ | e) | _
  · refine Or.inl ?_
    rw [handle, hdump]
    rfl
  · refine Or.inr (Or.inl ⟨e, arpDump_error hdump, ?_⟩)
    rw [handle, hdump]
    rfl
  obtain ⟨p, pad, rfl⟩ := exists_encode_of_arpDump hdump
  rw [handle, arpDump_encode, Comp.lift_ok_bind, protocolAddressLength_encode, Comp.lift_ok_bind,
    protocolType_encode, Comp.lift_ok_bind]
  split
  · exact Or.inr (Or.inl ⟨_, by decide, rfl⟩)
  rcases hi : Device.getTargetInterface cfg interfaceFamilyIp with (_ | e) | (interface | family)
  · exact Or.inl rfl
  · refine Or.inr (Or.inl ⟨e, ?_, rfl⟩)
    unfold Device.getTargetInterface at hi
    split at hi
    · cases hi
    · cases hi
      decide
  · rw [Comp.lift_ok_bind]
    dsimp only
    rw [handleOn_packet]
    by_cases htarget : p.targetProtocol = interface.unicast
    · rw [if_pos htarget]
      exact Or.inr (Or.inr ⟨interface, p, pad, rfl, rfl, rfl⟩)
    · rw [if_neg htarget]
      exact Or.inr (Or.inl ⟨_, by decide, rfl⟩)
  · exact Or.inr (Or.inl ⟨_, by decide, rfl⟩)

/-- A call that returned took the body for a packet. -/
theorem handle_eq_done {cfg : Config} {pd : ProtocolData} {s t : Stack} {v : ℤ}
    (h : (handle cfg pd).run s = .done t v) :
    ∃ (interface : IpNetworkInterface) (p : ArpPacket) (pad : Bytes),
      Device.getTargetInterface cfg interfaceFamilyIp = .ok (.ip interface) ∧
        pd.data = p.encode ++ pad ∧ t = afterPacket cfg.address interface.unicast p s := by
  rcases handle_cases cfg pd s with hu | ⟨e, -, he⟩ | ⟨interface, p, pad, hi, hdata, hd⟩
  · rw [hu] at h
    cases h
  · rw [he] at h
    cases h
  · rw [hd] at h
    cases h
    exact ⟨interface, p, pad, hi, hdata, rfl⟩

/-- A call that threw has changed nothing, and did not get as far as a transmission. -/
theorem handle_eq_threw {cfg : Config} {pd : ProtocolData} {s t : Stack} {e : Err}
    (h : (handle cfg pd).run s = .threw t e) : t = s ∧ e ≠ .runtimeError "error" := by
  rcases handle_cases cfg pd s with hu | ⟨e', hne, he⟩ | ⟨interface, p, pad, -, -, hd⟩
  · rw [hu] at h
    cases h
  · rw [he] at h
    cases h
    exact ⟨rfl, hne⟩
  · rw [hd] at h
    cases h

/-- A body that is long enough for its own length bytes never leads outside. -/
theorem handle_next_of_complete {cfg : Config} {pd : ProtocolData} (h : ArpComplete pd.data)
    (s : Stack) : ∃ t, ((handle cfg pd).run s).next? = some t := by
  rcases handle_cases cfg pd s with hu | ⟨e, -, he⟩ | ⟨interface, p, pad, -, -, hd⟩
  · exact absurd hu (h.fits.handle_ne_undef s)
  · exact ⟨s, by rw [he]; rfl⟩
  · exact ⟨_, by rw [hd]; rfl⟩

/-- With the set-up of `main`, an accepted body is a packet and its effect is known. -/
theorem done_packet {address : EtherAddr} {unicast gateway : UInt32} {pd : ProtocolData}
    {s t : Stack} {v : ℤ}
    (h : (handle (Config.ofMain address unicast gateway) pd).run s = .done t v) :
    ∃ (p : ArpPacket) (pad : Bytes), pd.data = p.encode ++ pad ∧
      t = afterPacket address unicast p s := by
  obtain ⟨interface, p, pad, hi, hdata, ht⟩ := handle_eq_done h
  rw [Device.getTargetInterface_ofMain] at hi
  cases hi
  exact ⟨p, pad, hdata, ht⟩

/-- What the code accepts: nothing is said about the hardware type. -/
theorem handle_done_iff_of_complete {address : EtherAddr} {unicast gateway : UInt32}
    {pd : ProtocolData} {s : Stack} (h : ArpComplete pd.data) :
    (∃ t v, (handle (Config.ofMain address unicast gateway) pd).run s = .done t v) ↔
      u8 pd.data 4 = 6 ∧ u8 pd.data 5 = 4 ∧ u16 pd.data 2 = etherTypeIp ∧
        u32 pd.data 24 = unicast := by
  by_cases h28 : 28 ≤ pd.data.length
  · exact handle_done_iff h28
  · refine ⟨?_, ?_⟩
    · rintro ⟨t, v, hd⟩
      obtain ⟨p, pad, hdata, -⟩ := done_packet hd
      rw [hdata, List.length_append, p.length_encode] at h28
      omega
    · rintro ⟨hhal, hpal, -⟩
      rw [ArpComplete, hhal, hpal] at h
      exact absurd h h28

end ArpProtocolHandler

/-! ## What is accepted -/

/-- The body is a packet for Ethernet and IP, and for `unicast`. -/
structure ArpExpected (unicast : UInt32) (data : Bytes) : Prop where
  hardwareType : u16 data 0 = 1
  protocolType : u16 data 2 = etherTypeIp
  hardwareLength : u8 data 4 = 6
  protocolLength : u8 data 5 = 4
  target : u32 data 24 = unicast

/-- The handler accepts the body exactly if it should. Otherwise it throws, and nothing was learned
or sent; what it accepts is answered with one frame, to the hardware address of the sender, if it
is a request, and with none if not. -/
structure ArpConforms (address : EtherAddr) (unicast gateway : UInt32) (pd : ProtocolData)
    (s : Stack) : Prop where
  accepts : (∃ t v, (ArpProtocolHandler.handle (Config.ofMain address unicast gateway) pd).run s =
    .done t v) ↔ ArpExpected unicast pd.data
  rejects : ¬ ArpExpected unicast pd.data → ∃ t e,
    (ArpProtocolHandler.handle (Config.ofMain address unicast gateway) pd).run s = .threw t e ∧
      t.arpCache = s.arpCache ∧ t.sent = s.sent
  answers : ∀ t v,
    (ArpProtocolHandler.handle (Config.ofMain address unicast gateway) pd).run s = .done t v →
      ∃ (p : ArpPacket) (pad : Bytes), pd.data = p.encode ++ pad ∧
        t.sent = if u16 pd.data 6 = 1 then
            s.sent ++ [EtherDevice.frameBytes address (ArpPacket.reply address unicast p).encode
              p.senderHardware.val arpType]
          else s.sent

namespace ArpProtocolHandler

variable {address : EtherAddr} {unicast gateway : UInt32} {pd : ProtocolData} {s : Stack}

/-- What is not accepted has no effect, whatever the reason. -/
theorem threw_of_not_done (h : ArpComplete pd.data)
    (hnot : ¬ ∃ t v, (handle (Config.ofMain address unicast gateway) pd).run s = .done t v) :
    ∃ e, (handle (Config.ofMain address unicast gateway) pd).run s = .threw s e := by
  rcases handle_cases (Config.ofMain address unicast gateway) pd s with
    hu | ⟨e, -, he⟩ | ⟨interface, p, pad, -, -, hd⟩
  · exact absurd hu (h.fits.handle_ne_undef s)
  · exact ⟨e, he⟩
  · exact absurd ⟨_, _, hd⟩ hnot

/-- Whatever is accepted is answered as it should be. -/
theorem sent_of_done {t : Stack} {v : ℤ}
    (h : (handle (Config.ofMain address unicast gateway) pd).run s = .done t v) :
    ∃ (p : ArpPacket) (pad : Bytes), pd.data = p.encode ++ pad ∧
      t.sent = if u16 pd.data 6 = 1 then
          s.sent ++ [EtherDevice.frameBytes address (ArpPacket.reply address unicast p).encode
            p.senderHardware.val arpType]
        else s.sent := by
  obtain ⟨p, pad, hdata, rfl⟩ := done_packet h
  have h8 : 6 + 2 ≤ pd.data.length := by
    rw [hdata, List.length_append, p.length_encode]
    omega
  have hop : u16 pd.data 6 = p.operationCode := by
    have hread := operationCode_encode p pad
    rw [operationCode, ← hdata, readUint16_eq h8] at hread
    exact Except.ok.inj hread
  exact ⟨p, pad, hdata, by rw [hop]; rfl⟩

end ArpProtocolHandler

open ArpProtocolHandler in
/-- **ARP accepts what it should, except that it takes any hardware type**: the handler conforms for
exactly those bodies that say Ethernet, or fail one of the other tests. -/
theorem arpConforms_iff (address : EtherAddr) (unicast gateway : UInt32) (pd : ProtocolData)
    (s : Stack) (h : ArpComplete pd.data) :
    ArpConforms address unicast gateway pd s ↔
      u16 pd.data 0 = 1 ∨ ¬ (u16 pd.data 2 = etherTypeIp ∧ u8 pd.data 4 = 6 ∧
        u8 pd.data 5 = 4 ∧ u32 pd.data 24 = unicast) := by
  have hdone : (∃ t v, (handle (Config.ofMain address unicast gateway) pd).run s = .done t v) ↔ _ :=
    handle_done_iff_of_complete h
  refine ⟨?_, ?_⟩
  · intro hc
    refine or_iff_not_imp_right.mpr fun hrest => ?_
    obtain ⟨hpt, hhal, hpal, htarget⟩ := not_not.mp hrest
    exact (hc.accepts.mp (hdone.mpr ⟨hhal, hpal, hpt, htarget⟩)).hardwareType
  · intro hcond
    -- under the condition the missing test makes no difference
    have haccepts : (∃ t v, (handle (Config.ofMain address unicast gateway) pd).run s =
        .done t v) ↔ ArpExpected unicast pd.data := by
      rw [hdone]
      refine ⟨?_, fun he => ⟨he.hardwareLength, he.protocolLength, he.protocolType, he.target⟩⟩
      rintro ⟨hhal, hpal, hpt, htarget⟩
      rcases hcond with hht | hrest
      · exact ⟨hht, hpt, hhal, hpal, htarget⟩
      · exact absurd ⟨hpt, hhal, hpal, htarget⟩ hrest
    refine ⟨haccepts, ?_, fun t v hd => sent_of_done hd⟩
    intro hne
    obtain ⟨e, he⟩ := threw_of_not_done h fun hd => hne (haccepts.mp hd)
    exact ⟨s, e, he, rfl, rfl⟩

/-- A request of another host for the address of `exampleConfig`, with this hardware type. -/
def exampleArp (hardwareType : UInt16) : ArpPacket :=
  { ArpPacket.request peerAddress 0xC0000201 0xC0000202 with hardwareType := hardwareType }

/-- An Ethernet request: everything is as it should be. -/
theorem arpConforms_ethernet :
    ArpConforms exampleAddress 0xC0000202 0xC0000201 ⟨arpType, (exampleArp 1).encode⟩ Stack.init :=
  (arpConforms_iff exampleAddress 0xC0000202 0xC0000201 ⟨arpType, (exampleArp 1).encode⟩ Stack.init
    (by decide)).mpr (Or.inl (by decide))

/-- The same request with hardware type 6 is accepted too. -/
theorem not_forall_arpConforms :
    ¬ ∀ (address : EtherAddr) (unicast gateway : UInt32) (pd : ProtocolData) (s : Stack),
      ArpComplete pd.data → ArpConforms address unicast gateway pd s := by
  intro h
  have hc := h exampleAddress 0xC0000202 0xC0000201 ⟨arpType, (exampleArp 6).encode⟩ Stack.init
    (by decide)
  have hdone : ∃ t v, (ArpProtocolHandler.handle exampleConfig
      ⟨arpType, (exampleArp 6).encode⟩).run Stack.init = .done t v :=
    (ArpProtocolHandler.handle_done_iff_of_complete (by decide)).mpr (by decide)
  exact absurd (hc.accepts.mp hdone).hardwareType (by decide)

/-! ## Runs -/

/-- A body for the handler, or a call of `arpResolve`. -/
inductive ArpEvent : Type where
  | handle (pd : ProtocolData)
  | resolve (interface : IpNetworkInterface) (ip : UInt32)

/-- One step, whether the call returns or throws. A body too short for its own length bytes leaves
defined behaviour: there is no step. -/
def ArpEvent.Step (cfg : Config) (s : Stack) (ev : ArpEvent) (t : Stack) : Prop :=
  match ev with
  | .handle pd => ((ArpProtocolHandler.handle cfg pd).run s).next? = some t
  | .resolve interface ip => ((arpResolve cfg interface ip).run s).next? = some t

/-- In the step, the handler accepted a packet whose sender says that `ip` is at `mac`. -/
def ArpLearned (cfg : Config) (r : Runs.Record Stack ArpEvent) (ip : UInt32) (mac : Bytes) : Prop :=
  ∃ pd v, r.label = .handle pd ∧
    (ArpProtocolHandler.handle cfg pd).run r.pre = .done r.post v ∧
    senderProtocolAddress pd.data = .ok (be32 ip) ∧ senderHardwareAddress pd.data = .ok mac

/-- **All a step can do** to the cache: nothing, or `create` an entry for the sender of an accepted
packet. -/
theorem ArpEvent.Step.effect {cfg : Config} {s t : Stack} {ev : ArpEvent}
    (h : ArpEvent.Step cfg s ev t) :
    t.arpCache = s.arpCache ∨
      ∃ p : ArpPacket, ArpLearned cfg ⟨s, ev, t⟩ p.senderProtocol p.senderHardware.val ∧
        t.arpCache = ArpCache.create s.arpCache p.sender := by
  cases ev with
  | handle pd =>
    replace h : ((ArpProtocolHandler.handle cfg pd).run s).next? = some t := h
    rcases ArpProtocolHandler.handle_cases cfg pd s with
      hu | ⟨e, -, he⟩ | ⟨interface, p, pad, -, hdata, hd⟩
    · rw [hu] at h
      cases h
    · rw [he] at h
      cases h
      exact Or.inl rfl
    · rw [hd] at h
      cases h
      refine Or.inr ⟨p, ⟨pd, 0, rfl, hd, ?_, ?_⟩, rfl⟩
      · rw [hdata]
        exact senderProtocolAddress_encode p pad
      · rw [hdata]
        exact senderHardwareAddress_encode p pad
  | resolve interface ip =>
    replace h : ((arpResolve cfg interface ip).run s).next? = some t := h
    cases hsel : ArpCache.select s.arpCache ip with
    | some c =>
      rw [arpResolve_hit hsel] at h
      cases h
      exact Or.inl rfl
    | none =>
      rw [arpResolve_miss hsel] at h
      cases h
      exact Or.inl rfl

/-! ### The cache -/

namespace ArpCache

variable {cache : List CacheData} {c d : CacheData} {a : UInt32}

/-- No two entries are for one protocol address. -/
def Unique (cache : List CacheData) : Prop :=
  cache.Pairwise fun c d => c.protocolAddress ≠ d.protocolAddress

theorem select_eq_none :
    select cache a = none ↔ ∀ c ∈ cache, c.protocolAddress ≠ a := by
  simp [select]

/-- `create` looks before it adds. -/
theorem Unique.create (h : Unique cache) : Unique (ArpCache.create cache c) := by
  unfold ArpCache.create
  split
  · exact h
  · rename_i hnone
    refine List.pairwise_append.mpr ⟨h, List.pairwise_singleton _ _, ?_⟩
    intro d hd e he
    rw [List.mem_singleton.mp he]
    exact select_eq_none.mp hnone d hd

/-- The first entry for an address is found. -/
theorem select_create_of_none (h : select cache c.protocolAddress = none) :
    select (create cache c) c.protocolAddress = some c := by
  unfold create
  rw [h]
  rw [select] at h
  rw [select, List.find?_append, h]
  simp

/-- Other addresses are looked up as before. -/
theorem select_create_of_ne (h : c.protocolAddress ≠ a) :
    select (create cache c) a = select cache a := by
  unfold create
  split
  · rfl
  · simp [select, List.find?_append, h]

end ArpCache

/-- What holds of the cache in every state of a run. -/
structure ArpUsable (s : Stack) : Prop where
  ether : EtherCache s
  unique : ArpCache.Unique s.arpCache

theorem ArpEvent.Step.usable {cfg : Config} {s t : Stack} {ev : ArpEvent} (hs : ArpUsable s)
    (h : ArpEvent.Step cfg s ev t) : ArpUsable t := by
  rcases h.effect with hsame | ⟨p, -, hcreate⟩
  · refine ⟨?_, ?_⟩
    · rw [EtherCache, hsame]
      exact hs.ether
    · rw [hsame]
      exact hs.unique
  · refine ⟨?_, ?_⟩
    · rw [EtherCache, hcreate]
      intro c hc
      rcases ArpCache.mem_create hc with hc | rfl
      · exact hs.ether c hc
      · exact p.senderHardware.length_val
    · rw [hcreate]
      exact hs.unique.create

/-- What `arpResolve` returns is in the cache. -/
theorem length_of_arpResolve {cfg : Config} {interface : IpNetworkInterface} {ip : UInt32}
    {s t : Stack} {addr : Bytes} (hs : EtherCache s)
    (h : (arpResolve cfg interface ip).run s = .done t addr) : addr.length = 6 := by
  cases hsel : ArpCache.select s.arpCache ip with
  | some c =>
    rw [arpResolve_hit hsel] at h
    cases h
    exact hs c (ArpCache.select_eq_some hsel).1
  | none =>
    rw [arpResolve_miss hsel] at h
    cases h

/-! ### A peer that changes its address -/

/-- A reply of 192.0.2.1 to `exampleConfig`, from this hardware address. -/
def exampleReplyFrom (mac : EtherAddr) : ArpPacket :=
  ArpPacket.reply mac 0xC0000201 (ArpPacket.request exampleAddress 0xC0000202 0xC0000201)

/-- The hardware address 192.0.2.1 has later. -/
def newAddress : EtherAddr := ⟨[0x00, 0x00, 0x5e, 0x00, 0x53, 0x03], rfl⟩

/-- The state behind one or both of the replies. -/
def afterReply : Stack :=
  { Stack.init with arpCache := [⟨0xC0000201, peerAddress.val⟩] }

/-- Two replies, from the old and from the new address. -/
def changeTrace : List (Runs.Record Stack ArpEvent) :=
  [⟨Stack.init, .handle ⟨arpType, (exampleReplyFrom peerAddress).encode⟩, afterReply⟩,
    ⟨afterReply, .handle ⟨arpType, (exampleReplyFrom newAddress).encode⟩, afterReply⟩]

set_option maxRecDepth 10000 in
theorem changeTrace_run :
    Runs.Run (ArpEvent.Step exampleConfig) Stack.init changeTrace afterReply :=
  (Runs.Run.nil.snoc rfl).snoc rfl

/-! ### What holds in every run -/

/-- **The cache can be used**, in every state of every run from an empty cache, with any packets.
* Every entry holds an Ethernet address, and no two entries are for one protocol address.
* The length check of `transmit`, which throws the text `error`, lets through whatever `arpResolve`
  returns, with any data, and `transmit` returns where an `int` can index the data; the handler
  never throws that text.
* The handler ends in some state for every body that is long enough for its own length bytes. -/
theorem arpRun_usable {cfg : Config} {s t : Stack} {tr : List (Runs.Record Stack ArpEvent)}
    (hs : s.arpCache = []) (hrun : Runs.Run (ArpEvent.Step cfg) s tr t) :
    (∀ c ∈ t.arpCache, c.hardwareAddress.length = 6) ∧
    (t.arpCache.Pairwise fun c d => c.protocolAddress ≠ d.protocolAddress) ∧
    (∀ interface ip u addr, (arpResolve cfg interface ip).run t = .done u addr →
      ∀ data type v, (∀ w e, (EtherDevice.transmit cfg data addr type).run v ≠ .threw w e) ∧
        (data.length ≤ 2147483634 →
          ∃ w, (EtherDevice.transmit cfg data addr type).run v = .done w 0)) ∧
    (∀ pd u e, (ArpProtocolHandler.handle cfg pd).run t = .threw u e →
      e ≠ .runtimeError "error") ∧
    ∀ pd, ArpComplete pd.data → ∃ u, ((ArpProtocolHandler.handle cfg pd).run t).next? = some u := by
  have hinit : ArpUsable s := by
    refine ⟨?_, ?_⟩
    · rw [EtherCache, hs]
      exact fun c hc => absurd hc List.not_mem_nil
    · rw [hs]
      exact List.Pairwise.nil
  have ht : ArpUsable t := hrun.invariant (fun hI hl => hl.usable hI) hinit
  refine ⟨ht.ether, ht.unique, ?_, ?_, fun pd h => ArpProtocolHandler.handle_next_of_complete h t⟩
  · intro interface ip u addr h data type v
    have haddr := length_of_arpResolve ht.ether h
    exact ⟨fun w e => EtherDevice.transmit_ne_threw cfg data type v w e haddr,
      fun hfit => ⟨_, EtherDevice.transmit_eq cfg data type v haddr hfit⟩⟩
  · intro pd u e h
    exact (ArpProtocolHandler.handle_eq_threw h).2

/-- Behind the two replies, the entry can be sent to. -/
theorem arpRun_usable_change :
    ∃ w, (EtherDevice.transmit exampleConfig [0x45] peerAddress.val ipType).run afterReply =
      .done w 0 :=
  ((arpRun_usable rfl changeTrace_run).2.2.1 ⟨interfaceFamilyIp, 0xC0000202⟩ 0xC0000201 afterReply
    peerAddress.val rfl [0x45] ipType afterReply).2 (by decide)

/-! ### Which binding stays -/

/-- What is learned is what `create` gets. -/
theorem ArpLearned.create {cfg : Config} {r : Runs.Record Stack ArpEvent} {ip : UInt32}
    {mac : Bytes} (h : ArpLearned cfg r ip mac) :
    r.post.arpCache = ArpCache.create r.pre.arpCache ⟨ip, mac⟩ := by
  obtain ⟨pd, v, -, hdone, hip, hmac⟩ := h
  obtain ⟨interface, p, pad, -, hdata, hpost⟩ := ArpProtocolHandler.handle_eq_done hdone
  rw [hdata, senderProtocolAddress_encode] at hip
  rw [hdata, senderHardwareAddress_encode] at hmac
  obtain rfl := be32_injective (Except.ok.inj hip)
  obtain rfl := Except.ok.inj hmac
  rw [hpost]
  rfl

/-- What is found stays as it is. -/
theorem ArpEvent.Step.select_of_some {cfg : Config} {s t : Stack} {ev : ArpEvent} {ip : UInt32}
    {c : CacheData} (h : ArpEvent.Step cfg s ev t) (hc : ArpCache.select s.arpCache ip = some c) :
    ArpCache.select t.arpCache ip = some c := by
  rcases h.effect with hsame | ⟨p, -, hcreate⟩
  · rw [hsame, hc]
  · rw [hcreate, ArpCache.select_create_of_some hc]

/-- An address nobody speaks for is looked up as before. -/
theorem ArpEvent.Step.select_of_not_learned {cfg : Config} {s t : Stack} {ev : ArpEvent}
    {ip : UInt32} (h : ArpEvent.Step cfg s ev t)
    (hnot : ∀ mac, ¬ ArpLearned cfg ⟨s, ev, t⟩ ip mac) :
    ArpCache.select t.arpCache ip = ArpCache.select s.arpCache ip := by
  rcases h.effect with hsame | ⟨p, hlearned, hcreate⟩
  · rw [hsame]
  · have hne : p.sender.protocolAddress ≠ ip := by
      rintro rfl
      exact hnot _ hlearned
    rw [hcreate, ArpCache.select_create_of_ne hne]

theorem arpRun_select_of_not_learned {cfg : Config} {s t : Stack} {ip : UInt32}
    {tr : List (Runs.Record Stack ArpEvent)} (hrun : Runs.Run (ArpEvent.Step cfg) s tr t)
    (hnot : ∀ r ∈ tr, ∀ mac, ¬ ArpLearned cfg r ip mac) :
    ArpCache.select t.arpCache ip = ArpCache.select s.arpCache ip := by
  induction hrun with
  | nil => rfl
  | @snoc tr t u ev _ hl ih =>
    have hlast := hnot ⟨t, ev, u⟩ (List.mem_append_right _ (List.mem_singleton_self _))
    rw [hl.select_of_not_learned hlast, ih fun r hr => hnot r (List.mem_append_left _ hr)]

/-- **The first binding stays.** In every run that starts without an entry for `ip`, `arpResolve`
returns the hardware address of the first accepted packet whose sender is `ip`. -/
theorem arpRun_first {cfg : Config} {s t : Stack} {ip : UInt32} {mac : Bytes}
    {before after : List (Runs.Record Stack ArpEvent)} {r : Runs.Record Stack ArpEvent}
    (hs : ArpCache.select s.arpCache ip = none)
    (hrun : Runs.Run (ArpEvent.Step cfg) s (before ++ r :: after) t)
    (hlearned : ArpLearned cfg r ip mac)
    (hfirst : ∀ r' ∈ before, ∀ mac', ¬ ArpLearned cfg r' ip mac') (interface : IpNetworkInterface) :
    (arpResolve cfg interface ip).run t = .done t mac := by
  have hcut : before ++ r :: after = (before ++ [r]) ++ after := by
    rw [List.append_assoc, List.singleton_append]
  rw [hcut] at hrun
  obtain ⟨u, hfront, hback⟩ := hrun.of_append
  obtain ⟨hbefore, hstep, rfl⟩ := hfront.of_snoc
  have hnone : ArpCache.select r.pre.arpCache ip = none :=
    (arpRun_select_of_not_learned hbefore hfirst).trans hs
  have hfound : ArpCache.select r.post.arpCache ip = some ⟨ip, mac⟩ := by
    rw [hlearned.create]
    exact ArpCache.select_create_of_none hnone
  have hkept : ArpCache.select t.arpCache ip = some ⟨ip, mac⟩ :=
    hback.invariant (I := fun s => ArpCache.select s.arpCache ip = some ⟨ip, mac⟩)
      (fun hI hl => ArpEvent.Step.select_of_some hl hI) hfound
  exact arpResolve_hit hkept

/-- Behind the two replies, the first of them counts. -/
theorem arpRun_first_change :
    (arpResolve exampleConfig ⟨interfaceFamilyIp, 0xC0000202⟩ 0xC0000201).run afterReply =
      .done afterReply peerAddress.val :=
  @arpRun_first exampleConfig Stack.init afterReply 0xC0000201 peerAddress.val [] _ _ rfl
    changeTrace_run ⟨_, 0, rfl, rfl, rfl, rfl⟩ (fun _ h => absurd h List.not_mem_nil)
    ⟨interfaceFamilyIp, 0xC0000202⟩

/-- The second reply comes from another hardware address, and is not followed. -/
theorem not_forall_arpFollows :
    ¬ ∀ (cfg : Config) (s t : Stack) (ip : UInt32) (mac : Bytes)
      (before after : List (Runs.Record Stack ArpEvent)) (r : Runs.Record Stack ArpEvent),
      s.arpCache = [] → Runs.Run (ArpEvent.Step cfg) s (before ++ r :: after) t →
      ArpLearned cfg r ip mac → (∀ r' ∈ after, ∀ mac', ¬ ArpLearned cfg r' ip mac') →
      ∀ interface, (arpResolve cfg interface ip).run t = .done t mac := by
  intro h
  have hnew := h exampleConfig Stack.init afterReply 0xC0000201 newAddress.val
    [⟨Stack.init, .handle ⟨arpType, (exampleReplyFrom peerAddress).encode⟩, afterReply⟩] []
    ⟨afterReply, .handle ⟨arpType, (exampleReplyFrom newAddress).encode⟩, afterReply⟩ rfl
    changeTrace_run ⟨_, 0, rfl, rfl, rfl, rfl⟩ (fun _ h => absurd h List.not_mem_nil)
    ⟨interfaceFamilyIp, 0xC0000202⟩
  exact absurd (Outcome.done.inj hnew).2 (by decide)

end Suika
