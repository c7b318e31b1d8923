import Suika.Udp

/-!
# Reads of the fixed headers

Which bodies the parsers read inside their bounds. None of the four compares the size of the body
with its header first: the log lines read the fields before anything else does, and what rejects a
short body, where something does, is a formatter that was given an address of another length.

`HeaderInput` lists the parsers with what they are given, and `headerSafe_iff` the sizes they need.
An ARP body needs room for the addresses its own two length bytes announce, since both are read, in
whatever order the arguments of a `std::format` are evaluated, before either is formatted.
-/

namespace Suika

open Cpp BinaryPayload ArpData Ipv4Data

/-! ## ARP -/

/-- Which address of a log line with two of them is read and formatted first; the language leaves
that open. -/
structure FormatOrder : Type where
  senderHardwareFirst : Bool
  targetHardwareFirst : Bool

/-- The two addresses of a log line. -/
def formatAddresses (hardwareFirst : Bool) (hardware protocol : Eval Err Bytes) : Eval Err Unit :=
  if hardwareFirst then do
    let _ ← macAddressToString (← hardware)
    let _ ← ipV4ToString (← protocol)
  else do
    let _ ← ipV4ToString (← protocol)
    let _ ← macAddressToString (← hardware)

/-- `arpDump`, with its log lines evaluated in some order. -/
def arpDumpIn (order : FormatOrder) (arpData : Bytes) : Eval Err Unit := do
  let _ ← hardwareType arpData
  let _ ← protocolType arpData
  let _ ← hardwareAddressLength arpData
  let _ ← protocolAddressLength arpData
  let _ ← operationCode arpData
  formatAddresses order.senderHardwareFirst (senderHardwareAddress arpData)
    (senderProtocolAddress arpData)
  formatAddresses order.targetHardwareFirst (targetHardwareAddress arpData)
    (targetProtocolAddress arpData)

/-- From left to right, these are the log lines of the handler. -/
theorem arpDumpIn_leftToRight (arpData : Bytes) :
    arpDumpIn ⟨true, true⟩ arpData = arpDump arpData := by
  simp only [arpDumpIn, arpDump, formatAddresses, if_true, bind_assoc, pure_bind]

/-- A body with room for the header, for the addresses of the sender, and, if they have the lengths
that let the second log line be reached, for those of the target. -/
structure ArpFits (data : Bytes) : Prop where
  header : 8 ≤ data.length
  sender : 8 + (u8 data 4).toNat + (u8 data 5).toNat ≤ data.length
  target : (u8 data 4).toNat = 6 ∧ (u8 data 5).toNat = 4 → 28 ≤ data.length

namespace ArpData

variable {data : Bytes}

/-- An address inside the vector is read whole. -/
theorem getAddress_eq (data : Bytes) (len offset : ℕ) (h : offset + len ≤ data.length) :
    ∃ addr, getAddress data len offset = .ok addr ∧ addr.length = len := by
  induction len generalizing offset with
  | zero => exact ⟨[], rfl, rfl⟩
  | succ len ih =>
    obtain ⟨addr, haddr, hlen⟩ := ih (offset + 1) (by omega)
    refine ⟨u8 data offset :: addr, ?_, by rw [List.length_cons, hlen]⟩
    rw [getAddress, byteAt_eq (by omega), Eval.ok_bind, haddr]
    rfl

/-- Any other address, unless it is empty, leads outside. -/
theorem getAddress_undefined {len offset : ℕ} (h0 : 0 < len) (h : data.length < offset + len) :
    getAddress data len offset = Eval.undefined := by
  induction len generalizing offset with
  | zero => omega
  | succ len ih =>
    rw [getAddress]
    by_cases hat : offset < data.length
    · refine (byteAt_quiet data offset).bind_undefined fun _ => ?_
      rw [ih (by omega) (by omega)]
      rfl
    · rw [byteAt_undefined (by omega)]
      rfl

theorem senderHardwareAddress_eq (h8 : 8 ≤ data.length) :
    senderHardwareAddress data = getAddress data (u8 data 4).toNat 8 := by
  rw [senderHardwareAddress, hardwareAddressLength, readUint8_eq (by omega)]
  rfl

theorem senderProtocolAddress_eq (h8 : 8 ≤ data.length) :
    senderProtocolAddress data =
      getAddress data (u8 data 5).toNat (8 + (u8 data 4).toNat) := by
  rw [senderProtocolAddress, hardwareAddressLength, readUint8_eq (by omega), protocolAddressLength,
    readUint8_eq (by omega)]
  rfl

theorem targetHardwareAddress_eq (h8 : 8 ≤ data.length) :
    targetHardwareAddress data =
      getAddress data (u8 data 4).toNat (8 + (u8 data 4).toNat + (u8 data 5).toNat) := by
  rw [targetHardwareAddress, hardwareAddressLength, readUint8_eq (by omega), protocolAddressLength,
    readUint8_eq (by omega)]
  rfl

theorem targetProtocolAddress_eq (h8 : 8 ≤ data.length) :
    targetProtocolAddress data =
      getAddress data (u8 data 5).toNat (8 + (u8 data 4).toNat * 2 + (u8 data 5).toNat) := by
  rw [targetProtocolAddress, hardwareAddressLength, readUint8_eq (by omega), protocolAddressLength,
    readUint8_eq (by omega)]
  rfl

/-- Header and addresses of the sender are read, if there is room for them. -/
theorem exists_sender (h8 : 8 ≤ data.length)
    (hfit : 8 + (u8 data 4).toNat + (u8 data 5).toNat ≤ data.length) :
    ∃ sha spa, senderHardwareAddress data = .ok sha ∧ sha.length = (u8 data 4).toNat ∧
      senderProtocolAddress data = .ok spa ∧ spa.length = (u8 data 5).toNat := by
  obtain ⟨sha, hsha, hshaLen⟩ := getAddress_eq data (u8 data 4).toNat 8 (by omega)
  obtain ⟨spa, hspa, hspaLen⟩ := getAddress_eq data (u8 data 5).toNat
    (8 + (u8 data 4).toNat) (by omega)
  rw [senderHardwareAddress_eq h8, senderProtocolAddress_eq h8]
  exact ⟨sha, spa, hsha, hshaLen, hspa, hspaLen⟩

/-- And so are those of the target. -/
theorem exists_target (h8 : 8 ≤ data.length)
    (hfit : 8 + (u8 data 4).toNat * 2 + (u8 data 5).toNat * 2 ≤ data.length) :
    ∃ tha tpa, targetHardwareAddress data = .ok tha ∧ tha.length = (u8 data 4).toNat ∧
      targetProtocolAddress data = .ok tpa ∧ tpa.length = (u8 data 5).toNat := by
  obtain ⟨tha, htha, hthaLen⟩ := getAddress_eq data (u8 data 4).toNat
    (8 + (u8 data 4).toNat + (u8 data 5).toNat) (by omega)
  obtain ⟨tpa, htpa, htpaLen⟩ := getAddress_eq data (u8 data 5).toNat
    (8 + (u8 data 4).toNat * 2 + (u8 data 5).toNat) (by omega)
  rw [targetHardwareAddress_eq h8, targetProtocolAddress_eq h8]
  exact ⟨tha, tpa, htha, hthaLen, htpa, htpaLen⟩

/-- With a whole header, the log lines come down to the addresses. -/
theorem arpDumpIn_eq (order : FormatOrder) (h8 : 8 ≤ data.length) :
    arpDumpIn order data = (do
      formatAddresses order.senderHardwareFirst (senderHardwareAddress data)
        (senderProtocolAddress data)
      formatAddresses order.targetHardwareFirst (targetHardwareAddress data)
        (targetProtocolAddress data)) := by
  rw [arpDumpIn, hardwareType, readUint16_eq (by omega), Eval.ok_bind, protocolType,
    readUint16_eq (by omega), Eval.ok_bind, hardwareAddressLength, readUint8_eq (by omega),
    Eval.ok_bind, protocolAddressLength, readUint8_eq (by omega), Eval.ok_bind, operationCode,
    readUint16_eq (by omega), Eval.ok_bind]

/-- Without one, the first log lines leave defined behaviour. -/
theorem arpDumpIn_short (order : FormatOrder) (h : data.length < 8) :
    arpDumpIn order data = Eval.undefined := by
  apply (readUint16_quiet data 0).bind_undefined
  intro _
  apply (readUint16_quiet data 2).bind_undefined
  intro _
  apply (readUint8_quiet data 4).bind_undefined
  intro _
  apply (readUint8_quiet data 5).bind_undefined
  intro _
  rw [operationCode, readUint16_undefined (by omega)]
  rfl

end ArpData

/-! ### Formatting -/

theorem macAddressToString_throws {addr : Bytes} (h : addr.length ≠ 6) :
    ∃ e, macAddressToString addr = Eval.throwing e := by
  unfold macAddressToString
  split
  · exact absurd rfl h
  · exact ⟨_, rfl⟩

theorem ipV4ToString_throws {addr : Bytes} (h : addr.length ≠ 4) :
    ∃ e, ipV4ToString addr = Eval.throwing e := by
  unfold ipV4ToString
  split
  · exact absurd rfl h
  · exact ⟨_, rfl⟩

theorem formatAddresses_eq (hardwareFirst : Bool) {hardware protocol : Bytes}
    (hmac : hardware.length = 6) (hip : protocol.length = 4) :
    formatAddresses hardwareFirst (.ok hardware) (.ok protocol) = .ok () := by
  obtain ⟨mac, hmacStr⟩ := exists_macAddressToString hmac
  obtain ⟨ip, hipStr⟩ := exists_ipV4ToString hip
  cases hardwareFirst <;> simp [formatAddresses, hmacStr, hipStr]

/-- One bad address is enough, whichever is formatted first. -/
theorem formatAddresses_throws (hardwareFirst : Bool) {hardware protocol : Bytes}
    (h : ¬ (hardware.length = 6 ∧ protocol.length = 4)) :
    ∃ e, formatAddresses hardwareFirst (.ok hardware) (.ok protocol) = Eval.throwing e := by
  by_cases hmac : hardware.length = 6
  · obtain ⟨mac, hmacStr⟩ := exists_macAddressToString hmac
    obtain ⟨e, he⟩ := ipV4ToString_throws fun hip => h ⟨hmac, hip⟩
    refine ⟨e, ?_⟩
    cases hardwareFirst <;> simp [formatAddresses, hmacStr, he] <;> rfl
  · obtain ⟨e, he⟩ := macAddressToString_throws hmac
    by_cases hip : protocol.length = 4
    · obtain ⟨ip, hipStr⟩ := exists_ipV4ToString hip
      refine ⟨e, ?_⟩
      cases hardwareFirst <;> simp [formatAddresses, hipStr, he] <;> rfl
    · obtain ⟨e', he'⟩ := ipV4ToString_throws hip
      cases hardwareFirst
      · exact ⟨e', by simp [formatAddresses, he']; rfl⟩
      · exact ⟨e, by simp [formatAddresses, he]; rfl⟩

/-! ### The handler -/

/-- Whatever the order, the log lines of a body that fits are printed or throw; and they are printed
only for 6-byte and 4-byte addresses. -/
theorem ArpFits.arpDumpIn_cases {data : Bytes} (h : ArpFits data) (order : FormatOrder) :
    (u8 data 4).toNat = 6 ∧ (u8 data 5).toNat = 4 ∧ arpDumpIn order data = .ok () ∨
      ∃ e, arpDumpIn order data = Eval.throwing e := by
  have h8 := h.header
  obtain ⟨sha, spa, hsha, hshaLen, hspa, hspaLen⟩ := exists_sender h8 h.sender
  rw [arpDumpIn_eq order h8, hsha, hspa]
  by_cases hlen : (u8 data 4).toNat = 6 ∧ (u8 data 5).toNat = 4
  · -- the second line is reached, and reads up to byte 28
    have h28 := h.target hlen
    obtain ⟨tha, tpa, htha, hthaLen, htpa, htpaLen⟩ := exists_target h8 (by omega)
    rw [formatAddresses_eq _ (by omega) (by omega), Eval.ok_bind, htha, htpa]
    exact Or.inl ⟨hlen.1, hlen.2, formatAddresses_eq _ (by omega) (by omega)⟩
  · rw [← hshaLen, ← hspaLen] at hlen
    obtain ⟨e, he⟩ := formatAddresses_throws order.senderHardwareFirst hlen
    rw [he]
    exact Or.inr ⟨e, rfl⟩

/-- A body that the log lines never leave, whatever their order, fits. -/
theorem arpFits_of_logged {data : Bytes} (h : ∀ order, arpDumpIn order data ≠ Eval.undefined) :
    ArpFits data := by
  have h8 : 8 ≤ data.length := by
    by_contra hlt
    exact h ⟨true, true⟩ (arpDumpIn_short _ (by omega))
  have hmac : (u8 data 4).toNat = 0 ∨ 8 + (u8 data 4).toNat ≤ data.length := by
    by_contra hc
    apply h ⟨true, true⟩
    rw [arpDumpIn_eq _ h8, senderHardwareAddress_eq h8, getAddress_undefined (by omega) (by omega)]
    rfl
  have hip : (u8 data 5).toNat = 0 ∨
      8 + (u8 data 4).toNat + (u8 data 5).toNat ≤ data.length := by
    by_contra hc
    apply h ⟨false, true⟩
    rw [arpDumpIn_eq _ h8, senderProtocolAddress_eq h8, getAddress_undefined (by omega) (by omega)]
    rfl
  refine ⟨h8, by omega, ?_⟩
  rintro ⟨hhal, hpal⟩
  by_contra hlt
  apply h ⟨true, false⟩
  obtain ⟨sha, spa, hsha, hshaLen, hspa, hspaLen⟩ := exists_sender h8 (by omega)
  rw [arpDumpIn_eq _ h8, hsha, hspa]
  dsimp only
  rw [formatAddresses_eq _ (by omega) (by omega), Eval.ok_bind, targetProtocolAddress_eq h8,
    getAddress_undefined (by omega) (by omega)]
  rfl

/-- Behind the log lines, a packet is handled inside its bounds. -/
theorem ArpProtocolHandler.handle_encode_ne_undef (cfg : Config) (type : UInt16) (p : ArpPacket)
    (pad : Bytes) (s : Stack) : (handle cfg ⟨type, p.encode ++ pad⟩).run s ≠ .undef := by
  rw [handle, arpDump_encode, Comp.lift_ok_bind, protocolAddressLength_encode, Comp.lift_ok_bind,
    protocolType_encode, Comp.lift_ok_bind]
  split
  · intro hundef
    cases hundef
  rcases hi : Device.getTargetInterface cfg interfaceFamilyIp with (_ | e) | (interface | family)
  · rw [Device.getTargetInterface] at hi
    split at hi <;> cases hi
  · intro hundef
    cases hundef
  · rw [Comp.lift_ok_bind]
    dsimp only
    rw [handleOn_packet]
    split <;> intro hundef <;> cases hundef
  · intro hundef
    cases hundef

theorem ArpFits.handle_ne_undef {cfg : Config} {pd : ProtocolData} (h : ArpFits pd.data)
    (s : Stack) : (ArpProtocolHandler.handle cfg pd).run s ≠ .undef := by
  obtain ⟨hhal, hpal, -⟩ | ⟨e, he⟩ := h.arpDumpIn_cases ⟨true, true⟩
  · obtain ⟨p, pad, hdata, -⟩ := exists_encode (h.target ⟨hhal, hpal⟩)
      (UInt8.toNat_inj.mp hhal) (UInt8.toNat_inj.mp hpal)
    obtain ⟨type, data⟩ := pd
    obtain rfl : data = p.encode ++ pad := hdata
    exact ArpProtocolHandler.handle_encode_ne_undef cfg type p pad s
  · rw [arpDumpIn_leftToRight] at he
    rw [ArpProtocolHandler.handle, he]
    intro hundef
    cases hundef

/-! ## IPv4, UDP and ICMP -/

/-- Every field of the fixed header is read inside the body. -/
structure Ipv4Data.HeaderInBounds (data : Bytes) : Prop where
  src : ∃ v, src data = .ok v
  dst : ∃ v, dst data = .ok v
  protocol : ∃ v, protocol data = .ok v
  headerLength : ∃ v, headerLength data = .ok v
  headerLengthByte : ∃ v, headerLengthByte data = .ok v
  totalLength : ∃ v, totalLength data = .ok v
  info : info data = .ok ()

/-- Every field of the header is read inside the segment. -/
structure UdpData.HeaderInBounds (data : Bytes) : Prop where
  srcPort : ∃ v, srcPort data = .ok v
  dstPort : ∃ v, dstPort data = .ok v
  length : ∃ v, length data = .ok v
  info : ∃ text, info data = .ok text

/-- Every field of the header is read inside the message. -/
structure IcmpDataEcho.HeaderInBounds (data : Bytes) : Prop where
  type : ∃ v, type data = .ok v
  info : info data = .ok ()

theorem Ipv4Data.headerInBounds_iff {data : Bytes} : HeaderInBounds data ↔ 20 ≤ data.length := by
  constructor
  · intro h
    by_contra hlt
    obtain ⟨v, hv⟩ := h.dst
    rw [dst, readUint32_undefined (by omega)] at hv
    cases hv
  · intro h20
    exact
      { src := ⟨_, readUint32_eq (by omega)⟩
        dst := ⟨_, readUint32_eq (by omega)⟩
        protocol := ⟨_, readUint8_eq (by omega)⟩
        headerLength := ⟨_, headerLength_eq (by omega)⟩
        headerLengthByte := ⟨_, headerLengthByte_eq (by omega)⟩
        totalLength := ⟨_, readUint16_eq (by omega)⟩
        info := info_eq h20 }

theorem UdpData.headerInBounds_iff {data : Bytes} : HeaderInBounds data ↔ 8 ≤ data.length := by
  constructor
  · intro h
    by_contra hlt
    obtain ⟨text, htext⟩ := h.info
    rw [info_short (Nat.lt_of_not_le hlt)] at htext
    cases htext
  · intro h8
    exact
      { srcPort := ⟨_, readUint16_eq (by omega)⟩
        dstPort := ⟨_, readUint16_eq (by omega)⟩
        length := ⟨_, readUint16_eq (by omega)⟩
        info := exists_info h8 }

theorem IcmpDataEcho.headerInBounds_iff {data : Bytes} : HeaderInBounds data ↔ 8 ≤ data.length :=
  ⟨fun h => IcmpHandler.length_of_info h.info, fun h8 =>
    { type := ⟨_, readUint8_eq (by omega)⟩
      info := IcmpHandler.info_eq h8 }⟩

/-- A body without a whole header makes the first log line leave it. -/
theorem Ipv4ProtocolHandler.handle_short (cfg : Config) (protocolHandlers : Ipv4ProtocolHandlers)
    {pd : ProtocolData} (h : pd.data.length < 20) (s : Stack) :
    (handle cfg protocolHandlers pd).run s = .undef := by
  apply Comp.lift_bind_undef (readUint32_quiet _ _)
  intro _
  rw [dst, readUint32_undefined (by omega)]
  rfl

/-- A message without a whole header is left by the first log line. -/
theorem IcmpHandler.handle_short {cfg : Config} {d : Ipv4ProtocolData} (h : d.data.length < 8)
    (s : Stack) : (handle cfg d).run s = .undef := by
  have hinfo : IcmpDataEcho.info d.data = Eval.undefined := by
    apply (readUint8_quiet d.data 0).bind_undefined
    intro _
    apply (readUint8_quiet d.data 1).bind_undefined
    intro _
    apply (readUint16_quiet d.data 2).bind_undefined
    intro _
    apply (readUint16_quiet d.data 4).bind_undefined
    intro _
    rw [IcmpDataEcho.sequenceNumber, readUint16_undefined (by omega)]
    rfl
  rw [handle, hinfo]
  rfl

/-! ## All four -/

/-- The parsers, with what they are given. -/
inductive HeaderInput : Type where
  | arp (cfg : Config) (pd : ProtocolData)
  | ipv4 (cfg : Config) (protocolHandlers : Ipv4ProtocolHandlers) (pd : ProtocolData)
  | udp (d : Ipv4ProtocolData)
  | icmp (cfg : Config) (d : Ipv4ProtocolData)

/-- No field of the header is read outside the body: either the handler stays in defined behaviour
altogether, or, where it may leave it later, all these reads are inside. -/
def HeaderSafe : HeaderInput → Prop
  | .arp cfg pd =>
    (∀ order, arpDumpIn order pd.data ≠ Eval.undefined) ∧
      ∀ s, (ArpProtocolHandler.handle cfg pd).run s ≠ .undef
  | .ipv4 cfg protocolHandlers pd =>
    (∀ s, (Ipv4ProtocolHandler.handle cfg protocolHandlers pd).run s ≠ .undef) ∨
      Ipv4Data.HeaderInBounds pd.data
  | .udp d => (∀ s, (UdpHandler.handle d).run s ≠ .undef) ∨ UdpData.HeaderInBounds d.data
  | .icmp cfg d =>
    (∀ s, (IcmpHandler.handle cfg d).run s ≠ .undef) ∨ IcmpDataEcho.HeaderInBounds d.data

/-- The body has room for what is read of it. -/
def HeaderFits : HeaderInput → Prop
  | .arp _ pd => ArpFits pd.data
  | .ipv4 _ _ pd => 20 ≤ pd.data.length
  | .udp d => 8 ≤ d.data.length
  | .icmp _ d => 8 ≤ d.data.length

/-- A call that leaves its body where the header does not fit is safe exactly where it does. -/
theorem defined_or_inBounds_iff {α : Type} {call : Call α} {inBounds : Prop} {n len : ℕ}
    (hshort : len < n → ∀ s, call.run s = .undef) (hin : inBounds ↔ n ≤ len) :
    (∀ s, call.run s ≠ .undef) ∨ inBounds ↔ n ≤ len := by
  refine ⟨?_, fun h => Or.inr (hin.mpr h)⟩
  rintro (h | h)
  · by_contra hlt
    exact h Stack.init (hshort (Nat.lt_of_not_le hlt) Stack.init)
  · exact hin.mp h

/-- **Nobody looks first**: the reads stay inside exactly when the body is long enough for them. -/
theorem headerSafe_iff (input : HeaderInput) : HeaderSafe input ↔ HeaderFits input := by
  cases input with
  | arp cfg pd =>
    refine ⟨fun h => arpFits_of_logged h.1, fun h => ⟨fun order => ?_, h.handle_ne_undef⟩⟩
    obtain ⟨-, -, hok⟩ | ⟨e, he⟩ := h.arpDumpIn_cases order
    · rw [hok]
      exact nofun
    · rw [he]
      exact nofun
  | ipv4 cfg protocolHandlers pd =>
    exact defined_or_inBounds_iff (Ipv4ProtocolHandler.handle_short cfg protocolHandlers)
      Ipv4Data.headerInBounds_iff
  | udp d => exact defined_or_inBounds_iff UdpHandler.handle_short UdpData.headerInBounds_iff
  | icmp cfg d =>
    exact defined_or_inBounds_iff IcmpHandler.handle_short IcmpDataEcho.headerInBounds_iff

/-- The payload of an IPv4 packet of 24 bytes: the two ports of a UDP header and nothing else. -/
theorem not_forall_headerSafe : ¬ ∀ input, HeaderSafe input := by
  intro h
  rcases h (.udp ⟨udpType, [0x15, 0xb3, 0x9c, 0x40], 0xC0000201, 0xC0000202,
    ⟨interfaceFamilyIp, 0xC0000202⟩⟩) with h | h
  · exact h Stack.init (UdpHandler.handle_short (by decide) Stack.init)
  · obtain ⟨text, htext⟩ := h.info
    rw [UdpData.info_short (by decide)] at htext
    cases htext

end Suika
