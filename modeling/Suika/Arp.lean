import Suika.Device

/-!
# ARP

`lib/ArpData.h`, `lib/ArpCache.h` and `lib/Arp.cpp`. An ARP packet is an 8-byte header and four
addresses whose offsets follow from the two length bytes of the header. `arpDump` only logs, but the
formatters it calls throw on addresses that are not 6 and 4 bytes long, and it runs before every
other check: it is what rejects packets with other lengths.

`ArpProtocolHandler.handle_packet` says what the handler does to any packet with these lengths;
`arpDump_eq_ok` that it gets past the log lines with no others.
-/

namespace Suika

open Cpp BinaryPayload

/-- `protocol::ProtocolData`. Its device is the one of the `Config`. -/
structure ProtocolData : Type where
  type : UInt16
  data : Bytes
  deriving DecidableEq

/-! ## `ArpData` -/

namespace ArpData

/-- `ARP_HEADER_SIZE` -/
abbrev arpHeaderSize : ℕ := 8

/-- `OP_REQUEST` -/
abbrev opRequest : ℕ := 0x0001

/-- `OP_REPLY` -/
abbrev opReply : ℕ := 0x0002

def hardwareType (data : Bytes) : Eval Err UInt16 := readUint16 data 0

def setHardwareType (data : Bytes) (value : UInt16) : Eval Err Bytes := writeUint16 data value 0

def protocolType (data : Bytes) : Eval Err UInt16 := readUint16 data 2

def setProtocolType (data : Bytes) (value : UInt16) : Eval Err Bytes := writeUint16 data value 2

def hardwareAddressLength (data : Bytes) : Eval Err UInt8 := readUint8 data 4

def setHardwareAddressLength (data : Bytes) (value : UInt8) : Eval Err Bytes :=
  writeUint8 data value 4

def protocolAddressLength (data : Bytes) : Eval Err UInt8 := readUint8 data 5

def setProtocolAddressLength (data : Bytes) (value : UInt8) : Eval Err Bytes :=
  writeUint8 data value 5

def operationCode (data : Bytes) : Eval Err UInt16 := readUint16 data 6

def setOperationCode (data : Bytes) (value : UInt16) : Eval Err Bytes := writeUint16 data value 6

/-- The loop `ret.push_back(data[i + offset])`. -/
def getAddress (data : Bytes) : ℕ → ℕ → Eval Err Bytes
  | 0, _ => .ok []
  | len + 1, offset => do
    let b ← byteAt data offset
    return b :: (← getAddress data len (offset + 1))

def senderHardwareAddress (data : Bytes) : Eval Err Bytes := do
  getAddress data (← hardwareAddressLength data).toNat arpHeaderSize

def setSenderHardwareAddress (data address : Bytes) : Eval Err Bytes :=
  writeVector data address arpHeaderSize

def senderProtocolAddress (data : Bytes) : Eval Err Bytes := do
  let offset := arpHeaderSize + (← hardwareAddressLength data).toNat
  getAddress data (← protocolAddressLength data).toNat offset

def setSenderProtocolAddress (data address : Bytes) : Eval Err Bytes := do
  writeVector data address (arpHeaderSize + (← hardwareAddressLength data).toNat)

def targetHardwareAddress (data : Bytes) : Eval Err Bytes := do
  let hal ← hardwareAddressLength data
  let offset := arpHeaderSize + hal.toNat + (← protocolAddressLength data).toNat
  getAddress data hal.toNat offset

def setTargetHardwareAddress (data address : Bytes) : Eval Err Bytes := do
  let hal ← hardwareAddressLength data
  writeVector data address (arpHeaderSize + hal.toNat + (← protocolAddressLength data).toNat)

def targetProtocolAddress (data : Bytes) : Eval Err Bytes := do
  let hal ← hardwareAddressLength data
  let pal ← protocolAddressLength data
  let offset := arpHeaderSize + hal.toNat * 2 + pal.toNat
  getAddress data pal.toNat offset

def setTargetProtocolAddress (data address : Bytes) : Eval Err Bytes := do
  let hal ← hardwareAddressLength data
  writeVector data address (arpHeaderSize + hal.toNat * 2 + (← protocolAddressLength data).toNat)

end ArpData

open ArpData

/-- The arguments are `int`s; the setters narrow them. -/
def arpDataFactory (hardwareType protocolType hardwareAddressLength protocolAddressLength
    operationCode : ℕ) : Eval Err Bytes := do
  let size := arpHeaderSize + hardwareAddressLength * 2 + protocolAddressLength * 2
  let d := List.replicate size 0
  let d ← setHardwareType d (UInt16.ofNat hardwareType)
  let d ← setProtocolType d (UInt16.ofNat protocolType)
  let d ← setHardwareAddressLength d (UInt8.ofNat hardwareAddressLength)
  let d ← setProtocolAddressLength d (UInt8.ofNat protocolAddressLength)
  setOperationCode d (UInt16.ofNat operationCode)

/-! ## Log lines that throw -/

/-- One `{:02x}` of a format string. -/
def hex02 (b : UInt8) : List Char := [Nat.digitChar (b.toNat / 16), Nat.digitChar (b.toNat % 16)]

def macAddressToString (addr : Bytes) : Eval Err (List Char) :=
  match addr with
  | [a, b, c, d, e, f] =>
    .ok (hex02 a ++ ':' :: (hex02 b ++ ':' :: (hex02 c ++ ':' :: (hex02 d ++ ':' :: (hex02 e ++
      ':' :: hex02 f)))))
  | _ => runtimeError "invalid mac address length"

def ipV4ToString (addr : Bytes) : Eval Err (List Char) :=
  match addr with
  | [a, b, c, d] =>
    .ok (Nat.toDigits 10 a.toNat ++ '.' :: (Nat.toDigits 10 b.toNat ++ '.' ::
      (Nat.toDigits 10 c.toNat ++ '.' :: Nat.toDigits 10 d.toNat)))
  | _ => runtimeError s!"invalid ipv4 address length. length = {addr.length}"

/-- The log lines themselves go nowhere; what they read and what the formatters throw stays. -/
def arpDump (arpData : Bytes) : Eval Err Unit := do
  let _ ← hardwareType arpData
  let _ ← protocolType arpData
  let _ ← hardwareAddressLength arpData
  let _ ← protocolAddressLength arpData
  let _ ← operationCode arpData
  let _ ← macAddressToString (← senderHardwareAddress arpData)
  let _ ← ipV4ToString (← senderProtocolAddress arpData)
  let _ ← macAddressToString (← targetHardwareAddress arpData)
  let _ ← ipV4ToString (← targetProtocolAddress arpData)

/-! ## The cache -/

namespace ArpCache

def select (cache : List CacheData) (protocolAddress : UInt32) : Option CacheData :=
  cache.find? (fun c => c.protocolAddress = protocolAddress)

def create (cache : List CacheData) (c : CacheData) : List CacheData :=
  match select cache c.protocolAddress with
  | some _ => cache
  | none => cache ++ [c]

end ArpCache

/-! ## Requests, replies and the handler -/

/-- `ARP_HARDWARE_TYPE_ETHER` -/
abbrev arpHardwareTypeEther : ℕ := 0x0001

/-- `ARP_PROTOCOL_TYPE_IP` -/
abbrev arpProtocolTypeIp : ℕ := 0x0800

/-- `ETHER_ADDRESS_LEN` -/
abbrev etherAddressLen : ℕ := 6

/-- `IP_ADDRESS_LEN` -/
abbrev ipAddressLen : ℕ := 4

/-- `arp::reply` -/
def arpReply (cfg : Config) (interface : IpNetworkInterface) (requestData : Bytes) : Call ℤ := do
  let data ← arpDataFactory arpHardwareTypeEther arpProtocolTypeIp etherAddressLen ipAddressLen
    opReply
  let data ← setSenderHardwareAddress data (EtherDevice.getAddress cfg)
  let data ← setSenderProtocolAddress data interface.getUnicastVector
  let data ← setTargetHardwareAddress data (← senderHardwareAddress requestData)
  let data ← setTargetProtocolAddress data (← senderProtocolAddress requestData)
  arpDump data
  let _ ← EtherDevice.transmit cfg data (← senderHardwareAddress requestData) arpType
  return 0

def arpRequest (cfg : Config) (interface : IpNetworkInterface) (ip : UInt32) : Call ℤ := do
  let data ← arpDataFactory arpHardwareTypeEther arpProtocolTypeIp etherAddressLen ipAddressLen
    opRequest
  let data ← setSenderHardwareAddress data (EtherDevice.getAddress cfg)
  let data ← setSenderProtocolAddress data interface.getUnicastVector
  let data ← setTargetHardwareAddress data (List.replicate etherAddressLen 0)
  let data ← setTargetProtocolAddress data (uint32ToVector ip)
  arpDump data
  let _ ← EtherDevice.transmit cfg data EtherDevice.broadcastAddress arpType
  return 0

def arpResolve (cfg : Config) (interface : IpNetworkInterface) (ip : UInt32) : Call Bytes := do
  let s ← Comp.get
  match ArpCache.select s.arpCache ip with
  | some c => return c.hardwareAddress
  | none =>
    let _ ← arpRequest cfg interface ip
    Comp.throw (.arpResolveException "not find arp cache. call arp reqest")

namespace ArpProtocolHandler

/-- What `handle` does once it has its interface. -/
def handleOn (cfg : Config) (ipInterface : IpNetworkInterface) (arpData : Bytes) : Call ℤ := do
  let address ← targetProtocolAddress arpData
  if address.length ≠ ipAddrLen then
    throwRuntime s!"not support protocol address size = {address.length}"
  else
    let targetProtocolAddress ← readUint32 address 0
    if targetProtocolAddress ≠ ipInterface.unicast then
      throwRuntime s!"not support protocol address size = {address.length}"
    else
      let senderAddress ← senderProtocolAddress arpData
      if senderAddress.length ≠ ipAddrLen then
        throwRuntime s!"not support protocol address size = {senderAddress.length}"
      else
        let senderProtocolAddress ← readUint32 senderAddress 0
        let c : CacheData := ⟨senderProtocolAddress, ← senderHardwareAddress arpData⟩
        let s ← Comp.get
        Comp.set { s with arpCache := ArpCache.create s.arpCache c }
        let operationCode ← operationCode arpData
        if operationCode = UInt16.ofNat opRequest then
          let _ ← arpReply cfg ipInterface arpData
          return 0
        else
          return 0

/-- `ArpProtocolHandler::handle`. The source tests protocol length and type twice and the hardware
type never. -/
def handle (cfg : Config) (protocolData : ProtocolData) : Call ℤ := do
  let arpData := protocolData.data
  arpDump arpData
  let protocolAddressLength ← protocolAddressLength arpData
  let protocolType ← protocolType arpData
  if protocolAddressLength.toNat ≠ ipAddrLen ∨ protocolType ≠ etherTypeIp then
    throwRuntime "not support protocol"
  else if protocolAddressLength.toNat ≠ ipAddrLen ∨ protocolType ≠ etherTypeIp then
    throwRuntime "not support protocol"
  else
    match ← Device.getTargetInterface cfg interfaceFamilyIp with
    | .ip ipInterface => handleOn cfg ipInterface arpData
    | .other _ => throwRuntime "cast error"

end ArpProtocolHandler

/-! ## Packets as fields -/

/-- The header of a packet. -/
def arpHeader (hardwareType protocolType : UInt16) (hal pal : UInt8) (operationCode : UInt16) :
    Bytes :=
  be16 hardwareType ++ be16 protocolType ++ [hal, pal] ++ be16 operationCode

/-- A packet for 6-byte hardware and 4-byte protocol addresses, as its fields. -/
structure ArpPacket : Type where
  hardwareType : UInt16
  protocolType : UInt16
  operationCode : UInt16
  senderHardware : EtherAddr
  senderProtocol : UInt32
  targetHardware : EtherAddr
  targetProtocol : UInt32

/-- The bytes of a packet. -/
def ArpPacket.encode (p : ArpPacket) : Bytes :=
  arpHeader p.hardwareType p.protocolType 6 4 p.operationCode ++ p.senderHardware.val ++
    be32 p.senderProtocol ++ p.targetHardware.val ++ be32 p.targetProtocol

theorem ArpPacket.length_encode (p : ArpPacket) : p.encode.length = 28 := by
  simp [ArpPacket.encode, arpHeader, p.senderHardware.length_val, p.targetHardware.length_val]

/-- A packet is far from what a frame can hold. -/
theorem ArpPacket.encode_fits (p : ArpPacket) : p.encode.length ≤ 2147483633 := by
  rw [p.length_encode]
  decide

namespace ArpData

theorem getAddress_append (pre addr post : Bytes) {len offset : ℕ} (hl : len = addr.length)
    (ho : offset = pre.length) : getAddress (pre ++ addr ++ post) len offset = .ok addr := by
  subst hl ho
  induction addr generalizing pre with
  | nil => rfl
  | cons b addr ih =>
    have hat : (byteAt (pre ++ b :: addr ++ post) pre.length : Eval Err UInt8) = .ok b := by
      simp [byteAt, List.append_assoc]
    have hrest := ih (pre ++ [b])
    rw [List.append_assoc pre [b] addr, List.length_append] at hrest
    rw [List.length_cons, getAddress, hat, Eval.ok_bind]
    change (getAddress (pre ++ ([b] ++ addr) ++ post) addr.length (pre.length + [b].length)) >>= _
      = _
    rw [hrest]
    rfl

/-- What comes out has the length asked for. -/
theorem length_getAddress {data addr : Bytes} {len offset : ℕ}
    (h : getAddress data len offset = .ok addr) : addr.length = len := by
  induction len generalizing offset addr with
  | zero =>
    cases h
    rfl
  | succ len ih =>
    obtain ⟨b, -, h⟩ := Eval.bind_eq_ok h
    obtain ⟨rest, hrest, h⟩ := Eval.bind_eq_ok h
    cases h
    rw [List.length_cons, ih hrest]

section

variable (ht pt : UInt16) (hal pal : UInt8) (op : UInt16) (rest : Bytes)

@[simp] theorem length_arpHeader : (arpHeader ht pt hal pal op).length = 8 := rfl

theorem hardwareType_arpHeader :
    hardwareType (arpHeader ht pt hal pal op ++ rest) = .ok ht :=
  congrArg Except.ok (join16_be16 ht)

theorem protocolType_arpHeader :
    protocolType (arpHeader ht pt hal pal op ++ rest) = .ok pt :=
  congrArg Except.ok (join16_be16 pt)

theorem hardwareAddressLength_arpHeader :
    hardwareAddressLength (arpHeader ht pt hal pal op ++ rest) = .ok hal := rfl

theorem protocolAddressLength_arpHeader :
    protocolAddressLength (arpHeader ht pt hal pal op ++ rest) = .ok pal := rfl

theorem operationCode_arpHeader :
    operationCode (arpHeader ht pt hal pal op ++ rest) = .ok op :=
  congrArg Except.ok (join16_be16 op)

end

/-! ### Addresses of any length -/

section

variable (ht pt : UInt16) (hal pal : UInt8) (op : UInt16) {a b c d : Bytes} (rest : Bytes)

theorem senderHardwareAddress_arpHeader (ha : a.length = hal.toNat) :
    senderHardwareAddress (arpHeader ht pt hal pal op ++ a ++ rest) = .ok a := by
  have hhal : hardwareAddressLength (arpHeader ht pt hal pal op ++ a ++ rest) = .ok hal := rfl
  rw [senderHardwareAddress, hhal, Eval.ok_bind]
  exact getAddress_append _ _ _ ha.symm rfl

theorem senderProtocolAddress_arpHeader (ha : a.length = hal.toNat) (hb : b.length = pal.toNat) :
    senderProtocolAddress (arpHeader ht pt hal pal op ++ a ++ b ++ rest) = .ok b := by
  have hhal : hardwareAddressLength (arpHeader ht pt hal pal op ++ a ++ b ++ rest) = .ok hal := rfl
  have hpal : protocolAddressLength (arpHeader ht pt hal pal op ++ a ++ b ++ rest) = .ok pal := rfl
  rw [senderProtocolAddress, hhal, Eval.ok_bind, hpal, Eval.ok_bind]
  exact getAddress_append _ _ _ hb.symm (by simp [ha])

theorem targetHardwareAddress_arpHeader (ha : a.length = hal.toNat) (hb : b.length = pal.toNat)
    (hc : c.length = hal.toNat) :
    targetHardwareAddress (arpHeader ht pt hal pal op ++ a ++ b ++ c ++ rest) = .ok c := by
  have hhal : hardwareAddressLength (arpHeader ht pt hal pal op ++ a ++ b ++ c ++ rest) =
    .ok hal := rfl
  have hpal : protocolAddressLength (arpHeader ht pt hal pal op ++ a ++ b ++ c ++ rest) =
    .ok pal := rfl
  rw [targetHardwareAddress, hhal, Eval.ok_bind, hpal, Eval.ok_bind]
  exact getAddress_append _ _ _ hc.symm (by simp [ha, hb, arpHeaderSize, Nat.add_assoc])

/-- Where the last address starts. -/
theorem targetProtocol_offset (ha : a.length = hal.toNat) (hb : b.length = pal.toNat)
    (hc : c.length = hal.toNat) :
    arpHeaderSize + hal.toNat * 2 + pal.toNat =
      (arpHeader ht pt hal pal op ++ a ++ b ++ c).length := by
  simp only [arpHeaderSize, List.length_append, length_arpHeader, ha, hb, hc]
  omega

theorem targetProtocolAddress_arpHeader (ha : a.length = hal.toNat) (hb : b.length = pal.toNat)
    (hc : c.length = hal.toNat) (hd : d.length = pal.toNat) :
    targetProtocolAddress (arpHeader ht pt hal pal op ++ a ++ b ++ c ++ d ++ rest) = .ok d := by
  have hhal : hardwareAddressLength (arpHeader ht pt hal pal op ++ a ++ b ++ c ++ d ++ rest) =
    .ok hal := rfl
  have hpal : protocolAddressLength (arpHeader ht pt hal pal op ++ a ++ b ++ c ++ d ++ rest) =
    .ok pal := rfl
  rw [targetProtocolAddress, hhal, Eval.ok_bind, hpal, Eval.ok_bind]
  exact getAddress_append _ _ _ hd.symm (targetProtocol_offset ht pt hal pal op ha hb hc)

variable {addr : Bytes}

/-- Every address ends where an `int` still counts. -/
theorem addresses_fit (hal pal : UInt8) :
    8 + hal.toNat + pal.toNat + hal.toNat + pal.toNat < 2147483648 := by
  have hhal := hal.toNat_lt
  have hpal := pal.toNat_lt
  omega

theorem setSenderHardwareAddress_eq (ha : a.length = hal.toNat) (hl : addr.length = hal.toNat) :
    setSenderHardwareAddress (arpHeader ht pt hal pal op ++ a ++ b ++ c ++ d) addr =
      .ok (arpHeader ht pt hal pal op ++ addr ++ b ++ c ++ d) := by
  have hfit : (arpHeader ht pt hal pal op).length + addr.length < 2147483648 := by
    have h := addresses_fit hal pal
    rw [length_arpHeader, hl]
    omega
  rw [setSenderHardwareAddress, List.append_assoc _ b c, List.append_assoc _ (b ++ c) d,
    writeVector_append _ _ _ (by rfl) (ha.trans hl.symm) hfit, ← List.append_assoc,
    ← List.append_assoc]

theorem setSenderProtocolAddress_eq (ha : a.length = hal.toNat) (hb : b.length = pal.toNat)
    (hl : addr.length = pal.toNat) :
    setSenderProtocolAddress (arpHeader ht pt hal pal op ++ a ++ b ++ c ++ d) addr =
      .ok (arpHeader ht pt hal pal op ++ a ++ addr ++ c ++ d) := by
  have hhal : hardwareAddressLength (arpHeader ht pt hal pal op ++ a ++ b ++ c ++ d) =
    .ok hal := rfl
  have hfit : (arpHeader ht pt hal pal op ++ a).length + addr.length < 2147483648 := by
    have h := addresses_fit hal pal
    rw [List.length_append, length_arpHeader, ha, hl]
    omega
  rw [setSenderProtocolAddress, hhal, Eval.ok_bind, List.append_assoc _ c d,
    writeVector_append _ _ _ (by simp [ha]) (hb.trans hl.symm) hfit, List.append_assoc _ c d]

theorem setTargetHardwareAddress_eq (ha : a.length = hal.toNat) (hb : b.length = pal.toNat)
    (hc : c.length = hal.toNat) (hl : addr.length = hal.toNat) :
    setTargetHardwareAddress (arpHeader ht pt hal pal op ++ a ++ b ++ c ++ d) addr =
      .ok (arpHeader ht pt hal pal op ++ a ++ b ++ addr ++ d) := by
  have hhal : hardwareAddressLength (arpHeader ht pt hal pal op ++ a ++ b ++ c ++ d) =
    .ok hal := rfl
  have hpal : protocolAddressLength (arpHeader ht pt hal pal op ++ a ++ b ++ c ++ d) =
    .ok pal := rfl
  have hfit : (arpHeader ht pt hal pal op ++ a ++ b).length + addr.length < 2147483648 := by
    have h := addresses_fit hal pal
    rw [List.length_append, List.length_append, length_arpHeader, ha, hb, hl]
    omega
  rw [setTargetHardwareAddress, hhal, Eval.ok_bind, hpal, Eval.ok_bind,
    writeVector_append _ _ _ (by simp [ha, hb, arpHeaderSize, Nat.add_assoc]) (hc.trans hl.symm)
      hfit]

theorem setTargetProtocolAddress_eq (ha : a.length = hal.toNat) (hb : b.length = pal.toNat)
    (hc : c.length = hal.toNat) (hd : d.length = pal.toNat) (hl : addr.length = pal.toNat) :
    setTargetProtocolAddress (arpHeader ht pt hal pal op ++ a ++ b ++ c ++ d) addr =
      .ok (arpHeader ht pt hal pal op ++ a ++ b ++ c ++ addr) := by
  have hhal : hardwareAddressLength (arpHeader ht pt hal pal op ++ a ++ b ++ c ++ d) =
    .ok hal := rfl
  have hpal : protocolAddressLength (arpHeader ht pt hal pal op ++ a ++ b ++ c ++ d) =
    .ok pal := rfl
  have hfit : (arpHeader ht pt hal pal op ++ a ++ b ++ c).length + addr.length < 2147483648 := by
    have h := addresses_fit hal pal
    simp only [List.length_append, length_arpHeader, ha, hb, hc, hl]
    omega
  rw [setTargetProtocolAddress, hhal, Eval.ok_bind, hpal, Eval.ok_bind,
    ← List.append_nil (arpHeader ht pt hal pal op ++ a ++ b ++ c ++ d),
    writeVector_append _ _ _ (targetProtocol_offset ht pt hal pal op ha hb hc) (hd.trans hl.symm)
      hfit, List.append_nil]

end

/-! ### Reading a packet -/

section

variable (p : ArpPacket) (pad : Bytes)

theorem senderHardwareAddress_encode :
    senderHardwareAddress (p.encode ++ pad) = .ok p.senderHardware.val := by
  simp only [ArpPacket.encode, List.append_assoc]
  rw [← List.append_assoc]
  exact senderHardwareAddress_arpHeader _ _ _ _ _ _ p.senderHardware.length_val

theorem senderProtocolAddress_encode :
    senderProtocolAddress (p.encode ++ pad) = .ok (be32 p.senderProtocol) := by
  simp only [ArpPacket.encode, List.append_assoc]
  rw [← List.append_assoc, ← List.append_assoc]
  exact senderProtocolAddress_arpHeader _ _ _ _ _ _ p.senderHardware.length_val (by rfl)

theorem targetHardwareAddress_encode :
    targetHardwareAddress (p.encode ++ pad) = .ok p.targetHardware.val := by
  simp only [ArpPacket.encode, List.append_assoc]
  rw [← List.append_assoc, ← List.append_assoc, ← List.append_assoc]
  exact targetHardwareAddress_arpHeader _ _ _ _ _ _ p.senderHardware.length_val (by rfl)
    p.targetHardware.length_val

theorem targetProtocolAddress_encode :
    targetProtocolAddress (p.encode ++ pad) = .ok (be32 p.targetProtocol) :=
  targetProtocolAddress_arpHeader _ _ _ _ _ _ p.senderHardware.length_val (by rfl)
    p.targetHardware.length_val (by rfl)

theorem protocolType_encode : protocolType (p.encode ++ pad) = .ok p.protocolType := by
  simp only [ArpPacket.encode, List.append_assoc]
  exact protocolType_arpHeader _ _ _ _ _ _

theorem operationCode_encode : operationCode (p.encode ++ pad) = .ok p.operationCode := by
  simp only [ArpPacket.encode, List.append_assoc]
  exact operationCode_arpHeader _ _ _ _ _ _

theorem protocolAddressLength_encode : protocolAddressLength (p.encode ++ pad) = .ok 4 := by
  simp only [ArpPacket.encode, List.append_assoc]
  exact protocolAddressLength_arpHeader _ _ _ _ _ _

end

/-! ### The log lines -/

theorem exists_macAddressToString {addr : Bytes} (h : addr.length = 6) :
    ∃ str, macAddressToString addr = .ok str := by
  match addr, h with
  | [_, _, _, _, _, _], _ => exact ⟨_, rfl⟩

theorem length_of_macAddressToString {addr : Bytes} {str : List Char}
    (h : macAddressToString addr = .ok str) : addr.length = 6 := by
  unfold macAddressToString at h
  split at h
  · rfl
  · cases h

theorem exists_ipV4ToString {addr : Bytes} (h : addr.length = 4) :
    ∃ str, ipV4ToString addr = .ok str := by
  match addr, h with
  | [_, _, _, _], _ => exact ⟨_, rfl⟩

theorem length_of_ipV4ToString {addr : Bytes} {str : List Char}
    (h : ipV4ToString addr = .ok str) : addr.length = 4 := by
  unfold ipV4ToString at h
  split at h
  · rfl
  · cases h

/-- The log lines of a packet with the right lengths throw nothing. -/
theorem arpDump_encode (p : ArpPacket) (pad : Bytes) : arpDump (p.encode ++ pad) = .ok () := by
  have hht : hardwareType (p.encode ++ pad) = .ok p.hardwareType := by
    simp only [ArpPacket.encode, List.append_assoc]
    exact hardwareType_arpHeader _ _ _ _ _ _
  have hhal : hardwareAddressLength (p.encode ++ pad) = .ok 6 := by
    simp only [ArpPacket.encode, List.append_assoc]
    exact hardwareAddressLength_arpHeader _ _ _ _ _ _
  obtain ⟨sm, hsm⟩ := exists_macAddressToString p.senderHardware.length_val
  obtain ⟨si, hsi⟩ := exists_ipV4ToString (length_be32 p.senderProtocol)
  obtain ⟨tm, htm⟩ := exists_macAddressToString p.targetHardware.length_val
  obtain ⟨ti, hti⟩ := exists_ipV4ToString (length_be32 p.targetProtocol)
  rw [arpDump, hht, protocolType_encode, hhal, protocolAddressLength_encode, operationCode_encode,
    senderHardwareAddress_encode, senderProtocolAddress_encode, targetHardwareAddress_encode,
    targetProtocolAddress_encode]
  simp only [Eval.ok_bind, hsm, hsi, htm, hti, Eval.pure_eq]

/-- Only packets with the right lengths get past the log lines. -/
theorem arpDump_eq_ok {data : Bytes} (h : arpDump data = .ok ()) :
    hardwareAddressLength data = .ok 6 ∧ protocolAddressLength data = .ok 4 := by
  obtain ⟨-, -, h⟩ := Eval.bind_eq_ok h
  obtain ⟨-, -, h⟩ := Eval.bind_eq_ok h
  obtain ⟨hal, hhal, h⟩ := Eval.bind_eq_ok h
  obtain ⟨pal, hpal, h⟩ := Eval.bind_eq_ok h
  obtain ⟨-, -, h⟩ := Eval.bind_eq_ok h
  -- the formatters accept addresses of 6 and of 4 bytes, and the lengths were read from the header
  obtain ⟨sha, hsha, h⟩ := Eval.bind_eq_ok h
  obtain ⟨smac, hsmac, h⟩ := Eval.bind_eq_ok h
  obtain ⟨spa, hspa, h⟩ := Eval.bind_eq_ok h
  obtain ⟨sip, hsip, -⟩ := Eval.bind_eq_ok h
  rw [senderHardwareAddress, hhal, Eval.ok_bind] at hsha
  rw [senderProtocolAddress, hhal, Eval.ok_bind, hpal, Eval.ok_bind] at hspa
  have hhal6 : hal.toNat = 6 :=
    (length_getAddress hsha).symm.trans (length_of_macAddressToString hsmac)
  have hpal4 : pal.toNat = 4 := (length_getAddress hspa).symm.trans (length_of_ipV4ToString hsip)
  obtain rfl : hal = 6 := UInt8.toNat_inj.mp hhal6
  obtain rfl : pal = 4 := UInt8.toNat_inj.mp hpal4
  exact ⟨hhal, hpal⟩

/-- Every vector long enough, with these lengths in its header, is a packet and padding. -/
theorem exists_encode {data : Bytes} (h : 28 ≤ data.length) (hhal : u8 data 4 = 6)
    (hpal : u8 data 5 = 4) :
    ∃ (p : ArpPacket) (pad : Bytes), data = p.encode ++ pad ∧ p.protocolType = u16 data 2 ∧
      p.operationCode = u16 data 6 ∧ p.targetProtocol = u32 data 24 := by
  obtain ⟨front, pad, hfront, rfl⟩ : ∃ front pad : Bytes, front.length = 28 ∧ data = front ++ pad :=
    ⟨data.take 28, data.drop 28, by simp [h], (List.take_append_drop 28 data).symm⟩
  match front, hfront, hhal, hpal with
  | [b0, b1, b2, b3, b4, b5, b6, b7, b8, b9, b10, b11, b12, b13, b14, b15, b16, b17, b18, b19, b20,
      b21, b22, b23, b24, b25, b26, b27], _, hhal, hpal =>
    obtain rfl : b4 = 6 := hhal
    obtain rfl : b5 = 4 := hpal
    refine ⟨⟨join16 b0 b1, join16 b2 b3, join16 b6 b7, ⟨[b8, b9, b10, b11, b12, b13], rfl⟩,
      join32 b14 b15 b16 b17, ⟨[b18, b19, b20, b21, b22, b23], rfl⟩, join32 b24 b25 b26 b27⟩, pad,
      ?_, rfl, rfl, rfl⟩
    simp [ArpPacket.encode, arpHeader, be16_join16, be32_join32]

end ArpData

/-! ## What is sent -/

/-- A request for `ip`. -/
def ArpPacket.request (address : EtherAddr) (unicast ip : UInt32) : ArpPacket where
  hardwareType := 1
  protocolType := 0x0800
  operationCode := 1
  senderHardware := address
  senderProtocol := unicast
  targetHardware := ⟨List.replicate 6 0, rfl⟩
  targetProtocol := ip

/-- The reply to a packet: its sender becomes the target. -/
def ArpPacket.reply (address : EtherAddr) (unicast : UInt32) (p : ArpPacket) : ArpPacket where
  hardwareType := 1
  protocolType := 0x0800
  operationCode := 2
  senderHardware := address
  senderProtocol := unicast
  targetHardware := p.senderHardware
  targetProtocol := p.senderProtocol

theorem arpDataFactory_eq (op : ℕ) :
    arpDataFactory arpHardwareTypeEther arpProtocolTypeIp etherAddressLen ipAddressLen op =
      .ok (arpHeader 1 0x0800 6 4 (UInt16.ofNat op) ++ List.replicate 6 0 ++ List.replicate 4 0 ++
        List.replicate 6 0 ++ List.replicate 4 0) := rfl

theorem arpRequest_eq (cfg : Config) (interface : IpNetworkInterface) (ip : UInt32) (s : Stack) :
    (arpRequest cfg interface ip).run s =
      .done { s with sent := s.sent ++ [EtherDevice.frameBytes cfg.address
        (ArpPacket.request cfg.address interface.unicast ip).encode EtherDevice.broadcastAddress
        arpType] } 0 := by
  have ha : (EtherDevice.getAddress cfg).length = 6 := cfg.address.length_val
  have hbytes : arpHeader 1 0x0800 6 4 (UInt16.ofNat opRequest) ++ EtherDevice.getAddress cfg ++
      interface.getUnicastVector ++ List.replicate etherAddressLen 0 ++ uint32ToVector ip =
        (ArpPacket.request cfg.address interface.unicast ip).encode ++ [] := by
    rw [List.append_nil]
    rfl
  rw [arpRequest, arpDataFactory_eq, Comp.lift_ok_bind,
    setSenderHardwareAddress_eq _ _ _ _ _ (by rfl) ha, Comp.lift_ok_bind,
    setSenderProtocolAddress_eq _ _ _ _ _ ha (by rfl) (by rfl), Comp.lift_ok_bind,
    setTargetHardwareAddress_eq _ _ _ _ _ ha (by rfl) (by rfl) (by rfl), Comp.lift_ok_bind,
    setTargetProtocolAddress_eq _ _ _ _ _ ha (by rfl) (by rfl) (by rfl) (by rfl), Comp.lift_ok_bind,
    hbytes,
    arpDump_encode, Comp.lift_ok_bind, List.append_nil,
    Comp.bind_done (EtherDevice.transmit_eq cfg _ _ s rfl
      (Nat.le_succ_of_le (ArpPacket.encode_fits _)))]
  rfl

theorem arpReply_eq (cfg : Config) (interface : IpNetworkInterface) (p : ArpPacket) (pad : Bytes)
    (s : Stack) :
    (arpReply cfg interface (p.encode ++ pad)).run s =
      .done { s with sent := s.sent ++ [EtherDevice.frameBytes cfg.address
        (ArpPacket.reply cfg.address interface.unicast p).encode p.senderHardware.val
        arpType] } 0 := by
  have ha : (EtherDevice.getAddress cfg).length = 6 := cfg.address.length_val
  have hbytes : arpHeader 1 0x0800 6 4 (UInt16.ofNat opReply) ++ EtherDevice.getAddress cfg ++
      interface.getUnicastVector ++ p.senderHardware.val ++ be32 p.senderProtocol =
        (ArpPacket.reply cfg.address interface.unicast p).encode ++ [] := by
    rw [List.append_nil]
    rfl
  rw [arpReply, senderHardwareAddress_encode, senderProtocolAddress_encode, arpDataFactory_eq,
    Comp.lift_ok_bind,
    setSenderHardwareAddress_eq _ _ _ _ _ (by rfl) ha, Comp.lift_ok_bind,
    setSenderProtocolAddress_eq _ _ _ _ _ ha (by rfl) (by rfl), Comp.lift_ok_bind,
    Comp.lift_ok_bind,
    setTargetHardwareAddress_eq _ _ _ _ _ ha (by rfl) (by rfl) p.senderHardware.length_val,
    Comp.lift_ok_bind, Comp.lift_ok_bind,
    setTargetProtocolAddress_eq _ _ _ _ _ ha (by rfl) p.senderHardware.length_val (by rfl) (by rfl),
    Comp.lift_ok_bind, hbytes, arpDump_encode, Comp.lift_ok_bind, Comp.lift_ok_bind,
    List.append_nil,
    Comp.bind_done (EtherDevice.transmit_eq cfg _ _ s p.senderHardware.length_val
      (Nat.le_succ_of_le (ArpPacket.encode_fits _)))]
  rfl

/-! ## The cache, as it is used -/

namespace ArpCache

variable {cache : List CacheData} {c d : CacheData} {a : UInt32}

theorem select_eq_some (h : select cache a = some d) : d ∈ cache ∧ d.protocolAddress = a := by
  have hp := List.find?_some h
  exact ⟨List.mem_of_find?_eq_some h, of_decide_eq_true hp⟩

/-- Only the new entry is new. -/
theorem mem_create (h : d ∈ create cache c) : d ∈ cache ∨ d = c := by
  unfold create at h
  split at h
  · exact Or.inl h
  · rcases List.mem_append.mp h with h | h
    · exact Or.inl h
    · exact Or.inr (List.mem_singleton.mp h)

/-- The cache only grows: what was found is still found. -/
theorem select_create_of_some (h : select cache a = some d) :
    select (create cache c) a = some d := by
  unfold create
  split
  · exact h
  · rw [select, List.find?_append]
    rw [select] at h
    rw [h]
    rfl

/-- After `create` there is an entry for the address. -/
theorem exists_select_create : ∃ d, select (create cache c) c.protocolAddress = some d := by
  unfold create
  split
  · rename_i d hd
    exact ⟨d, hd⟩
  · rename_i hnone
    rw [select] at hnone
    exact ⟨c, by rw [select, List.find?_append, hnone]; simp⟩

end ArpCache

theorem arpRequest_keeps {Q : Stack → Prop} (hQ : IgnoresOutput Q) (cfg : Config)
    (interface : IpNetworkInterface) (ip : UInt32) : (arpRequest cfg interface ip).Keeps Q := by
  intro s t hs ht
  rw [arpRequest_eq] at ht
  cases ht
  exact hQ s s.ipId _ hs

theorem arpResolve_keeps {Q : Stack → Prop} (hQ : IgnoresOutput Q) (cfg : Config)
    (interface : IpNetworkInterface) (ip : UInt32) : (arpResolve cfg interface ip).Keeps Q := by
  refine Comp.Keeps.read fun s _ => ?_
  cases ArpCache.select s.arpCache ip with
  | some c => exact Comp.Keeps.pure _
  | none => exact (arpRequest_keeps hQ cfg interface ip).bind fun _ => Comp.Keeps.throw _

theorem arpReply_keeps {Q : Stack → Prop} (hQ : IgnoresOutput Q) (cfg : Config)
    (interface : IpNetworkInterface) (requestData : Bytes) :
    (arpReply cfg interface requestData).Keeps Q := by
  refine (Comp.Keeps.lift _).bind fun _ => (Comp.Keeps.lift _).bind fun _ => ?_
  refine (Comp.Keeps.lift _).bind fun _ => (Comp.Keeps.lift _).bind fun _ => ?_
  refine (Comp.Keeps.lift _).bind fun _ => (Comp.Keeps.lift _).bind fun _ => ?_
  refine (Comp.Keeps.lift _).bind fun _ => (Comp.Keeps.lift _).bind fun _ => ?_
  refine (Comp.Keeps.lift _).bind fun _ => ?_
  exact (EtherDevice.transmit_keeps hQ cfg _ _ _).bind fun _ => Comp.Keeps.pure _

/-- **A hit.** The cached address comes back and nothing is sent. -/
theorem arpResolve_hit {cfg : Config} {interface : IpNetworkInterface} {ip : UInt32} {s : Stack}
    {c : CacheData} (h : ArpCache.select s.arpCache ip = some c) :
    (arpResolve cfg interface ip).run s = .done s c.hardwareAddress := by
  rw [arpResolve, Comp.run_get_bind, h]
  rfl

/-- **A miss.** A request is broadcast and the caller gets the exception. -/
theorem arpResolve_miss {cfg : Config} {interface : IpNetworkInterface} {ip : UInt32} {s : Stack}
    (h : ArpCache.select s.arpCache ip = none) :
    (arpResolve cfg interface ip).run s =
      .threw { s with sent := s.sent ++ [EtherDevice.frameBytes cfg.address
        (ArpPacket.request cfg.address interface.unicast ip).encode EtherDevice.broadcastAddress
        arpType] } (.arpResolveException "not find arp cache. call arp reqest") := by
  rw [arpResolve, Comp.run_get_bind, h]
  exact Comp.bind_done (arpRequest_eq cfg interface ip s)

/-- Every hardware address in the cache is an Ethernet address. -/
def EtherCache (s : Stack) : Prop := ∀ c ∈ s.arpCache, c.hardwareAddress.length = etherAddrLen

/-- The cache entry the sender of a packet makes. -/
def ArpPacket.sender (p : ArpPacket) : CacheData := ⟨p.senderProtocol, p.senderHardware.val⟩

namespace ArpProtocolHandler

/-- The state after a packet for this host: its sender is cached, a request is answered. -/
def afterPacket (address : EtherAddr) (unicast : UInt32) (p : ArpPacket) (s : Stack) : Stack :=
  { s with
    arpCache := ArpCache.create s.arpCache p.sender
    sent := if p.operationCode = 1 then
        s.sent ++ [EtherDevice.frameBytes address (ArpPacket.reply address unicast p).encode
          p.senderHardware.val arpType]
      else s.sent }

theorem handleOn_packet (cfg : Config) (interface : IpNetworkInterface) (p : ArpPacket)
    (pad : Bytes) (s : Stack) :
    (handleOn cfg interface (p.encode ++ pad)).run s =
      if p.targetProtocol = interface.unicast then
        .done (afterPacket cfg.address interface.unicast p s) 0
      else .threw s (.runtimeError s!"not support protocol address size = {ipAddrLen}") := by
  have hread : ∀ v : UInt32, readUint32 (be32 v) 0 = .ok v := fun v =>
    congrArg Except.ok (join32_be32 v)
  have hlen : ∀ v : UInt32, ¬ (be32 v).length ≠ ipAddrLen := fun v hne => hne rfl
  rw [handleOn, targetProtocolAddress_encode, Comp.lift_ok_bind, if_neg (hlen _), hread,
    Comp.lift_ok_bind]
  by_cases heq : p.targetProtocol = interface.unicast
  · rw [if_pos heq, if_neg (not_not.mpr heq), senderProtocolAddress_encode, Comp.lift_ok_bind,
      if_neg (hlen _), hread, Comp.lift_ok_bind, senderHardwareAddress_encode, Comp.lift_ok_bind,
      Comp.run_get_bind, Comp.run_set_bind, operationCode_encode, Comp.lift_ok_bind, afterPacket]
    by_cases hop : p.operationCode = 1
    · have hcode : p.operationCode = UInt16.ofNat opRequest := hop
      rw [if_pos hop, if_pos hcode, Comp.bind_done (arpReply_eq cfg interface p pad _)]
      rfl
    · have hcode : ¬ p.operationCode = UInt16.ofNat opRequest := hop
      rw [if_neg hop, if_neg hcode]
      rfl
  · rw [if_neg heq, if_pos heq]
    rfl

/-- **Every packet.** What is not for IP is rejected, then what is not for this host; the rest is
learned from. The hardware type is never looked at. -/
theorem handle_packet (address : EtherAddr) (unicast gateway : UInt32) (type : UInt16)
    (p : ArpPacket) (pad : Bytes) (s : Stack) :
    (handle (Config.ofMain address unicast gateway) ⟨type, p.encode ++ pad⟩).run s =
      if p.protocolType ≠ etherTypeIp then .threw s (.runtimeError "not support protocol")
      else if p.targetProtocol = unicast then .done (afterPacket address unicast p s) 0
      else .threw s (.runtimeError s!"not support protocol address size = {ipAddrLen}") := by
  rw [handle, arpDump_encode, Comp.lift_ok_bind, protocolAddressLength_encode, Comp.lift_ok_bind,
    protocolType_encode, Comp.lift_ok_bind]
  by_cases hip : p.protocolType = etherTypeIp
  · have hpass : ¬ ((4 : UInt8).toNat ≠ ipAddrLen ∨ p.protocolType ≠ etherTypeIp) := by
      rintro (hne | hne)
      · exact hne rfl
      · exact hne hip
    rw [if_neg hpass, if_neg hpass, if_neg (not_not.mpr hip), Device.getTargetInterface_ofMain,
      Comp.lift_ok_bind]
    exact handleOn_packet _ _ p pad s
  · rw [if_pos (Or.inr hip), if_pos hip]
    rfl

theorem handleOn_keeps (cfg : Config) (interface : IpNetworkInterface) {arpData : Bytes}
    (hhal : hardwareAddressLength arpData = .ok 6) :
    (handleOn cfg interface arpData).Keeps EtherCache := by
  refine (Comp.Keeps.lift _).bind fun address => ?_
  split
  · exact Comp.Keeps.throw _
  refine (Comp.Keeps.lift _).bind fun targetProtocolAddress => ?_
  split
  · exact Comp.Keeps.throw _
  refine (Comp.Keeps.lift _).bind fun senderAddress => ?_
  split
  · exact Comp.Keeps.throw _
  refine (Comp.Keeps.lift _).bind fun senderProtocolAddress => ?_
  refine Comp.Keeps.lift_bind fun hardwareAddress hha => Comp.Keeps.read fun s hs => ?_
  have hlearned : EtherCache { s with
      arpCache := ArpCache.create s.arpCache ⟨senderProtocolAddress, hardwareAddress⟩ } := by
    intro c hc
    rcases ArpCache.mem_create hc with hc | rfl
    · exact hs c hc
    · rw [senderHardwareAddress, hhal, Eval.ok_bind] at hha
      exact length_getAddress hha
  refine (Comp.Keeps.set hlearned).bind fun _ => (Comp.Keeps.lift _).bind fun operationCode => ?_
  split
  · exact (arpReply_keeps (fun _ _ _ h => h) cfg interface arpData).bind fun _ => Comp.Keeps.pure _
  · exact Comp.Keeps.pure _

/-- Whatever the body, what the handler learns is an Ethernet address: the log lines let nothing
else through. -/
theorem handle_keeps (cfg : Config) (pd : ProtocolData) : (handle cfg pd).Keeps EtherCache := by
  refine Comp.Keeps.lift_bind fun _ hdump => ?_
  refine (Comp.Keeps.lift _).bind fun _ => (Comp.Keeps.lift _).bind fun _ => ?_
  -- one split is enough for both tests
  split
  · exact Comp.Keeps.throw _
  refine (Comp.Keeps.lift _).bind fun interface => ?_
  cases interface with
  | ip interface => exact handleOn_keeps cfg interface (arpDump_eq_ok hdump).1
  | other family => exact Comp.Keeps.throw _

/-- **Every body.** A body that can hold a packet is handled without an exception exactly when it is
a packet for 6-byte and 4-byte addresses, for IP, and for this host. -/
theorem handle_done_iff {address : EtherAddr} {unicast gateway : UInt32} {pd : ProtocolData}
    {s : Stack} (hlen : 28 ≤ pd.data.length) :
    (∃ t v, (handle (Config.ofMain address unicast gateway) pd).run s = .done t v) ↔
      u8 pd.data 4 = 6 ∧ u8 pd.data 5 = 4 ∧ u16 pd.data 2 = etherTypeIp ∧
        u32 pd.data 24 = unicast := by
  refine ⟨?_, ?_⟩
  · rintro ⟨t, v, h⟩
    -- the log lines, not the checks, settle the two lengths
    obtain ⟨_, hdump, -⟩ := Comp.lift_bind_eq_done h
    obtain ⟨hhal, hpal⟩ := arpDump_eq_ok hdump
    rw [hardwareAddressLength, readUint8_eq (by omega)] at hhal
    rw [protocolAddressLength, readUint8_eq (by omega)] at hpal
    obtain ⟨p, pad, hdata, hpt, -, htp⟩ :=
      exists_encode hlen (Except.ok.inj hhal) (Except.ok.inj hpal)
    refine ⟨Except.ok.inj hhal, Except.ok.inj hpal, ?_⟩
    obtain ⟨type, data⟩ := pd
    obtain rfl : data = p.encode ++ pad := hdata
    rw [handle_packet] at h
    split at h
    · cases h
    · rename_i hip
      split at h
      · rename_i huni
        exact ⟨hpt.symm.trans (not_not.mp hip), htp.symm.trans huni⟩
      · cases h
  · rintro ⟨hhal, hpal, hip, huni⟩
    obtain ⟨p, pad, hdata, hpt, -, htp⟩ := exists_encode hlen hhal hpal
    obtain ⟨type, data⟩ := pd
    obtain rfl : data = p.encode ++ pad := hdata
    refine ⟨afterPacket address unicast p s, 0, ?_⟩
    rw [handle_packet, if_neg (fun hne => hne (hpt.trans hip)), if_pos (htp.trans huni)]

end ArpProtocolHandler

end Suika
