import Suika.IpUtils
import Suika.EtherFrame
import Suika.UdpControlBlock

/-!
# Interfaces, routes, the device and the state of the stack

`lib/Device.h`, `lib/IpNetworkInterface.h`, `lib/RouteTable.h`, `lib/ArpCache.h` and
`EtherDevice::transmit`. What `main` sets up once is a `Config`: one device with its interfaces, and
the routes. Every interface was registered with that device, so `interface->devicePtr` is the device
of the `Config`. What changes while the program runs is a `Stack`.
-/

namespace Suika

open Cpp BinaryPayload

abbrev etherTypeIp : UInt16 := 0x0800

/-- `protocol::arpType` -/
abbrev arpType : UInt16 := 0x0806

/-- `protocol::ipType` -/
abbrev ipType : UInt16 := 0x0800

/-- `ether::IP_ADDR_LEN` -/
abbrev ipAddrLen : ℕ := 4

/-- `network::INTERFACE_FAMILY_IP` -/
abbrev interfaceFamilyIp : ℤ := 1

structure IpNetworkInterface : Type where
  family : ℤ
  unicast : UInt32
  deriving DecidableEq

/-- `network::NetworkInterface`, as `dynamic_pointer_cast` sees it: an `IpNetworkInterface` or an
object of another class. -/
inductive NetworkInterface : Type where
  | ip (interface : IpNetworkInterface)
  | other (family : ℤ)

def NetworkInterface.family : NetworkInterface → ℤ
  | .ip interface => interface.family
  | .other family => family

/-- `routeTable::Route`. The source also stores a network and a mask, which `lookup` does not
read. -/
structure Route : Type where
  gateway : UInt32
  interface : IpNetworkInterface

/-- What is set up once: the address and the interfaces of the device, and the routes. -/
structure Config : Type where
  address : EtherAddr
  networkInterfaces : List NetworkInterface
  routes : List Route

/-- The set-up of `main`: one interface on the device, one route over it. -/
def Config.ofMain (address : EtherAddr) (unicast gateway : UInt32) : Config :=
  let ipInterface : IpNetworkInterface := ⟨interfaceFamilyIp, unicast⟩
  { address, networkInterfaces := [.ip ipInterface], routes := [⟨gateway, ipInterface⟩] }

/-- The address `main` gives its device. -/
def exampleAddress : EtherAddr := ⟨[0x00, 0x00, 0x5e, 0x00, 0x53, 0x01], rfl⟩

/-- The address of another host. -/
def peerAddress : EtherAddr := ⟨[0x00, 0x00, 0x5e, 0x00, 0x53, 0x02], rfl⟩

/-- The set-up of `main` with its own addresses. -/
def exampleConfig : Config := Config.ofMain exampleAddress 0xC0000202 0xC0000201

/-- `arp::CacheData` -/
structure CacheData : Type where
  protocolAddress : UInt32
  hardwareAddress : Bytes
  deriving DecidableEq

/-- What changes at run time. `ipId` is the static counter of `ip_gen_id`; `sent` are the frames
written to the device so far. -/
structure Stack : Type where
  arpCache : List CacheData
  udpPcbMgr : UdpPcbManager
  ipId : UInt16
  sent : List Bytes

/-- The state the program starts in. -/
def Stack.init : Stack := ⟨[], UdpPcbManager.init, 128, []⟩

/-- A call over the state of the stack. -/
abbrev Call (α : Type) : Type := Comp Err Stack α

/-- A property of the state that says nothing about frames sent and the counter of `ip_gen_id`:
every path that only sends keeps it. -/
def IgnoresOutput (Q : Stack → Prop) : Prop :=
  ∀ s ipId sent, Q s → Q { s with ipId := ipId, sent := sent }

/-- Throw a `std::runtime_error` from a call. -/
def throwRuntime {α : Type} (what : String) : Call α := Comp.throw (.runtimeError what)

namespace Device

/-- `Device::getTargetInterface` -/
def getTargetInterface (cfg : Config) (family : ℤ) : Eval Err NetworkInterface :=
  match cfg.networkInterfaces.find? (fun interface => interface.family = family) with
  | some interface => .ok interface
  | none => runtimeError "interface not found"

theorem getTargetInterface_ofMain (address : EtherAddr) (unicast gateway : UInt32) :
    getTargetInterface (Config.ofMain address unicast gateway) interfaceFamilyIp =
      .ok (.ip ⟨interfaceFamilyIp, unicast⟩) := rfl

end Device

/-- `RouteTable::lookup`: the first route, whatever the destination. -/
def Config.lookup (cfg : Config) (_dst : UInt32) : Eval Err Route :=
  match cfg.routes with
  | route :: _ => .ok route
  | [] => Eval.undefined

/-- `IpNetworkInterface::getUnicastVector` -/
def IpNetworkInterface.getUnicastVector (interface : IpNetworkInterface) : Bytes :=
  [(interface.unicast >>> 24).toUInt8, (interface.unicast >>> 16).toUInt8,
    (interface.unicast >>> 8).toUInt8, interface.unicast.toUInt8]

namespace EtherDevice

/-- `EtherDevice::getAddress` -/
def getAddress (cfg : Config) : Bytes := cfg.address.val

/-- `EtherDevice::broadcastAddress` -/
def broadcastAddress : Bytes := [0xff, 0xff, 0xff, 0xff, 0xff, 0xff]

/-- `EtherDevice::transmit`; `write` puts the frame on the wire. -/
def transmit (cfg : Config) (data dst : Bytes) (type : UInt16) : Call ℤ :=
  if dst.length ≠ etherAddrLen then throwRuntime "error"
  else do
    let frame ← frame cfg.address data dst type
    let _ ← EtherFrame.info frame
    let s ← Comp.get
    Comp.set { s with sent := s.sent ++ [frame] }
    return 0

/-- The frame that leaves the device, in closed form. -/
def frameBytes (address : EtherAddr) (data dst : Bytes) (type : UInt16) : Bytes :=
  dst ++ address.val ++ be16 type ++ data ++ List.replicate (46 - data.length) 0

theorem transmit_eq (cfg : Config) (data : Bytes) {dst : Bytes} (type : UInt16) (s : Stack)
    (hd : dst.length = 6) (hfit : data.length ≤ 2147483634) :
    (transmit cfg data dst type).run s =
      .done { s with sent := s.sent ++ [frameBytes cfg.address data dst type] } 0 := by
  have hinfo : EtherFrame.info (frameBytes cfg.address data dst type) = .ok () := by
    rw [frameBytes, EtherFrame.info, EtherFrame.srcAddr_frame _ _ _ _ hd,
      EtherFrame.dstAddr_frame _ _ _ _ hd, EtherFrame.etherType_frame _ _ _ _ hd]
    rfl
  rw [transmit, if_neg (fun hne => hne hd), frame_eq cfg.address data type hd hfit]
  change (liftM (EtherFrame.info (frameBytes cfg.address data dst type)) >>= _ : Call ℤ).run s = _
  rw [hinfo]
  rfl

/-- More data than an `int` indexes is not framed. -/
theorem transmit_undefined (cfg : Config) {data dst : Bytes} (type : UInt16) (s : Stack)
    (hd : dst.length = 6) (hlong : 2147483634 < data.length) :
    (transmit cfg data dst type).run s = .undef := by
  rw [transmit, if_neg (fun hne => hne hd), frame_undefined cfg.address type hd hlong]
  rfl

/-- The length check is the only throw of `transmit`. -/
theorem transmit_ne_threw (cfg : Config) (data : Bytes) {dst : Bytes} (type : UInt16)
    (s t : Stack) (e : Err) (hd : dst.length = 6) :
    (transmit cfg data dst type).run s ≠ .threw t e := by
  by_cases hfit : data.length ≤ 2147483634
  · rw [transmit_eq cfg data type s hd hfit]
    exact nofun
  · rw [transmit_undefined cfg type s hd (Nat.lt_of_not_le hfit)]
    exact nofun

theorem transmit_keeps {Q : Stack → Prop} (hQ : IgnoresOutput Q) (cfg : Config) (data dst : Bytes)
    (type : UInt16) : (transmit cfg data dst type).Keeps Q := by
  unfold transmit
  split
  · exact Comp.Keeps.throw _
  · refine (Comp.Keeps.lift _).bind fun frame => (Comp.Keeps.lift _).bind fun _ => ?_
    refine Comp.Keeps.read fun s hs => ?_
    exact (Comp.Keeps.set (hQ s s.ipId _ hs)).bind fun _ => Comp.Keeps.pure _

end EtherDevice

end Suika
