import Suika.Ipv4

/-!
# ICMP

`lib/IcmpData.h` and `lib/Icmp.cpp`. The handler answers echo requests; the answer goes through
`ipv4_output`, whose ARP exception `sendIcmp` catches and `replyIcmp` does not.

Both the log line and the checksum test run before anything looks at the size of the data: data of
fewer than 8 bytes, or of odd length, leaves defined behaviour.
-/

namespace Suika

open Cpp BinaryPayload OnesComplement

/-- `TYPE_ECHO_REPLY` -/
abbrev typeEchoReply : UInt8 := 0

/-- `TYPE_ECHO` -/
abbrev typeEcho : UInt8 := 8

/-! ## `IcmpDataEcho` -/

namespace IcmpDataEcho

def type (data : Bytes) : Eval Err UInt8 := readUint8 data 0

def setType (data : Bytes) (value : UInt8) : Eval Err Bytes := writeUint8 data value 0

def code (data : Bytes) : Eval Err UInt8 := readUint8 data 1

def setCode (data : Bytes) (value : UInt8) : Eval Err Bytes := writeUint8 data value 1

def checksum (data : Bytes) : Eval Err UInt16 := readUint16 data 2

def setChecksum (data : Bytes) (value : UInt16) : Eval Err Bytes := writeUint16 data value 2

def identifier (data : Bytes) : Eval Err UInt16 := readUint16 data 4

def setIdentifier (data : Bytes) (value : UInt16) : Eval Err Bytes := writeUint16 data value 4

def sequenceNumber (data : Bytes) : Eval Err UInt16 := readUint16 data 6

def setSequenceNumber (data : Bytes) (value : UInt16) : Eval Err Bytes := writeUint16 data value 6

/-- The fields the log line of `info` reads; its text goes nowhere. -/
def info (data : Bytes) : Eval Err Unit := do
  let _ ← type data
  let _ ← code data
  let _ ← checksum data
  let _ ← identifier data
  let _ ← sequenceNumber data

end IcmpDataEcho

/-! ## Requests, replies and the handler -/

/-- `sendIcmp`: the caller never hears of a failed ARP resolution. -/
def sendIcmp (cfg : Config) (identifier sequenceNumber : UInt16) (dst : UInt32)
    (ipNetworkInterface : IpNetworkInterface) : Call ℤ := do
  let echo ← IcmpDataEcho.setIdentifier (List.replicate 8 0) identifier
  let echo ← IcmpDataEcho.setSequenceNumber echo sequenceNumber
  let echo ← IcmpDataEcho.setType echo typeEcho
  let echo ← IcmpDataEcho.setCode echo 0
  let echo ← IcmpDataEcho.setChecksum echo 0
  let checksum := ~~~ (← calculateChecksum echo 0 (intOfSize echo.length))
  let echo ← IcmpDataEcho.setChecksum echo checksum
  IcmpDataEcho.info echo
  let _ ← (ipv4Output cfg icmpType echo ipNetworkInterface.unicast dst).catching fun
    | .arpResolveException _ => some (pure 0)
    | _ => none
  return 0

def replyIcmp (cfg : Config) (request : Bytes) (dst : UInt32)
    (ipNetworkInterface : IpNetworkInterface) : Call ℤ := do
  let reply ← IcmpDataEcho.setType request typeEchoReply
  let reply ← IcmpDataEcho.setChecksum reply 0
  let checksum := ~~~ (← calculateChecksum reply 0 (intOfSize reply.length))
  let reply ← IcmpDataEcho.setChecksum reply checksum
  IcmpDataEcho.info reply
  let _ ← ipv4Output cfg icmpType reply ipNetworkInterface.unicast dst
  return 0

/-- `IcmpHandler::handle` -/
def IcmpHandler.handle (cfg : Config) (protocolData : Ipv4ProtocolData) : Call ℤ := do
  let d := protocolData.data
  IcmpDataEcho.info d
  let valid ← verifyChecksum d 0 (intOfSize d.length)
  if valid = false then throwRuntime "invalid icmp payload"
  else
    let type ← IcmpDataEcho.type d
    if type = typeEcho then
      let _ ← replyIcmp cfg d protocolData.src protocolData.interface
      return 0
    else if type = typeEchoReply then
      IcmpDataEcho.info d
      return 0
    else return 0

/-! ## What the handler does -/

theorem replyIcmp_keeps {Q : Stack → Prop} (hQ : IgnoresOutput Q) (cfg : Config) (request : Bytes)
    (dst : UInt32) (ipNetworkInterface : IpNetworkInterface) :
    (replyIcmp cfg request dst ipNetworkInterface).Keeps Q := by
  refine (Comp.Keeps.lift _).bind fun _ => (Comp.Keeps.lift _).bind fun _ => ?_
  refine (Comp.Keeps.lift _).bind fun _ => (Comp.Keeps.lift _).bind fun _ => ?_
  refine (Comp.Keeps.lift _).bind fun _ => ?_
  exact (ipv4Output_keeps hQ cfg _ _ _ _).bind fun _ => Comp.Keeps.pure _

theorem IcmpHandler.handle_keeps {Q : Stack → Prop} (hQ : IgnoresOutput Q) (cfg : Config)
    (protocolData : Ipv4ProtocolData) : (IcmpHandler.handle cfg protocolData).Keeps Q := by
  refine (Comp.Keeps.lift _).bind fun _ => (Comp.Keeps.lift _).bind fun valid => ?_
  split
  · exact Comp.Keeps.throw _
  refine (Comp.Keeps.lift _).bind fun type => ?_
  split
  · exact (replyIcmp_keeps hQ cfg _ _ _).bind fun _ => Comp.Keeps.pure _
  split
  · exact (Comp.Keeps.lift _).bind fun _ => Comp.Keeps.pure _
  · exact Comp.Keeps.pure _

namespace IcmpHandler

variable {cfg : Config} {interface : IpNetworkInterface} {d : Bytes} {src dst : UInt32} {s : Stack}

theorem info_eq (h8 : 8 ≤ d.length) : IcmpDataEcho.info d = .ok () := by
  rw [IcmpDataEcho.info, IcmpDataEcho.type, readUint8_eq (by omega), IcmpDataEcho.code,
    readUint8_eq (by omega), IcmpDataEcho.checksum, readUint16_eq (by omega),
    IcmpDataEcho.identifier, readUint16_eq (by omega), IcmpDataEcho.sequenceNumber,
    readUint16_eq (by omega)]
  rfl

/-- The log line reads the first 8 bytes. -/
theorem length_of_info (h : IcmpDataEcho.info d = .ok ()) : 8 ≤ d.length := by
  by_contra hlt
  obtain ⟨-, -, h⟩ := Eval.bind_eq_ok h
  obtain ⟨-, -, h⟩ := Eval.bind_eq_ok h
  obtain ⟨-, -, h⟩ := Eval.bind_eq_ok h
  obtain ⟨-, -, h⟩ := Eval.bind_eq_ok h
  obtain ⟨w, hseq, -⟩ := Eval.bind_eq_ok h
  obtain ⟨hi, -, hseq⟩ := Eval.bind_eq_ok hseq
  obtain ⟨lo, hlo, -⟩ := Eval.bind_eq_ok hseq
  rw [byteAt_undefined (by omega)] at hlo
  cases hlo

/-- The reply to a request: type and checksum are rewritten, everything else is echoed. -/
def replyBytes (request : Bytes) : Bytes :=
  let zeroed := patch (patch request 0 [typeEchoReply]) 2 (be16 0)
  patch zeroed 2 (be16 (~~~ UInt16.ofNat (fold16 (wordSum zeroed))))

theorem length_replyBytes (h8 : 8 ≤ d.length) : (replyBytes d).length = d.length := by
  have htype : (patch d 0 [typeEchoReply]).length = d.length := length_patch (by simp; omega)
  have hzero : (patch (patch d 0 [typeEchoReply]) 2 (be16 0)).length = d.length := by
    rw [length_patch (by rw [htype, length_be16]; omega), htype]
  rw [replyBytes, length_patch (by rw [hzero, length_be16]; omega), hzero]

/-- A reply is an IPv4 output of the rewritten request. -/
theorem replyIcmp_eq (h8 : 8 ≤ d.length) (hev : d.length % 2 = 0) (hd : d.length ≤ 65515) :
    replyIcmp cfg d dst interface =
      (ipv4Output cfg icmpType (replyBytes d) interface.unicast dst >>= fun _ => pure 0) := by
  have htype : (patch d 0 [typeEchoReply]).length = d.length := length_patch (by simp; omega)
  have hzero : (patch (patch d 0 [typeEchoReply]) 2 (be16 0)).length = d.length := by
    rw [length_patch (by rw [htype, length_be16]; omega), htype]
  have hlen := length_replyBytes h8
  rw [replyIcmp, IcmpDataEcho.setType, writeUint8, write_eq _ (by omega), Comp.lift_ok_bind,
    IcmpDataEcho.setChecksum, writeUint16_eq _ (by omega), Comp.lift_ok_bind,
    calculateChecksum_all (by omega) (by omega), Comp.lift_ok_bind]
  dsimp only
  rw [IcmpDataEcho.setChecksum, writeUint16_eq _ (by omega), Comp.lift_ok_bind]
  have hinfo : IcmpDataEcho.info (replyBytes d) = .ok () := info_eq (by omega)
  rw [replyBytes] at hinfo ⊢
  rw [hinfo, Comp.lift_ok_bind]

/-- **Every request** of even length with room for a header. -/
theorem handle_eq (h8 : 8 ≤ d.length) (hev : d.length % 2 = 0) (hd : d.length ≤ 65515) :
    (handle cfg ⟨icmpType, d, src, dst, interface⟩).run s =
      if fold16 (wordSum d) ≠ 65535 then .threw s (.runtimeError "invalid icmp payload")
      else if u8 d 0 = typeEcho then
        (ipv4Output cfg icmpType (replyBytes d) interface.unicast src >>= fun _ => pure 0).run s
      else .done s 0 := by
  have htype : IcmpDataEcho.type d = .ok (u8 d 0) := readUint8_eq (by omega)
  rw [handle, info_eq h8, Comp.lift_ok_bind, verifyChecksum_all hev (by omega), Comp.lift_ok_bind]
  by_cases hv : fold16 (wordSum d) = 65535
  · rw [if_neg (not_not.mpr hv), if_neg (by simpa using hv), htype, Comp.lift_ok_bind]
    by_cases hecho : u8 d 0 = typeEcho
    · rw [if_pos hecho, if_pos hecho, replyIcmp_eq h8 hev hd, Comp.bind_assoc]
      rfl
    · rw [if_neg hecho, if_neg hecho]
      split <;> rfl
  · rw [if_pos hv, if_pos (by simpa using hv)]
    rfl

/-- A handler that returns had a header to read and an even number of bytes to sum. -/
theorem size_of_handle_done {t : Stack} {v : ℤ} (hd : d.length ≤ 65515)
    (h : (handle cfg ⟨icmpType, d, src, dst, interface⟩).run s = .done t v) :
    8 ≤ d.length ∧ d.length % 2 = 0 := by
  obtain ⟨_, hinfo, h⟩ := Comp.lift_bind_eq_done h
  obtain ⟨valid, hverify, -⟩ := Comp.lift_bind_eq_done h
  refine ⟨length_of_info hinfo, ?_⟩
  by_contra hodd
  dsimp only at hverify
  rw [verifyChecksum, calculateChecksum_odd (by omega) (by omega)] at hverify
  cases hverify

/-- Data the handler accepts: a whole header, an even number of bytes, a checksum that fits; and an
echo request can be answered. The answer needs the gateway in the cache, and must not be a broadcast
from no address. -/
structure Accepts (unicast gateway : UInt32) (s : Stack) (src : UInt32) (d : Bytes) : Prop where
  header : 8 ≤ d.length
  even : d.length % 2 = 0
  checksum : fold16 (wordSum d) = 65535
  echo : u8 d 0 = typeEcho → (∃ c, ArpCache.select s.arpCache gateway = some c) ∧
    ¬ (unicast = ipAddrAny ∧ src = ipAddrBroadcast)

/-- **When the handler returns**, with the set-up of `main`. -/
theorem handle_done_iff {address : EtherAddr} {unicast gateway : UInt32} (hcache : EtherCache s)
    (hd : d.length ≤ 65515) :
    (∃ t v, (handle (Config.ofMain address unicast gateway)
      ⟨icmpType, d, src, dst, ⟨interfaceFamilyIp, unicast⟩⟩).run s = .done t v) ↔
        Accepts unicast gateway s src d := by
  have hroutes : (Config.ofMain address unicast gateway).routes =
      [⟨gateway, ⟨interfaceFamilyIp, unicast⟩⟩] := rfl
  refine ⟨?_, ?_⟩
  · rintro ⟨t, v, h⟩
    obtain ⟨h8, hev⟩ := size_of_handle_done hd h
    rw [handle_eq h8 hev hd] at h
    split at h
    · cases h
    rename_i hv
    refine ⟨h8, hev, not_not.mp hv, fun hecho => ?_⟩
    rw [if_pos hecho] at h
    have hbc : ¬ (unicast = ipAddrAny ∧ src = ipAddrBroadcast) := by
      intro hbc
      rw [ipv4Output, if_pos hbc] at h
      cases h
    refine ⟨?_, hbc⟩
    cases hc : ArpCache.select s.arpCache gateway with
    | some c => exact ⟨c, rfl⟩
    | none =>
      have hmiss : (ipv4Output (Config.ofMain address unicast gateway) icmpType (replyBytes d)
          unicast src).run s = .threw _ _ :=
        ipv4Output_miss hroutes (Or.inr rfl) hbc (by rw [length_replyBytes h8]; exact hd) hc
      rw [Comp.bind_threw hmiss] at h
      cases h
  · rintro ⟨h8, hev, hv, hecho⟩
    rw [handle_eq h8 hev hd, if_neg (not_not.mpr hv)]
    split
    · rename_i htype
      obtain ⟨⟨c, hc⟩, hbc⟩ := hecho htype
      have hhit : (ipv4Output (Config.ofMain address unicast gateway) icmpType (replyBytes d)
          unicast src).run s = .done _ _ :=
        ipv4Output_hit hroutes (Or.inr rfl) hbc (by rw [length_replyBytes h8]; exact hd) hc
          (hcache c (ArpCache.select_eq_some hc).1)
      rw [Comp.bind_done hhit]
      exact ⟨_, _, rfl⟩
    · exact ⟨_, _, rfl⟩

end IcmpHandler

end Suika
