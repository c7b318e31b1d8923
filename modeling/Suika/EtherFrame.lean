import Suika.BinaryPayload

/-!
# Ethernet frames

`lib/EtherFrame.h` and the framing half of `EtherDevice::transmit` (`lib/EtherDevice.cpp`). A frame
is a 14-byte header (destination, source, ether type) and a body, padded with zeros up to 60 bytes.
The closed form of what is transmitted is `EtherDevice.frame_eq`; what is read back from it is
`EtherFrame.dstAddr_frame` and its neighbours.
-/

namespace Suika

open Cpp BinaryPayload

/-- `ETHER_ADDR_LEN` -/
abbrev etherAddrLen : ℕ := 6

/-- `std::array<std::uint8_t, ETHER_ADDR_LEN>` -/
abbrev EtherAddr : Type := {addr : Bytes // addr.length = etherAddrLen}

theorem EtherAddr.length_val (a : EtherAddr) : a.val.length = 6 := a.property

namespace EtherFrame

abbrev headerSize : ℕ := 14

abbrev frameMinSize : ℕ := 60

/-- `EtherFrame()` -/
def empty : Bytes := List.replicate headerSize 0

def readEtherAddr (data : Bytes) (offset : ℕ) : Eval Err Bytes := do
  return [← byteAt data offset, ← byteAt data (offset + 1), ← byteAt data (offset + 2),
    ← byteAt data (offset + 3), ← byteAt data (offset + 4), ← byteAt data (offset + 5)]

def writeEtherAddr (data addr : Bytes) (offset : ℕ) : Eval Err Bytes :=
  if addr.length ≠ etherAddrLen then runtimeError "invalid ether address length"
  else
    let data := if data.length < offset + etherAddrLen then resize data (offset + etherAddrLen)
      else data
    writeVector data addr offset

def dstAddr (data : Bytes) : Eval Err Bytes := readEtherAddr data 0

def setDstAddr (data addr : Bytes) : Eval Err Bytes := writeEtherAddr data addr 0

def srcAddr (data : Bytes) : Eval Err Bytes := readEtherAddr data 6

def setSrcAddr (data addr : Bytes) : Eval Err Bytes := writeEtherAddr data addr 6

def etherType (data : Bytes) : Eval Err UInt16 := readUint16 data 12

def setEtherType (data : Bytes) (type : UInt16) : Eval Err Bytes := writeUint16 data type 12

/-- The size is converted to an `int` before the header is taken off. A frame shorter than its
header gives the result vector a negative length. -/
def body (data : Bytes) : Eval Err Bytes :=
  let len := intOfSize data.length - headerSize
  if len < -2147483648 then Eval.undefined else readVector data headerSize len

def setBody (data body : Bytes) : Eval Err Bytes := do
  let data := resize data (body.length + headerSize)
  let data ← writeVector data body headerSize
  return if data.length < frameMinSize then resize data frameMinSize else data

/-- The fields the log line of `info` reads; its text goes nowhere. -/
def info (data : Bytes) : Eval Err Unit := do
  let _ ← srcAddr data
  let _ ← dstAddr data
  let _ ← etherType data

theorem writeEtherAddr_eq {data addr : Bytes} {offset : ℕ} (ha : addr.length = 6)
    (h : offset + 6 ≤ data.length) (ho : offset ≤ 6) :
    writeEtherAddr data addr offset = .ok (patch data offset addr) := by
  rw [writeEtherAddr, if_neg (fun hne => hne ha)]
  have hkeep : ¬ data.length < offset + etherAddrLen := by
    rw [etherAddrLen]
    omega
  rw [if_neg hkeep, writeVector_eq (by omega) (by omega) (by omega)]

theorem readEtherAddr_append (pre post : Bytes) {addr : Bytes} {offset : ℕ}
    (ho : offset = pre.length) (ha : addr.length = 6) :
    readEtherAddr (pre ++ addr ++ post) offset = .ok addr := by
  subst ho
  obtain ⟨a, b, c, d, e, f, rfl⟩ : ∃ a b c d e f, addr = [a, b, c, d, e, f] := by
    match addr, ha with
    | [a, b, c, d, e, f], _ => exact ⟨a, b, c, d, e, f, rfl⟩
  simp [readEtherAddr, byteAt, List.append_assoc]

/-- The index of a longer body leaves the `int`s. -/
theorem setBody_undefined (data : Bytes) {body : Bytes} (h : 2147483634 < body.length) :
    setBody data body = Eval.undefined := by
  rw [setBody, headerSize, writeVector_undefined (by decide) (by omega)]
  rfl

/-- The body of a frame whose size is an `int`. -/
theorem body_eq {data : Bytes} (h : 14 ≤ data.length) (hfit : data.length < 2147483648) :
    body data = .ok (data.drop 14) := by
  have hlen : ¬ (data.length : ℤ) - (14 : ℕ) < 0 := by omega
  have hend : 14 + ((data.length : ℤ) - (14 : ℕ)).toNat = data.length := by omega
  rw [body, headerSize, intOfSize_eq hfit, if_neg (by omega), readVector, if_neg hlen, hend, slice,
    if_pos ⟨h, Nat.le_refl _⟩, List.take_length]

/-- The one size that `setBody` still makes and `body` cannot count back from. -/
theorem body_undefined {data : Bytes} (h : data.length = 2147483648) :
    body data = Eval.undefined := by
  rw [body, h]
  rfl

/-- The body replaces everything behind the header, and the frame is padded with zeros. -/
theorem setBody_eq {data : Bytes} (body : Bytes) (h : 14 ≤ data.length)
    (hfit : body.length ≤ 2147483634) :
    setBody data body = .ok (data.take 14 ++ body ++ List.replicate (46 - body.length) 0) := by
  have hlen : (resize data (body.length + 14)).length = body.length + 14 := length_resize _ _
  have htake : (resize data (body.length + 14)).take 14 = data.take 14 := by
    rw [resize, List.take_append_of_le_length (by rw [List.length_take]; omega), List.take_take,
      Nat.min_eq_left (by omega)]
  have hpatch : patch (resize data (body.length + 14)) 14 body = data.take 14 ++ body := by
    rw [patch, htake, List.drop_of_length_le (by omega), List.append_nil]
  have hplen : (data.take 14 ++ body).length = 14 + body.length := by
    rw [List.length_append, List.length_take]
    omega
  rw [setBody, headerSize, writeVector_eq (by omega) (by omega) (by omega), hpatch]
  refine congrArg Except.ok ?_
  rw [frameMinSize]
  split
  · rw [resize_of_le (by omega), hplen]
    congr 2
    omega
  · have hz : 46 - body.length = 0 := by omega
    rw [hz, List.replicate_zero, List.append_nil]

end EtherFrame

namespace EtherDevice

/-- The frame `transmit` builds around `data`. -/
def frame (address : EtherAddr) (data dst : Bytes) (type : UInt16) : Eval Err Bytes := do
  let frame ← EtherFrame.setDstAddr EtherFrame.empty dst
  let frame ← EtherFrame.setSrcAddr frame address.val
  let frame ← EtherFrame.setEtherType frame type
  EtherFrame.setBody frame data

/-- The header is written before the body. -/
theorem frame_header (address : EtherAddr) (data : Bytes) {dst : Bytes} (type : UInt16)
    (hd : dst.length = 6) :
    frame address data dst type = EtherFrame.setBody (dst ++ address.val ++ be16 type) data := by
  have hs := address.length_val
  have hdst : patch EtherFrame.empty 0 dst = dst ++ List.replicate 8 0 :=
    patch_append [] (List.replicate 6 0) (List.replicate 8 0) dst rfl (by simp [hd])
  have hsrc : patch (dst ++ List.replicate 8 0) 6 address.val =
      dst ++ address.val ++ List.replicate 2 0 := by
    have hsplit : dst ++ List.replicate 8 0 = dst ++ List.replicate 6 0 ++ List.replicate 2 0 := by
      rw [List.append_assoc]
      rfl
    rw [hsplit, patch_append _ _ _ _ hd.symm (by simp [hs])]
  have htype : patch (dst ++ address.val ++ List.replicate 2 0) 12 (be16 type) =
      dst ++ address.val ++ be16 type := by
    rw [← List.append_nil (dst ++ address.val ++ List.replicate 2 0),
      patch_append _ _ _ _ (by simp [hd, hs]) (by simp), List.append_nil]
  rw [frame, EtherFrame.setDstAddr, EtherFrame.writeEtherAddr_eq hd (by decide) (by decide), hdst,
    Eval.ok_bind, EtherFrame.setSrcAddr,
    EtherFrame.writeEtherAddr_eq hs (by simp [hd]) (by decide), hsrc, Eval.ok_bind,
    EtherFrame.setEtherType, writeUint16_eq type (by simp [hd, hs]), htype, Eval.ok_bind]

/-- The bytes of a frame: addresses, type, body, padding. -/
theorem frame_eq (address : EtherAddr) (data : Bytes) {dst : Bytes} (type : UInt16)
    (hd : dst.length = 6) (hfit : data.length ≤ 2147483634) :
    frame address data dst type =
      .ok (dst ++ address.val ++ be16 type ++ data ++ List.replicate (46 - data.length) 0) := by
  have hhdr : (dst ++ address.val ++ be16 type).length = 14 := by
    simp [hd, address.length_val]
  rw [frame_header address data type hd, EtherFrame.setBody_eq data (by omega) hfit,
    List.take_of_length_le (by omega)]

theorem frame_undefined (address : EtherAddr) {data dst : Bytes} (type : UInt16)
    (hd : dst.length = 6) (hlong : 2147483634 < data.length) :
    frame address data dst type = Eval.undefined := by
  rw [frame_header address data type hd, EtherFrame.setBody_undefined _ hlong]

end EtherDevice

namespace EtherFrame

variable (address : EtherAddr) (data : Bytes) {dst : Bytes} (type : UInt16)

/-! ## Reading a transmitted frame back -/

/-- A transmitted frame has the minimum size of an Ethernet frame. -/
theorem frameMinSize_le_length (pad : Bytes) (hd : dst.length = 6)
    (hp : pad = List.replicate (46 - data.length) 0) :
    60 ≤ (dst ++ address.val ++ be16 type ++ data ++ pad).length := by
  have hs := address.length_val
  simp only [List.length_append, length_be16, hp, List.length_replicate]
  omega

theorem dstAddr_frame (pad : Bytes) (hd : dst.length = 6) :
    dstAddr (dst ++ address.val ++ be16 type ++ data ++ pad) = .ok dst := by
  have h : readEtherAddr ([] ++ dst ++ (address.val ++ be16 type ++ data ++ pad)) 0 = .ok dst :=
    readEtherAddr_append [] _ rfl hd
  simpa [dstAddr, List.append_assoc] using h

theorem srcAddr_frame (pad : Bytes) (hd : dst.length = 6) :
    srcAddr (dst ++ address.val ++ be16 type ++ data ++ pad) = .ok address.val := by
  have h := readEtherAddr_append dst (be16 type ++ data ++ pad) hd.symm address.length_val
  simpa [srcAddr, List.append_assoc] using h

theorem etherType_frame (pad : Bytes) (hd : dst.length = 6) :
    etherType (dst ++ address.val ++ be16 type ++ data ++ pad) = .ok type := by
  have hs := address.length_val
  have hhi : (dst ++ address.val ++ be16 type ++ data ++ pad)[12]? = some (type >>> 8).toUInt8 := by
    simp [be16, List.append_assoc, List.getElem?_append, hd, hs]
  have hlo : (dst ++ address.val ++ be16 type ++ data ++ pad)[13]? = some type.toUInt8 := by
    simp [be16, List.append_assoc, List.getElem?_append, hd, hs]
  rw [etherType, readUint16, byteAt, hhi, byteAt, hlo]
  exact congrArg Except.ok (join16_be16 type)

/-- Behind the header comes what was given. -/
theorem drop_frame (pad : Bytes) (hd : dst.length = 6) :
    (dst ++ address.val ++ be16 type ++ data ++ pad).drop 14 = data ++ pad := by
  have hhdr : (dst ++ address.val ++ be16 type).length = 14 := by
    simp [hd, address.length_val]
  rw [List.append_assoc _ data, ← hhdr, List.drop_left]

/-- The body read back carries the padding. -/
theorem body_frame (hd : dst.length = 6) (hfit : data.length ≤ 2147483633) :
    body (dst ++ address.val ++ be16 type ++ data ++ List.replicate (46 - data.length) 0) =
      .ok (data ++ List.replicate (46 - data.length) 0) := by
  have hlen : (dst ++ address.val ++ be16 type ++ data ++
      List.replicate (46 - data.length) 0).length = 14 + max 46 data.length := by
    simp only [List.length_append, hd, address.length_val, length_be16, List.length_replicate]
    omega
  rw [body_eq (by omega) (by omega), drop_frame _ _ _ _ hd]

end EtherFrame

end Suika
