import Suika.Lib.Fields
import Suika.EtherFrame

/-!
# A frame reflects its latest contents

`EtherFrame` keeps header and body in one vector, which `setBody` cuts, extends and pads. A frame
written through its four setters is `frameBytes` of the values they were given last, in whatever
order they ran: `set_frameBytes` says so for one call, `Fields.run_encode_iff` for any number of
them.

The size of a body is bounded by the `int`s of `writeVector` and `body()`: `setBody` takes up to
2147483634 bytes, and the frame that holds exactly so many is the one whose body cannot be read.
-/

namespace Suika

open Cpp BinaryPayload

namespace EtherFrame

/-- The fields of a frame. -/
inductive Field : Type where
  | dstAddr
  | srcAddr
  | etherType
  | body
  deriving DecidableEq

namespace Field

/-- What the setter of a field is given. -/
abbrev Value : Field → Type
  | dstAddr => EtherAddr
  | srcAddr => EtherAddr
  | etherType => UInt16
  | body => Bytes

/-- Its setter. -/
def set : (f : Field) → Bytes → f.Value → Eval Err Bytes
  | dstAddr, data, addr => setDstAddr data addr.val
  | srcAddr, data, addr => setSrcAddr data addr.val
  | etherType, data, type => setEtherType data type
  | body, data, b => setBody data b

/-- The values an `int` index gets through. -/
def Fits : (f : Field) → f.Value → Prop
  | dstAddr, _ => True
  | srcAddr, _ => True
  | etherType, _ => True
  | body, b => b.length ≤ 2147483634

end Field

/-- The address of a new frame. -/
def zeroAddr : EtherAddr := ⟨[0, 0, 0, 0, 0, 0], rfl⟩

/-- What `setBody` puts behind the body. -/
def padding (body : Option Bytes) : Bytes :=
  match body with
  | none => []
  | some b => List.replicate (46 - b.length) 0

/-- A frame with these fields; the ones nobody set are zero, and a body nobody set is missing. -/
def frameBytes (x : ∀ f : Field, Option f.Value) : Bytes :=
  ((x .dstAddr).getD zeroAddr).val ++ ((x .srcAddr).getD zeroAddr).val ++
    be16 ((x .etherType).getD 0) ++ (x .body).getD [] ++ padding (x .body)

/-- What a frame is read as. -/
structure Shows (data : Bytes) (dst src : EtherAddr) (type : UInt16) (b : Bytes) : Prop where
  length : data.length = max 60 (14 + b.length)
  dstAddr : dstAddr data = .ok dst.val
  srcAddr : srcAddr data = .ok src.val
  etherType : etherType data = .ok type
  body : ∃ n, body data = .ok (b ++ List.replicate n 0)

theorem empty_eq_frameBytes : empty = frameBytes fun _ => none := rfl

/-- The header is there from the beginning. -/
theorem headerSize_le_frameBytes (x : ∀ f : Field, Option f.Value) :
    14 ≤ (frameBytes x).length := by
  simp only [frameBytes, List.length_append, EtherAddr.length_val, length_be16]
  omega

/-- **A setter** replaces its field and no other. -/
theorem set_frameBytes (f : Field) (x : ∀ f : Field, Option f.Value) (v : f.Value)
    (hv : f.Fits v) :
    f.set (frameBytes x) v = .ok (frameBytes (Function.update x f (some v))) := by
  have hdst := ((x .dstAddr).getD zeroAddr).length_val
  have hsrc := ((x .srcAddr).getD zeroAddr).length_val
  have hlen := headerSize_le_frameBytes x
  cases f with
  | dstAddr =>
    have hpatch := patch_append [] ((x .dstAddr).getD zeroAddr).val
      (((x .srcAddr).getD zeroAddr).val ++ be16 ((x .etherType).getD 0) ++ (x .body).getD [] ++
        padding (x .body)) v.val rfl (hdst.trans v.length_val.symm)
    rw [Field.set, setDstAddr, writeEtherAddr_eq v.length_val (by omega) (by decide)]
    simpa [frameBytes, List.append_assoc] using hpatch
  | srcAddr =>
    have hpatch := patch_append ((x .dstAddr).getD zeroAddr).val ((x .srcAddr).getD zeroAddr).val
      (be16 ((x .etherType).getD 0) ++ (x .body).getD [] ++ padding (x .body)) v.val hdst.symm
        (hsrc.trans v.length_val.symm)
    rw [Field.set, setSrcAddr, writeEtherAddr_eq v.length_val (by omega) (by decide)]
    simpa [frameBytes, List.append_assoc] using hpatch
  | etherType =>
    have hpatch := patch_append (((x .dstAddr).getD zeroAddr).val ++
      ((x .srcAddr).getD zeroAddr).val) (be16 ((x .etherType).getD 0))
      ((x .body).getD [] ++ padding (x .body)) (be16 v)
      (by rw [List.length_append, hdst, hsrc]) rfl
    rw [Field.set, setEtherType, writeUint16_eq v (by omega)]
    simpa [frameBytes, List.append_assoc] using hpatch
  | body =>
    have hheader : (frameBytes x).take 14 = ((x .dstAddr).getD zeroAddr).val ++
        ((x .srcAddr).getD zeroAddr).val ++ be16 ((x .etherType).getD 0) := by
      rw [frameBytes, List.append_assoc, List.take_left' (by simp [hdst, hsrc])]
    rw [Field.set, setBody_eq v hlen hv, hheader]
    simp [frameBytes, padding]

/-- And it returns for nothing else. -/
theorem fits_of_set (f : Field) (x : ∀ f : Field, Option f.Value) (v : f.Value) (data : Bytes)
    (h : f.set (frameBytes x) v = .ok data) : f.Fits v := by
  cases f with
  | dstAddr => exact trivial
  | srcAddr => exact trivial
  | etherType => exact trivial
  | body =>
    by_contra hv
    rw [Field.set, setBody_undefined _ (Nat.lt_of_not_le hv)] at h
    cases h

/-- A frame with a body has at least the minimum size. -/
theorem length_frameBytes (x : ∀ f : Field, Option f.Value) {b : Bytes} (hb : x .body = some b) :
    (frameBytes x).length = max 60 (14 + b.length) := by
  rw [frameBytes, hb]
  simp only [List.length_append, EtherAddr.length_val, length_be16, Option.getD_some, padding,
    List.length_replicate]
  omega

/-- With a body whose frame an `int` can count, a frame is read as what it was made of. -/
theorem shows_frameBytes (x : ∀ f : Field, Option f.Value) {b : Bytes} (hb : x .body = some b)
    (hfit : b.length ≤ 2147483633) :
    Shows (frameBytes x) ((x .dstAddr).getD zeroAddr) ((x .srcAddr).getD zeroAddr)
      ((x .etherType).getD 0) b := by
  have hdst := ((x .dstAddr).getD zeroAddr).length_val
  have hlen := length_frameBytes x hb
  rw [frameBytes, hb] at hlen ⊢
  refine ⟨hlen, dstAddr_frame _ _ _ _ hdst, srcAddr_frame _ _ _ _ hdst,
    etherType_frame _ _ _ _ hdst, 46 - b.length, body_frame _ _ _ hdst hfit⟩

/-- Of any other body, the whole is never read. -/
theorem length_le_of_shows {data b : Bytes} {dst src : EtherAddr} {type : UInt16}
    (h : Shows data dst src type b) (hb : b.length ≤ 2147483634) : b.length ≤ 2147483633 := by
  by_contra hlt
  have hlen := h.length
  obtain ⟨n, hbody⟩ := h.body
  rw [body_undefined (by omega)] at hbody
  cases hbody

/-- **A frame reflects its latest contents**, for bodies an `int` can count. After any calls of the
setters with at least one `setBody` among them, the frame has the size of its last body, the header
fields have their last values, and the last body is followed by zeros only, if and only if no body
is longer than 2147483634 bytes, and the last one not longer than 2147483633. Where one is, an `int`
overflows, in `setBody` or in `body()`. -/
theorem etherFrame_latest_iff (calls : List (Fields.Write Field.Value)) {b : Bytes}
    (hb : Fields.lastGiven .body calls = some b) :
    (∃ data, Fields.run Field.set calls empty = .ok data ∧
      Shows data ((Fields.lastGiven .dstAddr calls).getD zeroAddr)
        ((Fields.lastGiven .srcAddr calls).getD zeroAddr)
        ((Fields.lastGiven .etherType calls).getD 0) b) ↔
      (∀ body : Bytes, ⟨.body, body⟩ ∈ calls → body.length ≤ 2147483634) ∧
        b.length ≤ 2147483633 := by
  have hrun := fun data => Fields.run_encode_iff set_frameBytes fits_of_set calls
    (fun _ => none) data
  rw [← empty_eq_frameBytes] at hrun
  simp only [Option.or_none] at hrun
  constructor
  · rintro ⟨data, hdata, hshows⟩
    obtain ⟨hfits, -⟩ := (hrun data).mp hdata
    have hbodies : ∀ body : Bytes, ⟨.body, body⟩ ∈ calls → body.length ≤ 2147483634 :=
      fun body hmem => hfits _ hmem
    exact ⟨hbodies, length_le_of_shows hshows (hbodies b (Fields.mem_of_lastGiven hb))⟩
  · rintro ⟨hbodies, hlast⟩
    refine ⟨_, (hrun _).mpr ⟨?_, rfl⟩, shows_frameBytes _ hb hlast⟩
    rintro ⟨f, v⟩ hmem
    cases f with
    | dstAddr => exact trivial
    | srcAddr => exact trivial
    | etherType => exact trivial
    | body => exact hbodies v hmem

/-- A body of 50 bytes, the source address, and then a body of two bytes. -/
theorem etherFrame_latest_shorter :
    ∃ data, Fields.run Field.set [⟨.body, List.replicate 50 7⟩,
        ⟨.srcAddr, ⟨[1, 2, 3, 4, 5, 6], rfl⟩⟩, ⟨.body, [8, 9]⟩] empty = .ok data ∧
      Shows data zeroAddr ⟨[1, 2, 3, 4, 5, 6], rfl⟩ 0 [8, 9] :=
  (etherFrame_latest_iff [⟨.body, List.replicate 50 7⟩, ⟨.srcAddr, ⟨[1, 2, 3, 4, 5, 6], rfl⟩⟩,
    ⟨.body, [8, 9]⟩] rfl).mpr ⟨by simp, by decide⟩

/-- A body of 2147483648 bytes is not written: the index overflows on the way. -/
theorem not_forall_etherFrame_latest :
    ¬ ∀ (calls : List (Fields.Write Field.Value)) (b : Bytes),
      Fields.lastGiven .body calls = some b →
        ∃ data, Fields.run Field.set calls empty = .ok data ∧
          Shows data ((Fields.lastGiven .dstAddr calls).getD zeroAddr)
            ((Fields.lastGiven .srcAddr calls).getD zeroAddr)
            ((Fields.lastGiven .etherType calls).getD 0) b := by
  intro h
  have hlen : (List.replicate 2147483648 (0 : UInt8)).length = 2147483648 := List.length_replicate
  generalize List.replicate 2147483648 (0 : UInt8) = b at hlen
  have hset : setBody empty b = Eval.undefined := setBody_undefined _ (by omega)
  obtain ⟨data, hrun, -⟩ := h [⟨.body, b⟩] b rfl
  rw [Fields.run, Field.set, hset] at hrun
  cases hrun

end EtherFrame

end Suika
