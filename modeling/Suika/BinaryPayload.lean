import Mathlib.Data.Int.Notation
import Suika.Lib.Bytes

/-!
# `BinaryPayload`: big-endian fields of a byte vector

`lib/BinaryPayload.h`. Every packet class of the stack is a byte vector read and written through
these helpers. `std::vector::operator[]` checks nothing, so an index outside the vector leaves
defined behaviour; in bounds a read is `u8`, `u16`, `u32` and a write is a `patch`.

Offsets and lengths are `int`s. The offsets the packet classes pass are small, header sizes and sums
of two or three bytes of the packet, and are natural numbers here. The index that runs over a vector
is not small, nor is a vector's length: `writeVector` counts in `int` (`addInt`), and `readVector`
is given one. A vector that ends within the first 2147483648 bytes is written whole
(`writeVector_eq`); one that ends behind them leaves defined behaviour (`writeVector_undefined`).

`Err` are the exceptions the stack throws, `lib/Error.h` and the ones of the standard library.
-/

namespace Suika

open Cpp

/-- The exceptions of the stack. -/
inductive Err : Type where
  /-- `std::runtime_error` -/
  | runtimeError (what : String) : Err
  /-- `suika::error::ArpResolveException` -/
  | arpResolveException (what : String) : Err
  /-- `std::out_of_range`, thrown by `std::vector::at` -/
  | outOfRange : Err
  /-- `std::length_error`, thrown by a vector constructed with a negative size -/
  | lengthError : Err
  deriving DecidableEq

/-- Throw a `std::runtime_error`. -/
def runtimeError {α : Type} (what : String) : Eval Err α := Eval.throwing (.runtimeError what)

/-- A `size_t` converted to `int`. -/
def intOfSize (n : ℕ) : ℤ :=
  if n % 4294967296 < 2147483648 then (n : ℤ) % 4294967296 else (n : ℤ) % 4294967296 - 4294967296

theorem intOfSize_eq {n : ℕ} (h : n < 2147483648) : intOfSize n = n := by
  unfold intOfSize
  split <;> omega

/-- The sum of two `int`s that are not negative; one that does not fit leaves defined behaviour. -/
def addInt (a b : ℕ) : Eval Err ℕ :=
  if a + b < 2147483648 then .ok (a + b) else Eval.undefined

theorem addInt_eq {a b : ℕ} (h : a + b < 2147483648) : addInt a b = .ok (a + b) := if_pos h

theorem addInt_undefined {a b : ℕ} (h : 2147483648 ≤ a + b) : addInt a b = Eval.undefined :=
  if_neg (Nat.not_lt.mpr h)

namespace BinaryPayload

def readUint8 (data : Bytes) (offset : ℕ) : Eval Err UInt8 :=
  byteAt data offset

def readUint16 (data : Bytes) (offset : ℕ) : Eval Err UInt16 := do
  return join16 (← byteAt data offset) (← byteAt data (offset + 1))

def readUint32 (data : Bytes) (offset : ℕ) : Eval Err UInt32 := do
  return join32 (← byteAt data offset) (← byteAt data (offset + 1)) (← byteAt data (offset + 2))
    (← byteAt data (offset + 3))

/-- A negative length, converted to `size_t`, is more than a vector can hold. -/
def readVector (data : Bytes) (offset : ℕ) (len : ℤ) : Eval Err Bytes :=
  if len < 0 then Eval.throwing .lengthError else slice data offset (offset + len.toNat)

def write (data : Bytes) (b : UInt8) (offset : ℕ) : Eval Err Bytes :=
  setAt data offset b

def writeUint8 (data : Bytes) (value : UInt8) (offset : ℕ) : Eval Err Bytes :=
  write data value offset

def writeUint16 (data : Bytes) (value : UInt16) (offset : ℕ) : Eval Err Bytes := do
  let data ← write data (value >>> 8).toUInt8 offset
  write data value.toUInt8 (offset + 1)

def writeUint32 (data : Bytes) (value : UInt32) (offset : ℕ) : Eval Err Bytes := do
  let data ← write data (value >>> 24).toUInt8 offset
  let data ← write data (value >>> 16).toUInt8 (offset + 1)
  let data ← write data (value >>> 8).toUInt8 (offset + 2)
  write data value.toUInt8 (offset + 3)

/-- The range-for of the source at `idx`: `data[offset + idx] = v; idx++`. -/
def writeVector.loop (offset : ℕ) : Bytes → Bytes → ℕ → Eval Err Bytes
  | data, [], _ => .ok data
  | data, v :: vec, idx => do
    let data ← write data v (← addInt offset idx)
    loop offset data vec (← addInt idx 1)

def writeVector (data vec : Bytes) (offset : ℕ) : Eval Err Bytes :=
  writeVector.loop offset data vec 0

variable {data : Bytes} {offset : ℕ}

theorem readUint8_eq (h : offset < data.length) : readUint8 data offset = .ok (u8 data offset) :=
  byteAt_eq h

theorem readUint16_eq (h : offset + 2 ≤ data.length) :
    readUint16 data offset = .ok (u16 data offset) := by
  rw [readUint16, byteAt_eq (by omega), byteAt_eq (by omega)]
  rfl

theorem readUint32_eq (h : offset + 4 ≤ data.length) :
    readUint32 data offset = .ok (u32 data offset) := by
  rw [readUint32, byteAt_eq (by omega), byteAt_eq (by omega), byteAt_eq (by omega),
    byteAt_eq (by omega)]
  rfl

/-- A read throws nothing. -/
theorem readUint8_quiet (data : Bytes) (offset : ℕ) : (readUint8 data offset).Quiet :=
  byteAt_quiet data offset

theorem readUint16_quiet (data : Bytes) (offset : ℕ) : (readUint16 data offset).Quiet :=
  (byteAt_quiet data _).bind fun _ => (byteAt_quiet data _).bind fun _ => Eval.Quiet.ok _

theorem readUint32_quiet (data : Bytes) (offset : ℕ) : (readUint32 data offset).Quiet :=
  (byteAt_quiet data _).bind fun _ => (byteAt_quiet data _).bind fun _ =>
    (byteAt_quiet data _).bind fun _ => (byteAt_quiet data _).bind fun _ => Eval.Quiet.ok _

/-- And so does a write. -/
theorem writeUint16_quiet (data : Bytes) (value : UInt16) (offset : ℕ) :
    (writeUint16 data value offset).Quiet :=
  (setAt_quiet data _ _).bind fun _ => setAt_quiet _ _ _

/-- The last byte of a number lies outside the vector. -/
theorem readUint16_undefined (h : data.length < offset + 2) :
    readUint16 data offset = Eval.undefined :=
  (byteAt_quiet data _).bind_undefined fun _ => by
    rw [byteAt_undefined (by omega)]
    rfl

theorem readUint32_undefined (h : data.length < offset + 4) :
    readUint32 data offset = Eval.undefined :=
  (byteAt_quiet data _).bind_undefined fun _ => (byteAt_quiet data _).bind_undefined fun _ =>
    (byteAt_quiet data _).bind_undefined fun _ => by
      rw [byteAt_undefined (by omega)]
      rfl

theorem write_eq (b : UInt8) (h : offset < data.length) :
    write data b offset = .ok (patch data offset [b]) :=
  setAt_eq b h

/-- What the loop leaves, as long as neither its target nor its counter outgrows an `int`. -/
theorem writeVector.loop_eq {vec : Bytes} {idx : ℕ}
    (h : offset + idx + vec.length ≤ data.length)
    (hfit : offset + idx + vec.length ≤ 2147483648) (hidx : idx + vec.length < 2147483648) :
    writeVector.loop offset data vec idx = .ok (patch data (offset + idx) vec) := by
  induction vec generalizing data idx with
  | nil =>
    rw [writeVector.loop, patch, List.append_nil, List.length_nil, Nat.add_zero,
      List.take_append_drop]
  | cons v vec ih =>
    rw [List.length_cons] at h hfit hidx
    have hv : (patch data (offset + idx) [v]).length = data.length := length_patch (by
      rw [List.length_singleton]
      omega)
    have hnext : patch (patch data (offset + idx) [v]) (offset + idx + [v].length) vec =
        patch data (offset + idx) ([v] ++ vec) := patch_patch_next (by
      rw [List.length_singleton]
      omega)
    rw [writeVector.loop, addInt_eq (by omega), Eval.ok_bind, write_eq v (by omega), Eval.ok_bind,
      addInt_eq (by omega), Eval.ok_bind, ih (by omega) (by omega) (by omega)]
    exact congrArg Except.ok hnext

theorem writeVector_eq {vec : Bytes} (h : offset + vec.length ≤ data.length)
    (hfit : offset + vec.length ≤ 2147483648) (hidx : vec.length < 2147483648) :
    writeVector data vec offset = .ok (patch data offset vec) :=
  writeVector.loop_eq h hfit (by rwa [Nat.zero_add])

/-- A target that has to go further than an `int` can is never reached. -/
theorem writeVector.loop_undefined {vec : Bytes} {idx : ℕ} (hidx : offset + idx ≤ 2147483648)
    (h : 2147483648 < offset + idx + vec.length) :
    writeVector.loop offset data vec idx = Eval.undefined := by
  induction vec generalizing data idx with
  | nil => exact absurd h (Nat.not_lt.mpr hidx)
  | cons v vec ih =>
    rw [List.length_cons] at h
    rw [writeVector.loop]
    by_cases hlast : offset + idx = 2147483648
    · rw [addInt_undefined (by omega)]
      rfl
    · rw [addInt_eq (by omega), Eval.ok_bind]
      refine (setAt_quiet data _ _).bind_undefined fun data' => ?_
      by_cases hnext : idx + 1 < 2147483648
      · rw [addInt_eq hnext, Eval.ok_bind, ih (by omega) (by omega)]
      · rw [addInt_undefined (by omega)]
        rfl

theorem writeVector_undefined {vec : Bytes} (ho : offset ≤ 2147483648)
    (h : 2147483648 < offset + vec.length) : writeVector data vec offset = Eval.undefined :=
  writeVector.loop_undefined ho h

/-- A write that covers `mid` exactly replaces it. -/
theorem writeVector_append (pre mid post : Bytes) {vec : Bytes} (ho : offset = pre.length)
    (hm : mid.length = vec.length) (hfit : pre.length + vec.length < 2147483648) :
    writeVector (pre ++ mid ++ post) vec offset = .ok (pre ++ vec ++ post) := by
  rw [writeVector_eq (by simp only [List.length_append]; omega) (by omega) (by omega),
    patch_append pre mid post vec ho hm]

theorem writeUint16_eq (value : UInt16) (h : offset + 2 ≤ data.length) :
    writeUint16 data value offset = .ok (patch data offset (be16 value)) := by
  have hlen : (patch data offset [(value >>> 8).toUInt8]).length = data.length := length_patch (by
    rw [List.length_singleton]
    omega)
  have hnext : patch (patch data offset [(value >>> 8).toUInt8]) (offset + 1) [value.toUInt8] =
      patch data offset (be16 value) := patch_patch_next (by
    rw [List.length_singleton]
    omega)
  rw [writeUint16, write_eq _ (by omega), Eval.ok_bind, write_eq _ (by omega), hnext]

end BinaryPayload

end Suika
