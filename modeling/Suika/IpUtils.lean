import Mathlib.Data.Int.Notation
import Suika.Lib.OnesComplement
import Suika.BinaryPayload

/-!
# `ipUtils`: textual addresses and checksums

`lib/IpUtils.h`. A `std::string` that is parsed or printed is its list of characters.

The checksum loop advances two bytes at a time and tests only the first of them against the size,
so on data of odd length it reads one byte past the end. Its counter is an `int`, and so is the
bound it runs to: a size that does not fit becomes another number, and next to the largest `int` the
counter overflows. On even data it computes `OnesComplement.fold16` of the word sum
(`calculateChecksum_eq`).
-/

namespace Suika

open Cpp OnesComplement

/-! ## Textual addresses -/

/-- The value of a digit in the bases up to 36. -/
def digitValue (base : ℕ) (c : Char) : Option ℕ :=
  let value :=
    if '0' ≤ c ∧ c ≤ '9' then some (c.toNat - '0'.toNat)
    else if 'a' ≤ c ∧ c ≤ 'z' then some (c.toNat - 'a'.toNat + 10)
    else if 'A' ≤ c ∧ c ≤ 'Z' then some (c.toNat - 'A'.toNat + 10)
    else none
  value.filter (· < base)

/-- The longest prefix of digits, read as a number on top of what came before. -/
def digitsValue (base : ℕ) : List Char → Option ℕ → Option ℕ
  | [], acc => acc
  | c :: cs, acc =>
    match digitValue base c with
    | some d => digitsValue base cs (some (acc.getD 0 * base + d))
    | none => acc

/-- `std::from_chars` into a `uint32_t`: `none` where it leaves its output variable alone, which is
the case without a digit in front and for a number that does not fit. -/
def fromCharsUint32 (word : List Char) (base : ℕ) : Option UInt32 :=
  match digitsValue base word none with
  | some n => if n < 4294967296 then some (UInt32.ofNat n) else none
  | none => none

/-- `std::views::split`: the words between separators; an empty string has no word. -/
def viewsSplit (str : List Char) (sep : Char) : List (List Char) :=
  if str.isEmpty then [] else str.splitOn sep

/-- The loop of `ipv4strToUint32` over the words. Where `from_chars` leaves `value` alone, the
variable is read without ever having been set. -/
def ipv4strToUint32.loop (str : List Char) : List (List Char) → ℕ → UInt32 → Eval Err UInt32
  | [], _, ret => .ok ret
  | word :: words, idx, ret =>
    if idx ≥ 4 then runtimeError ("invalid format " ++ String.ofList str)
    else
      match fromCharsUint32 word 10 with
      | some value => loop str words (idx + 1) (ret <<< 8 ||| value)
      | none => Eval.undefined

def ipv4strToUint32 (str : List Char) : Eval Err UInt32 :=
  ipv4strToUint32.loop str (viewsSplit str '.') 0 0

def uint32ToIpv4str (addr : UInt32) : List Char :=
  Nat.toDigits 10 ((addr >>> 24) &&& 255).toNat ++ '.' ::
    (Nat.toDigits 10 ((addr >>> 16) &&& 255).toNat ++ '.' ::
      (Nat.toDigits 10 ((addr >>> 8) &&& 255).toNat ++ '.' ::
        Nat.toDigits 10 (addr &&& 255).toNat))

def uint32ToVector (addr : UInt32) : Bytes :=
  [(addr >>> 24).toUInt8, (addr >>> 16).toUInt8, (addr >>> 8).toUInt8, addr.toUInt8]

/-- An empty text has no words; apart from that the split is the one at every separator. -/
theorem viewsSplit_of_ne_nil {str : List Char} (h : str ≠ []) (sep : Char) :
    viewsSplit str sep = str.splitOn sep := by
  rw [viewsSplit, if_neg (by simpa using h)]

/-- Words joined by a separator that is in none of them. -/
theorem viewsSplit_intercalate {words : List (List Char)} {sep : Char} (hlen : 2 ≤ words.length)
    (hsep : ∀ w ∈ words, sep ∉ w) : viewsSplit ([sep].intercalate words) sep = words := by
  have hne : words ≠ [] := by
    rintro rfl
    simp at hlen
  have htext : [sep].intercalate words ≠ [] := by
    match words, hlen with
    | v :: w :: ws, _ => simp [List.intercalate_cons_cons]
  rw [viewsSplit_of_ne_nil htext, List.splitOn_intercalate sep hsep hne]

/-! ## Checksums -/

/-- The loop of `calculateChecksum` at the counter `i`, over the bytes from `data[i]` on, with
`n = end - i`. -/
def calculateChecksum.loop : ℕ → Bytes → ℕ → UInt32 → Eval Err UInt32
  | _, [], _, sum => .ok sum
  | _, _ :: _, 0, sum => .ok sum
  | _, [_], _ + 1, _ => Eval.undefined
  | i, a :: b :: rest, n + 1, sum =>
    -- `i += 2` on an `int`
    if i + 2 < 2147483648 then
      loop (i + 2) rest (n - 1) (sum + (a.toUInt32 <<< 8 ||| b.toUInt32))
    else Eval.undefined

/-- The carries brought back once. -/
def foldOnce (sum : UInt32) : UInt16 := ((sum + (sum >>> 16)) &&& 0x0000FFFF).toUInt16

def calculateChecksum (data : Bytes) (first : ℕ) (last : ℤ) : Eval Err UInt16 := do
  return foldOnce (← calculateChecksum.loop first (data.drop first) (last - first).toNat 0)

/-- The loop of `calculateChecksumUint16`. -/
def calculateChecksumUint16.loop : List UInt16 → ℕ → UInt32 → UInt32
  | [], _, sum => sum
  | _ :: _, 0, sum => sum
  | a :: rest, n + 1, sum => loop rest n (sum + a.toUInt32)

def calculateChecksumUint16 (data : List UInt16) (first : ℕ) (last : ℤ) : UInt16 :=
  foldOnce (calculateChecksumUint16.loop (data.drop first) (last - first).toNat 0)

def verifyChecksum (data : Bytes) (first : ℕ) (last : ℤ) : Eval Err Bool := do
  return (← calculateChecksum data first last) == 0xFFFF

theorem toNat_foldOnce (sum : UInt32) : (foldOnce sum).toNat = fold16 sum.toNat := by
  have hs := sum.toNat_lt
  have hmask : ∀ m : UInt32, (m &&& 0x0000FFFF).toUInt16.toNat = m.toNat % 65536 := by
    intro m
    rw [UInt32.toNat_toUInt16, UInt32.toNat_and]
    have hand := Nat.and_two_pow_sub_one_eq_mod m.toNat 16
    simp only [UInt32.reduceToNat, Nat.reducePow, Nat.reduceSub] at hand ⊢
    omega
  rw [foldOnce, hmask, UInt32.toNat_add, UInt32.toNat_shiftRight, Nat.shiftRight_eq_div_pow, fold16]
  simp only [UInt32.reduceToNat, Nat.reduceMod, Nat.reducePow]
  omega

private theorem toNat_word (a b : UInt8) :
    (a.toUInt32 <<< 8 ||| b.toUInt32).toNat = a.toNat * 256 + b.toNat := by
  have ha := a.toNat_lt
  have hb := b.toNat_lt
  simp only [UInt32.toNat_or, UInt32.toNat_shiftLeft, UInt8.toNat_toUInt32, UInt32.reduceToNat,
    Nat.reduceMod, Nat.shiftLeft_eq]
  rw [Nat.mod_eq_of_lt (by omega), ← Nat.shiftLeft_eq,
    ← Nat.shiftLeft_add_eq_or_of_lt (by omega), Nat.shiftLeft_eq]

/-- Over an even number of bytes inside the vector the loop adds up the words. -/
theorem calculateChecksum.loop_eq : ∀ {i : ℕ} {data : Bytes} {n : ℕ} {s : UInt32},
    n % 2 = 0 → n ≤ data.length → i + n < 2147483648 →
      ∃ total : UInt32, loop i data n s = .ok total ∧
        total.toNat = (s.toNat + wordSum (data.take n)) % 4294967296
  | _, [], n, s, _, hle, _ => by
      have hs := s.toNat_lt
      refine ⟨s, rfl, ?_⟩
      rw [List.take_nil, wordSum_nil]
      omega
  | _, [_], n, s, hev, hle, _ => by
      have hs := s.toNat_lt
      obtain rfl : n = 0 := by
        simp only [List.length_cons, List.length_nil] at hle
        omega
      refine ⟨s, rfl, ?_⟩
      rw [List.take_zero, wordSum_nil]
      omega
  | _, a :: b :: rest, 0, s, _, _, _ => by
      have hs := s.toNat_lt
      refine ⟨s, rfl, ?_⟩
      rw [List.take_zero, wordSum_nil]
      omega
  | i, a :: b :: rest, n + 1, s, hev, hle, hi => by
      obtain ⟨m, rfl⟩ : ∃ m, n = m + 1 := ⟨n - 1, by omega⟩
      simp only [List.length_cons] at hle
      have hm : m % 2 = 0 := by omega
      have hmle : m ≤ rest.length := by omega
      have him : i + 2 + m < 2147483648 := by omega
      -- the accumulator wraps at 32 bits, so the invariant speaks of the sum modulo 2 ^ 32
      obtain ⟨total, htotal, hval⟩ := loop_eq
        (s := s + (a.toUInt32 <<< 8 ||| b.toUInt32)) hm hmle him
      refine ⟨total, ?_, ?_⟩
      · rw [loop, if_pos (by omega)]
        exact htotal
      · rw [hval, UInt32.toNat_add, toNat_word, List.take_succ_cons, List.take_succ_cons,
          wordSum_cons_cons]
        omega

/-- On an even number of bytes inside the vector, and few enough of them for a 32-bit sum,
`calculateChecksum` is the word sum folded once. -/
theorem calculateChecksum_eq {data : Bytes} {n : ℕ} (hev : n % 2 = 0) (hle : n ≤ data.length)
    (hn : n ≤ 131072) :
    calculateChecksum data 0 n = .ok (UInt16.ofNat (fold16 (wordSum (data.take n)))) := by
  obtain ⟨total, htotal, hval⟩ := calculateChecksum.loop_eq (i := 0) (s := 0) hev hle (by omega)
  have hsum := wordSum_le (data.take n)
  have hlen : (data.take n).length = n := by
    rw [List.length_take]
    omega
  -- 131072 bytes are 65536 words: the 32-bit accumulator never wraps
  have htot : total.toNat = wordSum (data.take n) := by
    rw [hval, UInt32.toNat_zero]
    omega
  have hcount : ((n : ℤ) - ((0 : ℕ) : ℤ)).toNat = n := by omega
  rw [calculateChecksum, List.drop_zero, hcount, htotal]
  refine congrArg Except.ok (UInt16.toNat_inj.mp ?_)
  rw [toNat_foldOnce, htot, toNat_ofNat_fold16]

/-- On an odd number of bytes the loop reads one byte too many, if its counter gets there at all. -/
theorem calculateChecksum.loop_odd : ∀ {i : ℕ} {data : Bytes} {n : ℕ} {s : UInt32},
    data.length % 2 = 1 → data.length ≤ n → loop i data n s = Eval.undefined
  | _, [], _, _, hodd, _ => by simp at hodd
  | _, [_], 0, _, _, hle => by simp at hle
  | _, [_], _ + 1, _, _, _ => rfl
  | _, _ :: _ :: _, 0, _, _, hle => by simp at hle
  | i, a :: b :: rest, n + 1, s, hodd, hle => by
      simp only [List.length_cons] at hodd hle
      have hrest : rest.length % 2 = 1 := by omega
      have hn : rest.length ≤ n - 1 := by omega
      rw [loop]
      split
      · exact loop_odd hrest hn
      · rfl

/-- Behind the end of the vector the bound makes no difference. -/
theorem calculateChecksum.loop_end : ∀ {i : ℕ} {data : Bytes} {n : ℕ} {s : UInt32},
    data.length ≤ n → loop i data n s = loop i data data.length s
  | _, [], _, _, _ => by rw [loop, loop]
  | _, [_], 0, _, hle => by simp at hle
  | _, [_], _ + 1, _, _ => rfl
  | _, _ :: _ :: _, 0, _, hle => by simp at hle
  | i, a :: b :: rest, n + 1, s, hle => by
      simp only [List.length_cons] at hle ⊢
      have hn : rest.length ≤ n - 1 := by omega
      rw [loop, loop, Nat.add_sub_cancel]
      split
      · exact loop_end hn
      · rfl

/-- The checksum of a whole vector of odd length leaves defined behaviour. -/
theorem calculateChecksum_odd {data : Bytes} (hodd : data.length % 2 = 1)
    (hn : data.length < 2147483648) :
    calculateChecksum data 0 (intOfSize data.length) = Eval.undefined := by
  have hcount : ((data.length : ℤ) - ((0 : ℕ) : ℤ)).toNat = data.length := by omega
  rw [intOfSize_eq hn, calculateChecksum, List.drop_zero, hcount,
    calculateChecksum.loop_odd hodd (Nat.le_refl _)]
  rfl

theorem calculateChecksum.loop_quiet : ∀ (i : ℕ) (data : Bytes) (n : ℕ) (s : UInt32),
    (loop i data n s).Quiet
  | _, [], _, _ => by
      rw [loop]
      exact Eval.Quiet.ok _
  | _, _ :: _, 0, _ => Eval.Quiet.ok _
  | _, [_], _ + 1, _ => Eval.Quiet.undefined
  | i, _ :: _ :: rest, n + 1, _ => by
      rw [loop]
      split
      · exact loop_quiet (i + 2) rest (n - 1) _
      · exact Eval.Quiet.undefined

/-- A checksum throws nothing. -/
theorem calculateChecksum_quiet (data : Bytes) (first : ℕ) (last : ℤ) :
    (calculateChecksum data first last).Quiet :=
  (calculateChecksum.loop_quiet _ _ _ _).bind fun _ => Eval.Quiet.ok _

/-- The checksum of a whole vector. -/
theorem calculateChecksum_all {data : Bytes} (hev : data.length % 2 = 0)
    (hn : data.length ≤ 131072) :
    calculateChecksum data 0 (intOfSize data.length) =
      .ok (UInt16.ofNat (fold16 (wordSum data))) := by
  rw [intOfSize_eq (by omega), calculateChecksum_eq hev (Nat.le_refl _) hn, List.take_length]

/-- The test of a whole vector. -/
theorem verifyChecksum_all {data : Bytes} (hev : data.length % 2 = 0)
    (hn : data.length ≤ 131072) :
    verifyChecksum data 0 (intOfSize data.length) =
      .ok (decide (fold16 (wordSum data) = 65535)) := by
  have hword : UInt16.ofNat (fold16 (wordSum data)) = 0xFFFF ↔ fold16 (wordSum data) = 65535 := by
    rw [← UInt16.toNat_inj, toNat_ofNat_fold16]
    rfl
  rw [verifyChecksum, calculateChecksum_all hev hn, Eval.ok_bind, Eval.pure_eq]
  refine congrArg Except.ok ?_
  rw [beq_eq_decide, decide_eq_decide]
  exact hword

/-- Two folded sums, added up and folded again. -/
theorem calculateChecksumUint16_pair (p a : UInt16) :
    calculateChecksumUint16 [p, a] 0 (intOfSize [p, a].length) =
      UInt16.ofNat (fold16 (p.toNat + a.toNat)) := by
  have hp := p.toNat_lt
  have ha := a.toNat_lt
  have hlen : intOfSize [p, a].length = 2 := intOfSize_eq (by simp)
  have hloop : calculateChecksumUint16 [p, a] 0 2 = foldOnce (0 + p.toUInt32 + a.toUInt32) := rfl
  apply UInt16.toNat_inj.mp
  rw [hlen, hloop, toNat_foldOnce, UInt32.toNat_add, UInt32.toNat_add, UInt16.toNat_toUInt32,
    UInt16.toNat_toUInt32, UInt32.toNat_zero, toNat_ofNat_fold16]
  congr 1
  omega

end Suika
