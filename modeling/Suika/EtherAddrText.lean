import Mathlib.Data.Set.List
import Suika.Lib.Decimal
import Suika.Arp

/-!
# Textual MAC addresses

`addressToString` and `stringToAddress` of `lib/EtherDevice.cpp`; the latter reads the address the
device is constructed with. A printed address is six groups of two lower-case hexadecimal digits,
and each of them is the group of one byte (`hexGroup_iff`).
-/

namespace Suika

open Cpp

/-- `std::from_chars` into an `int`: a sign may stand in front of the digits. -/
def fromCharsInt (word : List Char) (base : ℕ) : Option ℤ :=
  match word with
  | '-' :: digits =>
    match digitsValue base digits none with
    | some n => if n ≤ 2147483648 then some (-n) else none
    | none => none
  | _ =>
    match digitsValue base word none with
    | some n => if n < 2147483648 then some n else none
    | none => none

/-- `ar[idx] = b` -/
def EtherAddr.set (ar : EtherAddr) (idx : ℕ) (b : UInt8) : EtherAddr :=
  ⟨ar.val.set idx b, List.length_set.trans ar.property⟩

namespace EtherDevice

def addressToString (addr : EtherAddr) : List Char := [':'].intercalate (addr.val.map hex02)

/-- The loop of `stringToAddress` over the words. Where `from_chars` leaves `value` alone, the
variable is read without ever having been set. -/
def stringToAddress.loop (str : List Char) : List (List Char) → ℕ → EtherAddr → Eval Err EtherAddr
  | [], _, ar => .ok ar
  | word :: words, idx, ar =>
    if idx ≥ etherAddrLen then runtimeError ("invalid format " ++ String.ofList str)
    else
      match fromCharsInt word 16 with
      | some value => loop str words (idx + 1) (ar.set idx (UInt8.ofInt value))
      | none => Eval.undefined

def stringToAddress (str : List Char) : Eval Err EtherAddr :=
  stringToAddress.loop str (viewsSplit str ':') 0 ⟨List.replicate etherAddrLen 0, rfl⟩

/-! ## One group -/

/-- A digit of a printed address. -/
def LowerHex (c : Char) : Prop := c.isDigit ∨ 'a' ≤ c ∧ c ≤ 'f'

instance (c : Char) : Decidable (LowerHex c) := inferInstanceAs (Decidable (_ ∨ _))

/-- Two of them. -/
def HexGroup (w : List Char) : Prop := w.length = 2 ∧ ∀ c ∈ w, LowerHex c

instance (w : List Char) : Decidable (HexGroup w) :=
  haveI := List.decidableBAll LowerHex w
  instDecidableAnd

theorem digitValue_digitChar : ∀ n < 16, digitValue 16 (Nat.digitChar n) = some n := by
  decide

theorem lowerHex_digitChar : ∀ n < 16, LowerHex (Nat.digitChar n) := by
  decide

theorem LowerHex.eq_digitChar {c : Char} (h : LowerHex c) : ∃ n < 16, c = Nat.digitChar n := by
  rcases h with h | ⟨ha, hf⟩
  · have hle := Decimal.toNat_of_isDigit h
    exact ⟨c.toNat - 48, by omega, (Decimal.digitChar_of_isDigit h).symm⟩
  · have hletter : ∀ n < 6, (Nat.digitChar (n + 10)).toNat = n + 97 := by decide
    have ha' : 97 ≤ c.toNat := ha
    have hf' : c.toNat ≤ 102 := hf
    have hn := hletter (c.toNat - 97) (by omega)
    refine ⟨c.toNat - 97 + 10, by omega, Char.toNat_inj.mp ?_⟩
    omega

/-- **The groups are the printed bytes.** -/
theorem hexGroup_iff (w : List Char) : HexGroup w ↔ w ∈ Set.range hex02 := by
  constructor
  · rintro ⟨hlen, hhex⟩
    match w, hlen with
    | [c, d], _ =>
      obtain ⟨m, hm, rfl⟩ := (hhex c (by simp)).eq_digitChar
      obtain ⟨n, hn, rfl⟩ := (hhex d (by simp)).eq_digitChar
      refine ⟨UInt8.ofNat (m * 16 + n), ?_⟩
      have hbyte : (UInt8.ofNat (m * 16 + n)).toNat = m * 16 + n := by
        rw [UInt8.toNat_ofNat']
        omega
      rw [hex02, hbyte]
      congr 2
      · omega
      · congr 1
        omega
  · rintro ⟨b, rfl⟩
    have hb := b.toNat_lt
    refine ⟨rfl, fun c hc => ?_⟩
    simp only [hex02, List.mem_cons, List.not_mem_nil, or_false] at hc
    rcases hc with rfl | rfl
    · exact lowerHex_digitChar _ (by omega)
    · exact lowerHex_digitChar _ (by omega)

theorem colon_not_mem_hex02 (b : UInt8) : ':' ∉ hex02 b := by
  intro h
  exact absurd (((hexGroup_iff _).mpr ⟨b, rfl⟩).2 ':' h) (by decide)

/-- A printed byte is read back. -/
theorem fromCharsInt_hex02 (b : UInt8) : fromCharsInt (hex02 b) 16 = some (b.toNat : ℤ) := by
  have hb := b.toNat_lt
  have hdigits : digitsValue 16 (hex02 b) none = some b.toNat := by
    have hhi := digitValue_digitChar (b.toNat / 16) (by omega)
    have hlo := digitValue_digitChar (b.toNat % 16) (by omega)
    simp only [digitsValue, hex02, hhi, hlo, Option.getD_none, Option.getD_some]
    congr 1
    omega
  have hsign : ∀ digits, hex02 b ≠ '-' :: digits := by
    intro digits h
    exact absurd (((hexGroup_iff _).mpr ⟨b, rfl⟩).2 '-' (by rw [h]; simp)) (by decide)
  unfold fromCharsInt
  split
  · rename_i digits h
    exact absurd h (hsign digits)
  · rw [hdigits]
    exact if_pos (by omega)

/-! ## The whole address -/

/-- The loop over printed bytes, as many as there is room for. -/
theorem stringToAddress.loop_hex02 {str : List Char} {bytes : Bytes} {idx : ℕ} {ar : EtherAddr}
    (h : idx + bytes.length ≤ 6) :
    ∃ a, loop str (bytes.map hex02) idx ar = .ok a ∧ a.val = patch ar.val idx bytes := by
  induction bytes generalizing idx ar with
  | nil => exact ⟨ar, rfl, by simp [patch]⟩
  | cons b bytes ih =>
    have har := ar.length_val
    rw [List.length_cons] at h
    have hbyte : UInt8.ofInt (b.toNat : ℤ) = b := by
      have hb := b.toNat_lt
      apply UInt8.toNat_inj.mp
      rw [UInt8.ofInt, UInt8.toNat_ofNat']
      omega
    obtain ⟨a, ha, hval⟩ := @ih (idx + 1) (ar.set idx b) (by omega)
    refine ⟨a, ?_, ?_⟩
    · rw [List.map_cons, loop, if_neg (by rw [etherAddrLen]; omega), fromCharsInt_hex02]
      dsimp only
      rw [hbyte]
      exact ha
    · have hset : (ar.set idx b).val = patch ar.val idx [b] := set_eq_patch b (by omega)
      have hnext : patch (patch ar.val idx [b]) (idx + [b].length) bytes =
          patch ar.val idx ([b] ++ bytes) := patch_patch_next (by
        rw [List.length_singleton]
        omega)
      rw [hval, hset]
      exact hnext

theorem stringToAddress_addressToString (a : EtherAddr) :
    stringToAddress (addressToString a) = .ok a := by
  have hlen := a.length_val
  obtain ⟨b, hb, hval⟩ := @stringToAddress.loop_hex02 (addressToString a) a.val 0
    ⟨List.replicate etherAddrLen 0, rfl⟩ (by omega)
  have hwords : viewsSplit (addressToString a) ':' = a.val.map hex02 := by
    refine viewsSplit_intercalate (by rw [List.length_map]; omega) fun w hw => ?_
    obtain ⟨c, -, rfl⟩ := List.mem_map.mp hw
    exact colon_not_mem_hex02 c
  rw [stringToAddress, hwords, hb]
  refine congrArg Except.ok (Subtype.ext (hval.trans ?_))
  rw [patch, List.take_zero, List.drop_of_length_le (by rw [List.length_replicate]; omega),
    List.append_nil]
  rfl

/-- **Textual MAC addresses round-trip.** -/
theorem etherAddr_roundTrip :
    (∀ a : EtherAddr, stringToAddress (addressToString a) = .ok a) ∧
    ∀ groups : List (List Char), groups.length = 6 → (∀ w ∈ groups, HexGroup w) →
      ∃ a, stringToAddress ([':'].intercalate groups) = .ok a ∧
        addressToString a = [':'].intercalate groups := by
  refine ⟨stringToAddress_addressToString, fun groups hlen hgroups => ?_⟩
  have hrange : groups ∈ Set.range (List.map hex02) := by
    rw [Set.range_list_map]
    exact fun w hw => (hexGroup_iff w).mp (hgroups w hw)
  obtain ⟨bytes, rfl⟩ := hrange
  rw [List.length_map] at hlen
  exact ⟨⟨bytes, hlen⟩, stringToAddress_addressToString ⟨bytes, hlen⟩, rfl⟩

/-- `0a:00:ff:7f:80:01` -/
theorem etherAddr_roundTrip_example :
    stringToAddress (addressToString ⟨[10, 0, 255, 127, 128, 1], rfl⟩) =
      .ok ⟨[10, 0, 255, 127, 128, 1], rfl⟩ ∧
    ∃ a, stringToAddress ([':'].intercalate [['0', 'a'], ['0', '0'], ['f', 'f'], ['7', 'f'],
        ['8', '0'], ['0', '1']]) = .ok a ∧
      addressToString a = [':'].intercalate [['0', 'a'], ['0', '0'], ['f', 'f'], ['7', 'f'],
        ['8', '0'], ['0', '1']] :=
  ⟨etherAddr_roundTrip.1 _, etherAddr_roundTrip.2 _ rfl (by decide)⟩

end EtherDevice

end Suika
