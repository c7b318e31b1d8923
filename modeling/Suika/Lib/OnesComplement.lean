import Suika.Lib.Bytes

/-!
# Word sums folded once

The Internet checksum adds the big-endian 16-bit words of its data and brings the carries back
around. `wordSum` is the plain sum; `fold16` brings the carries back *once*, which is all that
many implementations do. One fold is not always enough: when low and high half together reach
`65536` the fold carries again, and that carry is dropped (`CarryLost`).

* `fold16_complement_iff`: a sum completed by the complement of its own fold verifies exactly when
  no carry is lost.
* `fold16_pair_complement_iff`: the same for a checksum over two parts that are folded separately,
  where the completion goes into the second part. What decides is whether the second part loses
  its carry with and without the completion alike (`CarryMismatch`).

`foldAll` brings the carries back until none is left, which is what the one's complement sum means.
Only the comparison with the all-ones word survives the shortcut: for one part it always does
(`fold16_eq_max_iff`), for two parts folded separately it does unless exactly one of them lost its
carry and the folds add up to the wrong thing (`fold16_pair_eq_max_iff`).
-/

namespace OnesComplement

open Cpp

/-! ## The plain sum -/

/-- The sum of the big-endian 16-bit words; an odd last byte counts as the high half of a word. -/
def wordSum : Bytes → ℕ
  | [] => 0
  | [a] => a.toNat * 256
  | a :: b :: rest => a.toNat * 256 + b.toNat + wordSum rest

@[simp] theorem wordSum_nil : wordSum [] = 0 := rfl

@[simp] theorem wordSum_cons_cons (a b : UInt8) (rest : Bytes) :
    wordSum (a :: b :: rest) = a.toNat * 256 + b.toNat + wordSum rest := rfl

/-- Behind an even number of bytes the sum starts afresh. -/
theorem wordSum_append : ∀ {l₁ l₂ : Bytes}, l₁.length % 2 = 0 →
    wordSum (l₁ ++ l₂) = wordSum l₁ + wordSum l₂
  | [], l₂, _ => by simp
  | [_], _, h => by simp at h
  | a :: b :: l, l₂, h => by
      have hl : l.length % 2 = 0 := by
        simp only [List.length_cons] at h
        omega
      simp only [List.cons_append, wordSum_cons_cons, wordSum_append hl, Nat.add_assoc]

theorem wordSum_be16 (v : UInt16) : wordSum (be16 v) = v.toNat := by
  have hv := v.toNat_lt
  rw [be16, wordSum_cons_cons, toNat_hi16, UInt16.toNat_toUInt8, wordSum_nil]
  omega

theorem wordSum_be32 (v : UInt32) :
    wordSum (be32 v) = v.toNat / 65536 + v.toNat % 65536 := by
  have hv := v.toNat_lt
  rw [be32, wordSum_cons_cons, wordSum_cons_cons, wordSum_nil, toNat_byte32, toNat_byte32,
    toNat_byte32, UInt32.toNat_toUInt8]
  simp only [UInt32.reduceToNat, Nat.reduceMod, Nat.reducePow]
  omega

/-- Each word adds at most `65535`. -/
theorem wordSum_le : ∀ l : Bytes, wordSum l ≤ 65535 * ((l.length + 1) / 2)
  | [] => by simp
  | [a] => by
      have ha := a.toNat_lt
      simp only [wordSum, List.length_cons, List.length_nil]
      omega
  | a :: b :: l => by
      have ha := a.toNat_lt
      have hb := b.toNat_lt
      have hl := wordSum_le l
      simp only [wordSum_cons_cons, List.length_cons]
      omega

/-- A word written over a zero word adds itself to the sum. -/
theorem wordSum_take_patch {data : Bytes} {off n : ℕ} (v : UInt16) (hoff : off % 2 = 0)
    (hn : off + 2 ≤ n) (hlen : off + 2 ≤ data.length) :
    wordSum ((patch data off (be16 v)).take n) =
      wordSum ((patch data off (be16 0)).take n) + v.toNat := by
  have hpre : (data.take off).length = off := by
    rw [List.length_take]
    omega
  -- the words in front, the word written, the words behind
  have hsum : ∀ w : UInt16, wordSum ((patch data off (be16 w)).take n) =
      wordSum (data.take off) + w.toNat + wordSum ((data.drop (off + 2)).take (n - (off + 2))) := by
    intro w
    have hhead : (data.take off ++ be16 w).length = off + 2 := by
      rw [List.length_append, hpre, length_be16]
    rw [patch, length_be16, List.take_append, List.take_of_length_le (by omega), hhead,
      wordSum_append (by omega), wordSum_append (by omega), wordSum_be16]
  rw [hsum v, hsum 0, UInt16.toNat_zero]
  omega

/-! ## Folding once -/

/-- Add the carries back once, and keep 16 bits. -/
def fold16 (n : ℕ) : ℕ := (n + n / 65536) % 65536

/-- The fold of `n` carries out of 16 bits again; a single fold drops that carry. -/
def CarryLost (n : ℕ) : Prop := 65536 ≤ n % 65536 + n / 65536

instance (n : ℕ) : Decidable (CarryLost n) := inferInstanceAs (Decidable (65536 ≤ _))

theorem fold16_le (n : ℕ) : fold16 n ≤ 65535 := by
  unfold fold16
  omega

/-- A folded sum is a word. -/
theorem toNat_ofNat_fold16 (n : ℕ) : (UInt16.ofNat (fold16 n)).toNat = fold16 n := by
  have hle := fold16_le n
  rw [UInt16.toNat_ofNat', Nat.mod_eq_of_lt (by omega)]

/-- The word that completes it. -/
theorem toNat_not_fold16 (n : ℕ) : (~~~ UInt16.ofNat (fold16 n)).toNat = 65535 - fold16 n := by
  rw [UInt16.toNat_not, toNat_ofNat_fold16]
  rfl

theorem fold16_kept {h l : ℕ} (hl : l < 65536) (hk : l + h < 65536) :
    fold16 (65536 * h + l) = l + h := by
  unfold fold16
  omega

theorem fold16_lost {h l : ℕ} (hl : l < 65536) (hh : h < 65536) (hk : 65536 ≤ l + h) :
    fold16 (65536 * h + l) = l + h - 65536 := by
  unfold fold16
  omega

/-- The sum of two folded halves, when it fits. -/
theorem fold16_small {n : ℕ} (hn : n ≤ 65535) : fold16 n = n := by
  unfold fold16
  omega

/-- The sum of two folded halves, when it carries. -/
theorem fold16_carry {n : ℕ} (h₁ : 65536 ≤ n) (h₂ : n ≤ 131070) : fold16 n = n - 65535 := by
  unfold fold16
  omega

/-- Two folded halves verify when they add up to one of the two representations of zero. -/
theorem fold16_pair_eq_max {p b : ℕ} (hp : p ≤ 65535) (hb : b ≤ 65535) :
    fold16 (p + b) = 65535 ↔ p + b = 65535 ∨ p + b = 131070 := by
  unfold fold16
  omega

/-- Adding a word to a sum either stays in the low half or carries into the high one. -/
theorem fold16_add {h l c : ℕ} (hl : l < 65536) (hh : h < 32768) (hc : c ≤ 65535) :
    fold16 (65536 * h + l + c) =
      if l + c < 65536 then (l + c + h) % 65536 else (l + c + h - 65535) % 65536 := by
  unfold fold16
  split <;> omega

/-- High and low half of a sum. -/
private theorem exists_halves (n : ℕ) : ∃ h l, l < 65536 ∧ n = 65536 * h + l :=
  ⟨n / 65536, n % 65536, by omega, by omega⟩

/-- A sum completed by the complement of its own fold verifies exactly when the fold of the
sum without the completion lost no carry. -/
theorem fold16_complement_iff {n : ℕ} (hn : n < 2147483648) :
    fold16 (n + (65535 - fold16 n)) = 65535 ↔ ¬ CarryLost n := by
  obtain ⟨h, l, hl, rfl⟩ := exists_halves n
  have hd : (65536 * h + l) / 65536 = h := by omega
  have hm : (65536 * h + l) % 65536 = l := by omega
  rw [CarryLost, hd, hm]
  by_cases hk : l + h < 65536
  · have hsum : 65536 * h + l + (65535 - (l + h)) = 65536 * h + (65535 - h) := by omega
    rw [fold16_kept hl hk, hsum, fold16_kept (by omega) (by omega)]
    omega
  · -- the completed sum folds to `65536`, whose 16 low bits are zero
    have hsum : 65536 * h + l + (65535 - (l + h - 65536)) = 65536 * (h + 1) + (65535 - h) := by
      omega
    rw [fold16_lost hl (by omega) (by omega), hsum, fold16_lost (by omega) (by omega) (by omega)]
    omega

/-- A part folded to `p` and a second part with plain sum `s`: completing `s` makes its fold lose
a carry it did not lose before, or keep a carry it lost before. -/
def CarryMismatch (p s : ℕ) : Prop :=
  (¬ CarryLost s ∧ p < 65535 ∧ 65535 ≤ p + s / 65536 ∧ 65536 ≤ p + s % 65536 + s / 65536) ∨
    (CarryLost s ∧ p + s / 65536 ≤ 65535 ∧ p + s % 65536 + s / 65536 ≤ 131071)

instance (p s : ℕ) : Decidable (CarryMismatch p s) := inferInstanceAs (Decidable (_ ∨ _))

/-- Two parts folded separately, the second completed by the complement of the whole: the result
verifies exactly when the second part treats its carry alike with and without the completion. -/
theorem fold16_pair_complement_iff {p s : ℕ} (hp : p ≤ 65535) (hs : s < 2147483648) :
    fold16 (p + fold16 (s + (65535 - fold16 (p + fold16 s)))) = 65535 ↔ ¬ CarryMismatch p s := by
  rw [fold16_pair_eq_max hp (fold16_le _)]
  obtain ⟨h, l, hl, rfl⟩ := exists_halves s
  have hd : (65536 * h + l) / 65536 = h := by omega
  have hm : (65536 * h + l) % 65536 = l := by omega
  rw [CarryMismatch, CarryLost, hd, hm, fold16_add hl (by omega) (by omega)]
  -- does the plain sum carry, and does the sum of both folds
  by_cases hk : l + h < 65536
  · rw [fold16_kept hl hk]
    by_cases hq : p + (l + h) ≤ 65535
    · rw [fold16_small hq]
      split <;> omega
    · rw [fold16_carry (by omega) (by omega)]
      split <;> omega
  · rw [fold16_lost hl (by omega) (by omega)]
    by_cases hq : p + (l + h - 65536) ≤ 65535
    · rw [fold16_small hq]
      split <;> omega
    · rw [fold16_carry (by omega) (by omega)]
      split <;> omega

/-! ## Folding until no carry is left -/

/-- Add the carries back until none is left. -/
def foldAll (n : ℕ) : ℕ :=
  if n < 65536 then n else foldAll (n % 65536 + n / 65536)
termination_by n

theorem foldAll_of_lt {n : ℕ} (h : n < 65536) : foldAll n = n := by
  rw [foldAll, if_pos h]

theorem foldAll_of_le {n : ℕ} (h : 65536 ≤ n) : foldAll n = foldAll (n % 65536 + n / 65536) := by
  rw [foldAll, if_neg (by omega)]

theorem foldAll_le (n : ℕ) : foldAll n ≤ 65535 := by
  induction n using foldAll.induct with
  | case1 n h =>
    rw [foldAll_of_lt h]
    omega
  | case2 n h ih =>
    rw [foldAll_of_le (by omega)]
    exact ih

/-- Carries are added back modulo `65535`. -/
theorem foldAll_mod (n : ℕ) : foldAll n % 65535 = n % 65535 := by
  induction n using foldAll.induct with
  | case1 n h => rw [foldAll_of_lt h]
  | case2 n h ih =>
    rw [foldAll_of_le (by omega), ih]
    omega

/-- Zero has two representations, and only the sum of nothing yields the one with all bits clear. -/
theorem foldAll_eq_zero {n : ℕ} : foldAll n = 0 ↔ n = 0 := by
  induction n using foldAll.induct with
  | case1 n h => rw [foldAll_of_lt h]
  | case2 n h ih =>
    rw [foldAll_of_le (by omega), ih]
    omega

/-- The all-ones word: a multiple of `65535`, and not the empty sum. -/
theorem foldAll_eq_max_iff {n : ℕ} : foldAll n = 65535 ↔ n ≠ 0 ∧ 65535 ∣ n := by
  have hle := foldAll_le n
  have hmod := foldAll_mod n
  have hzero : foldAll n = 0 ↔ n = 0 := foldAll_eq_zero
  omega

/-- **One fold is enough to recognise the all-ones word**, for sums of up to 65536 words. -/
theorem fold16_eq_max_iff {n : ℕ} (hn : n ≤ 65535 * 65536) :
    fold16 n = 65535 ↔ foldAll n = 65535 := by
  obtain ⟨h, l, hl, rfl⟩ := exists_halves n
  rw [foldAll_eq_max_iff]
  by_cases hk : l + h < 65536
  · rw [fold16_kept hl hk]
    omega
  · rw [fold16_lost hl (by omega) (by omega)]
    omega

/-- Exactly one of two parts loses a carry when it is folded, and the two folds add up to `65534` or
`65535` without that carry. -/
def FoldMismatch (p s : ℕ) : Prop :=
  (CarryLost p ∧ ¬ CarryLost s ∨ ¬ CarryLost p ∧ CarryLost s) ∧
    (p % 65536 + p / 65536 + (s % 65536 + s / 65536) = 131070 ∨
      p % 65536 + p / 65536 + (s % 65536 + s / 65536) = 131071)

instance (p s : ℕ) : Decidable (FoldMismatch p s) := inferInstanceAs (Decidable (_ ∧ _))

/-- **Two parts folded separately** verify exactly when the whole does, unless the folds
mismatch. -/
theorem fold16_pair_eq_max_iff {p s : ℕ} (hp : p < 2147483648) (hs : s < 2147483648)
    (hp0 : p ≠ 0) :
    (fold16 (fold16 p + fold16 s) = 65535 ↔ foldAll (p + s) = 65535) ↔ ¬ FoldMismatch p s := by
  rw [fold16_pair_eq_max (fold16_le p) (fold16_le s), foldAll_eq_max_iff]
  obtain ⟨a, b, hb, rfl⟩ := exists_halves p
  obtain ⟨c, d, hd, rfl⟩ := exists_halves s
  have hpd : (65536 * a + b) / 65536 = a := by omega
  have hpm : (65536 * a + b) % 65536 = b := by omega
  have hsd : (65536 * c + d) / 65536 = c := by omega
  have hsm : (65536 * c + d) % 65536 = d := by omega
  rw [FoldMismatch, CarryLost, CarryLost, hpd, hpm, hsd, hsm]
  -- each part keeps or loses its carry
  by_cases hkp : b + a < 65536
  · rw [fold16_kept hb hkp]
    by_cases hks : d + c < 65536
    · rw [fold16_kept hd hks]
      omega
    · rw [fold16_lost hd (by omega) (by omega)]
      omega
  · rw [fold16_lost hb (by omega) (by omega)]
    by_cases hks : d + c < 65536
    · rw [fold16_kept hd hks]
      omega
    · rw [fold16_lost hd (by omega) (by omega)]
      omega

end OnesComplement
