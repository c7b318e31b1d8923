import Suika.Lib.Decimal
import Suika.UdpSocket

/-!
# Textual IPv4 addresses

`Ipv4strToUint32` and `Uint32ToIpv4str`. The texts meant for the parser are the dotted quads
(`DottedQuad`): it reads their value (`ipv4strToUint32_dottedQuad`), and what the printer writes is
one of them without leading zeros, the only such one with its value.

The parser checks nothing but the number of words, and only upwards. Of a word it takes the leading
digits; a word without any, or with too many, leaves the variable behind `from_chars` unset.
`ipv4strToUint32_throws_iff` says which texts it refuses.
-/

namespace Suika

open Cpp Decimal

/-! ## One word -/

theorem digitValue_ten (c : Char) :
    digitValue 10 c = if c.isDigit then some (c.toNat - 48) else none := by
  have hdigit : c.isDigit = true ↔ '0' ≤ c ∧ c ≤ '9' := by
    simp [Char.isDigit, Char.le_def]
  by_cases h : '0' ≤ c ∧ c ≤ '9'
  · have hle := toNat_of_isDigit (hdigit.mpr h)
    have hlt : c.toNat - 48 < 10 := by omega
    rw [digitValue, if_pos h, if_pos (hdigit.mpr h)]
    simp [hlt]
  · rw [digitValue, if_neg h, if_neg (fun hc => h (hdigit.mp hc))]
    -- a letter is worth at least ten
    split
    · simp
    · split <;> simp

theorem digitsValue_ten (w : List Char) (n : ℕ) :
    digitsValue 10 w (some n) = some (Nat.ofDigitChars 10 (leading w) n) := by
  induction w generalizing n with
  | nil => rfl
  | cons c w ih =>
    by_cases hc : c.isDigit = true
    · simp [digitsValue, digitValue_ten, leading, hc, ih, Nat.ofDigitChars_cons, Nat.mul_comm]
    · simp [digitsValue, digitValue_ten, leading, hc]

/-- The word begins with a number that fits into 32 bits. -/
def Readable (w : List Char) : Prop := leading w ≠ [] ∧ value (leading w) < 4294967296

instance (w : List Char) : Decidable (Readable w) := inferInstanceAs (Decidable (_ ∧ _))

/-- `from_chars` reads the leading digits of a word, whatever follows them. -/
theorem fromCharsUint32_ten (w : List Char) :
    fromCharsUint32 w 10 =
      if Readable w then some (UInt32.ofNat (value (leading w))) else none := by
  have hdigits : digitsValue 10 w none =
      if leading w = [] then none else some (value (leading w)) := by
    cases w with
    | nil => rfl
    | cons c w =>
      by_cases hc : c.isDigit = true
      · simp [digitsValue, digitValue_ten, leading, hc, value, Nat.ofDigitChars_cons,
          digitsValue_ten]
      · simp [digitsValue, digitValue_ten, leading, hc]
  rw [fromCharsUint32, hdigits]
  by_cases hnil : leading w = []
  · simp [Readable, hnil]
  · simp [Readable, hnil]

/-! ## Dotted quads -/

/-- A decimal number from 0 to 255. -/
def Octet (w : List Char) : Prop := Numeral w ∧ value w ≤ 255

instance (w : List Char) : Decidable (Octet w) := inferInstanceAs (Decidable (_ ∧ _))

/-- The text of an address: four octets joined by dots. -/
structure DottedQuad (str : List Char) (words : List (List Char)) : Prop where
  length : words.length = 4
  octet : ∀ w ∈ words, Octet w
  text : str = ['.'].intercalate words

/-- The big-endian value of the octets. -/
def quadValue (words : List (List Char)) : ℕ := words.foldl (fun n w => n * 256 + value w) 0

/-- The bytes of an address, as numbers. -/
def octets (n : ℕ) : List ℕ := [n / 16777216 % 256, n / 65536 % 256, n / 256 % 256, n % 256]

theorem dot_not_mem {w : List Char} (h : Numeral w) : '.' ∉ w :=
  fun hdot => absurd (h.2 '.' hdot) (by decide)

theorem Octet.readable {w : List Char} (h : Octet w) : Readable w := by
  have hle := h.2
  rw [Readable, h.1.leading_eq]
  exact ⟨h.1.1, by omega⟩

theorem octet_toDigits {n : ℕ} (h : n < 256) : Octet (Nat.toDigits 10 n) :=
  ⟨numeral_toDigits n, by rw [value_toDigits]; omega⟩

theorem viewsSplit_dottedQuad {str : List Char} {words : List (List Char)}
    (h : DottedQuad str words) : viewsSplit str '.' = words := by
  rw [h.text]
  exact viewsSplit_intercalate (by rw [h.length]; omega) fun w hw => dot_not_mem (h.octet w hw).1

/-- The bytes of a value are its octets. -/
theorem octets_quadValue {words : List (List Char)} (hlen : words.length = 4)
    (h : ∀ w ∈ words, Octet w) : octets (quadValue words) = words.map value := by
  match words, hlen with
  | [a, b, c, d], _ =>
    have ha := (h a (by simp)).2
    have hb := (h b (by simp)).2
    have hc := (h c (by simp)).2
    have hd := (h d (by simp)).2
    simp only [octets, quadValue, List.foldl_cons, List.foldl_nil, List.map_cons, List.map_nil,
      List.cons.injEq, and_true]
    omega

/-- Four bytes are all that counts. -/
theorem octets_mod (n : ℕ) : octets (n % 2 ^ 32) = octets n := by
  simp only [octets, List.cons.injEq, and_true]
  omega

theorem quadValue_octets {n : ℕ} (h : n < 4294967296) :
    quadValue ((octets n).map (Nat.toDigits 10)) = n := by
  simp only [octets, quadValue, List.map_cons, List.map_nil, List.foldl_cons, List.foldl_nil,
    value_toDigits]
  omega

/-! ## Printing -/

/-- The printed text consists of the bytes of the address, in decimal. -/
theorem uint32ToIpv4str_eq (addr : UInt32) :
    uint32ToIpv4str addr = ['.'].intercalate ((octets addr.toNat).map (Nat.toDigits 10)) := by
  have hbyte : ∀ n : ℕ, n &&& 255 = n % 256 := fun n => Nat.and_two_pow_sub_one_eq_mod n 8
  simp [uint32ToIpv4str, octets, List.intercalate_cons_cons, UInt32.toNat_and,
    UInt32.toNat_shiftRight, Nat.shiftRight_eq_div_pow, hbyte]

/-- It is a dotted quad. -/
theorem dottedQuad_uint32ToIpv4str (addr : UInt32) :
    DottedQuad (uint32ToIpv4str addr) ((octets addr.toNat).map (Nat.toDigits 10)) where
  length := rfl
  octet := by
    intro w hw
    obtain ⟨n, hn, rfl⟩ := List.mem_map.mp hw
    refine octet_toDigits ?_
    simp only [octets, List.mem_cons, List.not_mem_nil, or_false] at hn
    omega
  text := uint32ToIpv4str_eq addr

/-- Printing a value writes its octets without leading zeros. -/
theorem uint32ToIpv4str_quadValue {str : List Char} {words : List (List Char)}
    (h : DottedQuad str words) (hz : ∀ w ∈ words, NoLeadingZero w) :
    uint32ToIpv4str (UInt32.ofNat (quadValue words)) = str := by
  have hwords : (words.map value).map (Nat.toDigits 10) = words := by
    rw [List.map_map]
    exact (List.map_congr_left fun w hw => toDigits_value (h.octet w hw).1 (hz w hw)).trans
      (List.map_id words)
  rw [uint32ToIpv4str_eq, UInt32.toNat_ofNat', octets_mod, octets_quadValue h.length h.octet,
    hwords, h.text]

/-! ## Parsing -/

/-- One round of the loop, on numbers. -/
theorem shiftLeft_or_ofNat (n : ℕ) {v : ℕ} (hv : v ≤ 255) :
    UInt32.ofNat n <<< 8 ||| UInt32.ofNat v = UInt32.ofNat (n * 256 + v) := by
  have hshift : (n % 4294967296) <<< 8 % 4294967296 = (n % 16777216) <<< 8 := by
    simp only [Nat.shiftLeft_eq, Nat.reducePow]
    omega
  apply UInt32.toNat_inj.mp
  simp only [UInt32.toNat_or, UInt32.toNat_shiftLeft, UInt32.toNat_ofNat', UInt32.reduceToNat,
    Nat.reduceMod, Nat.reducePow]
  rw [hshift, Nat.mod_eq_of_lt (by omega : v < 4294967296),
    ← Nat.shiftLeft_add_eq_or_of_lt (by omega), Nat.shiftLeft_eq]
  omega

/-- The loop over octets, as many as there is room for. -/
theorem ipv4strToUint32.loop_octets {str : List Char} {words : List (List Char)} {idx : ℕ}
    (n : ℕ) (hlen : idx + words.length ≤ 4) (h : ∀ w ∈ words, Octet w) :
    loop str words idx (UInt32.ofNat n) =
      .ok (UInt32.ofNat (words.foldl (fun n w => n * 256 + value w) n)) := by
  induction words generalizing idx n with
  | nil => rfl
  | cons w words ih =>
    have hw := h w List.mem_cons_self
    rw [List.length_cons] at hlen
    rw [loop, if_neg (by omega), fromCharsUint32_ten, if_pos hw.readable, hw.1.leading_eq]
    dsimp only
    rw [shiftLeft_or_ofNat n hw.2,
      ih _ (by omega) fun v hv => h v (List.mem_cons_of_mem _ hv)]
    rfl

/-- **The parser reads dotted quads.** -/
theorem ipv4strToUint32_dottedQuad {str : List Char} {words : List (List Char)}
    (h : DottedQuad str words) :
    ipv4strToUint32 str = .ok (UInt32.ofNat (quadValue words)) := by
  rw [ipv4strToUint32, viewsSplit_dottedQuad h]
  exact ipv4strToUint32.loop_octets 0 (by rw [h.length]) h.octet

/-- The loop refuses a fifth word, if it gets there: the four in front have to be readable. -/
theorem ipv4strToUint32.loop_throws_iff {str : List Char} {words : List (List Char)} {idx : ℕ}
    {ret : UInt32} (hidx : idx ≤ 4) :
    (∃ e, loop str words idx ret = Eval.throwing e) ↔
      4 < idx + words.length ∧ ∀ w ∈ words.take (4 - idx), Readable w := by
  induction words generalizing idx ret with
  | nil =>
    refine ⟨fun ⟨e, he⟩ => (nomatch he), fun h => ?_⟩
    have hlen := h.1
    rw [List.length_nil] at hlen
    omega
  | cons w words ih =>
    rw [List.length_cons]
    by_cases hfour : idx = 4
    · subst hfour
      rw [loop, if_pos (Nat.le_refl 4)]
      exact ⟨fun _ => ⟨by omega, by simp⟩, fun _ => ⟨_, rfl⟩⟩
    · obtain ⟨k, hk⟩ : ∃ k, 4 - idx = k + 1 := ⟨4 - idx - 1, by omega⟩
      have hnext : 4 - (idx + 1) = k := by omega
      rw [loop, if_neg (by omega), fromCharsUint32_ten, hk, List.take_succ_cons,
        List.forall_mem_cons]
      by_cases hw : Readable w
      · have hrest := @ih (idx + 1) (ret <<< 8 ||| UInt32.ofNat (value (leading w))) (by omega)
        rw [hnext, Nat.add_right_comm, Nat.add_assoc] at hrest
        rw [if_pos hw]
        exact hrest.trans (and_congr_right fun _ => ⟨fun h => ⟨hw, h⟩, fun h => h.2⟩)
      · rw [if_neg hw]
        exact ⟨fun ⟨e, he⟩ => (nomatch he), fun h => absurd h.2.1 hw⟩

/-- More than four words, the first four of them readable. -/
def Overlong (str : List Char) : Prop :=
  4 < (str.splitOn '.').length ∧ ∀ w ∈ (str.splitOn '.').take 4, Readable w

instance (str : List Char) : Decidable (Overlong str) := inferInstanceAs (Decidable (_ ∧ _))

/-- **The texts the parser refuses.** -/
theorem ipv4strToUint32_throws_iff (str : List Char) :
    (∃ e, ipv4strToUint32 str = Eval.throwing e) ↔ Overlong str := by
  by_cases hnil : str = []
  · subst hnil
    exact ⟨fun ⟨e, he⟩ => (nomatch he), fun h => absurd h (by decide)⟩
  · rw [ipv4strToUint32, viewsSplit_of_ne_nil hnil,
      ipv4strToUint32.loop_throws_iff (Nat.zero_le 4), Nat.zero_add]
    rfl

/-! ## Results -/

/-- `sendTo` behind its first line: to an address instead of a text. -/
def UdpSocket.sendToAddr (cfg : Config) (sock : UdpSocket) (payload : Bytes)
    (ipAddr port : UInt32) : Call ℤ := do
  let target : IpEndpoint := ⟨ipAddr, port.toUInt16⟩
  let s ← Comp.get
  let pcb ← s.udpPcbMgr.get sock.pcbId
  if pcb.state ≠ .OPEN then throwRuntime "pcb not found"
  else
    let addr ← localAddr cfg pcb ipAddr
    let port ← localPort sock pcb addr
    udpOutput cfg ⟨addr, port⟩ target payload

/-- **Textual addresses round-trip.**
* Every address is read back from its text.
* Every dotted quad without leading zeros is printed again.
* `sendTo` to the text of an address, such as `recvFrom` reports, sends to this address. -/
theorem ipv4str_roundTrip :
    (∀ a : UInt32, ipv4strToUint32 (uint32ToIpv4str a) = .ok a) ∧
    (∀ str words, DottedQuad str words → (∀ w ∈ words, NoLeadingZero w) →
      ∃ a, ipv4strToUint32 str = .ok a ∧ uint32ToIpv4str a = str) ∧
    ∀ cfg sock payload a port, UdpSocket.sendTo cfg sock payload (uint32ToIpv4str a) port =
      UdpSocket.sendToAddr cfg sock payload a port := by
  have hread : ∀ a : UInt32, ipv4strToUint32 (uint32ToIpv4str a) = .ok a := by
    intro a
    rw [ipv4strToUint32_dottedQuad (dottedQuad_uint32ToIpv4str a), quadValue_octets a.toNat_lt,
      UInt32.ofNat_toNat]
  refine ⟨hread, fun str words h hz => ?_, fun cfg sock payload a port => ?_⟩
  · exact ⟨_, ipv4strToUint32_dottedQuad h, uint32ToIpv4str_quadValue h hz⟩
  · rw [UdpSocket.sendTo, hread, Comp.lift_ok_bind]
    rfl

/-- The text `10.0.0.7`, and the broadcast address. -/
theorem ipv4str_roundTrip_examples :
    ipv4strToUint32 (uint32ToIpv4str 0xffffffff) = .ok 0xffffffff ∧
    ∃ a, ipv4strToUint32 ['1', '0', '.', '0', '.', '0', '.', '7'] = .ok a ∧
      uint32ToIpv4str a = ['1', '0', '.', '0', '.', '0', '.', '7'] :=
  ⟨ipv4str_roundTrip.1 0xffffffff,
    ipv4str_roundTrip.2.1 _ [['1', '0'], ['0'], ['0'], ['7']] ⟨rfl, by decide, rfl⟩ (by decide)⟩

/-- The parser accepts a dotted quad as its value, and refuses any other text; so nothing is bound
or sent to an address that such a text does not have. -/
structure ParsesExactly (str : List Char) : Prop where
  accepts : ∀ words, DottedQuad str words →
    ipv4strToUint32 str = .ok (UInt32.ofNat (quadValue words))
  refuses : (¬ ∃ words, DottedQuad str words) → ∃ e, ipv4strToUint32 str = Eval.throwing e
  bind : (¬ ∃ words, DottedQuad str words) →
    ∀ sock port s, ∃ e, (UdpSocket.bind sock str port).run s = .threw s e
  sendTo : (¬ ∃ words, DottedQuad str words) →
    ∀ cfg sock payload port s, ∃ e, (UdpSocket.sendTo cfg sock payload str port).run s = .threw s e

/-- **Which texts are read as they should be**: the dotted quads, and of all the others only the
ones that are refused for their length. -/
theorem parsesExactly_iff (str : List Char) :
    ParsesExactly str ↔ (∃ words, DottedQuad str words) ∨ Overlong str := by
  constructor
  · intro h
    by_cases hquad : ∃ words, DottedQuad str words
    · exact Or.inl hquad
    · exact Or.inr ((ipv4strToUint32_throws_iff str).mp (h.refuses hquad))
  · intro h
    have hrefuses : (¬ ∃ words, DottedQuad str words) →
        ∃ e, ipv4strToUint32 str = Eval.throwing e := by
      intro hquad
      exact (ipv4strToUint32_throws_iff str).mpr (h.resolve_left hquad)
    refine ⟨fun words hw => ipv4strToUint32_dottedQuad hw, hrefuses, fun hquad => ?_,
      fun hquad => ?_⟩
    · obtain ⟨e, he⟩ := hrefuses hquad
      intro sock port s
      exact ⟨e, by rw [UdpSocket.bind, he]; rfl⟩
    · obtain ⟨e, he⟩ := hrefuses hquad
      intro cfg sock payload port s
      exact ⟨e, by rw [UdpSocket.sendTo, he]; rfl⟩

/-- `10.0.0.256` is read as `10.0.1.0`. -/
theorem not_forall_parsesExactly : ¬ ∀ str, ParsesExactly str := by
  intro h
  have hread : ipv4strToUint32 ['1', '0', '.', '0', '.', '0', '.', '2', '5', '6'] =
      .ok 0x0A000100 := rfl
  obtain ⟨e, he⟩ := (h ['1', '0', '.', '0', '.', '0', '.', '2', '5', '6']).refuses (by
    rintro ⟨words, hquad⟩
    have hwords := viewsSplit_dottedQuad hquad
    have hoctet := hquad.octet
    rw [← hwords] at hoctet
    exact absurd hoctet (by decide))
  rw [hread] at he
  cases he

end Suika
