import Suika.UdpCodec

/-!
# What the checksum tests accept

The receive side of `ipUtils` against the one's complement sum with every carry added back
(`OnesComplement.foldAll`).

* A vector that is folded in one go is tested exactly, although the sum itself is often wrong
  (`verifyChecksum_exact`).
* A UDP segment is folded apart from its pseudo header, and then the test can go wrong in both
  directions (`udpAccepted_rfc_iff`).
* A vector of odd size is not padded: the loop reads the byte behind it (`checksumPads_iff`).
-/

namespace Suika

open Cpp BinaryPayload OnesComplement

/-! ## One vector -/

/-- Up to 65536 words, the accumulator holds the plain sum of the words behind it. -/
theorem calculateChecksum.loop_exact {data : Bytes} {n : ℕ} (hev : n % 2 = 0)
    (hle : n ≤ data.length) (hn : n ≤ 131072) :
    ∃ total : UInt32, loop 0 data n 0 = .ok total ∧ total.toNat = wordSum (data.take n) := by
  obtain ⟨total, htotal, hval⟩ := loop_eq (i := 0) (s := 0) hev hle (by omega)
  have hsum := wordSum_le (data.take n)
  rw [List.length_take, Nat.min_eq_left hle] at hsum
  refine ⟨total, htotal, ?_⟩
  rw [hval, UInt32.toNat_zero]
  omega

/-- **The test is exact**: one fold recognises the all-ones word, that is the non-zero multiples of
65535, and no addition overflows. -/
theorem verifyChecksum_exact (data : Bytes) (hev : data.length % 2 = 0)
    (hn : data.length ≤ 131072) :
    verifyChecksum data 0 (intOfSize data.length) =
        .ok (decide (foldAll (wordSum data) = 65535)) ∧
      (foldAll (wordSum data) = 65535 ↔ wordSum data ≠ 0 ∧ 65535 ∣ wordSum data) ∧
      ∀ n, n % 2 = 0 → n ≤ data.length →
        ∃ total : UInt32, calculateChecksum.loop 0 data n 0 = .ok total ∧
          total.toNat = wordSum (data.take n) := by
  refine ⟨?_, foldAll_eq_max_iff, ?_⟩
  · have hsum := wordSum_le data
    have hfold : fold16 (wordSum data) = 65535 ↔ foldAll (wordSum data) = 65535 :=
      fold16_eq_max_iff (by omega)
    rw [verifyChecksum_all hev hn, decide_eq_decide.mpr hfold]
  · intro n hnev hnle
    exact calculateChecksum.loop_exact hnev hnle (by omega)

/-- Two bytes `ff ff`. -/
theorem verifyChecksum_exact_ones :
    verifyChecksum [0xff, 0xff] 0 (intOfSize 2) =
      .ok (decide (foldAll (wordSum [0xff, 0xff]) = 65535)) :=
  (verifyChecksum_exact [0xff, 0xff] (by decide) (by decide)).1

/-! ## Pseudo header and segment -/

/-- The 12 bytes of the pseudo header. -/
def PseudoHeader.bytes (src dst : UInt32) (length : UInt16) : Bytes :=
  be32 src ++ be32 dst ++ [0, 17] ++ be16 length

/-- The sum over pseudo header and segment, with every carry added back, is the all-ones word. -/
def UdpChecksumValid (src dst : UInt32) (segment : Bytes) : Prop :=
  foldAll (wordSum (PseudoHeader.bytes src dst (UInt16.ofNat segment.length) ++ segment)) = 65535

theorem wordSum_pseudoHeader (src dst : UInt32) (length : UInt16) (segment : Bytes) :
    wordSum (PseudoHeader.bytes src dst length ++ segment) =
      pseudoSum src dst length + wordSum segment := by
  rw [PseudoHeader.bytes, wordSum_append (by simp), wordSum_append (by simp),
    wordSum_append (by simp), wordSum_append (by simp), wordSum_be32, wordSum_be32, wordSum_be16,
    pseudoSum]
  rfl

/-- **Folding apart** loses the carry of one part and not of the other: the test then agrees with
the sum over both exactly when the folds do not mismatch. -/
theorem udpAccepted_rfc_iff (src dest : IpEndpoint) (segment : Bytes) (h8 : 8 ≤ segment.length)
    (hev : segment.length % 2 = 0) (hn : segment.length ≤ 65535) :
    (UdpAccepted src dest segment ↔ UdpChecksumValid src.addr dest.addr segment) ↔
      ¬ FoldMismatch (pseudoSum src.addr dest.addr (UInt16.ofNat segment.length))
        (wordSum segment) := by
  have hsum := wordSum_le segment
  have hs := src.addr.toNat_lt
  have hd := dest.addr.toNat_lt
  have hl := (UInt16.ofNat segment.length).toNat_lt
  rw [udpAccepted_iff h8 hev (by omega), ChecksumAccepts, UdpChecksumValid, wordSum_pseudoHeader]
  apply fold16_pair_eq_max_iff
  · rw [pseudoSum]
    omega
  · omega
  · rw [pseudoSum]
    omega

/-- From 192.0.2.2:5555 to 192.0.2.1:40000, a segment of zero bytes. -/
theorem udpAccepted_rfc_zero :
    UdpAccepted ⟨0xC0000202, 5555⟩ ⟨0xC0000201, 40000⟩ [0, 0, 0, 0, 0, 0, 0, 0] ↔
      UdpChecksumValid 0xC0000202 0xC0000201 [0, 0, 0, 0, 0, 0, 0, 0] :=
  (udpAccepted_rfc_iff ⟨0xC0000202, 5555⟩ ⟨0xC0000201, 40000⟩ [0, 0, 0, 0, 0, 0, 0, 0] (by decide)
    (by decide) (by decide)).mpr (by decide)

/-- A segment without payload from 198.51.119.177:1000 to 192.0.2.2:5555, with the checksum that
completes the sum: the words of its pseudo header add up to `0x1ffff`, and it is refused. -/
def refusedSegment : Bytes := udpSegment 1000 5555 8 58971 []

theorem not_forall_udpAccepted_rfc :
    ¬ ∀ (src dest : IpEndpoint) (segment : Bytes), 8 ≤ segment.length → segment.length % 2 = 0 →
      segment.length ≤ 65535 → u16 segment 6 ≠ 0 →
        (UdpAccepted src dest segment ↔ UdpChecksumValid src.addr dest.addr segment) := by
  intro h
  have hiff := h ⟨0xC63377B1, 1000⟩ ⟨0xC0000202, 5555⟩ refusedSegment (by decide) (by decide)
    (by decide) (by decide)
  have hvalid : UdpChecksumValid 0xC63377B1 0xC0000202 refusedSegment :=
    foldAll_eq_max_iff.mpr (by decide)
  have haccepted := hiff.mpr hvalid
  rw [udpAccepted_iff (by decide) (by decide) (by decide)] at haccepted
  exact absurd haccepted (by decide)

/-! ## Odd sizes -/

/-- The checksum of a whole vector stays in bounds, counts an odd last byte as if a zero byte
followed, and so the UDP and ICMP checksums depend on the bytes alone. -/
structure ChecksumPads (data : Bytes) : Prop where
  inBounds : ∃ sum, calculateChecksum data 0 (intOfSize data.length) = .ok sum
  pad : data.length % 2 = 1 →
    calculateChecksum data 0 (intOfSize data.length) =
      calculateChecksum (data ++ [0]) 0 (intOfSize (data ++ [0]).length)
  udp : ∀ src dst, ∃ sum, udpChecksum src dst data = .ok sum
  icmp : ∃ valid, verifyChecksum data 0 (intOfSize data.length) = .ok valid

namespace calculateChecksum

/-- The loop over an odd number of bytes takes the byte behind them along. -/
theorem loop_round : ∀ {i : ℕ} {data : Bytes} {n : ℕ} {s : UInt32}, n % 2 = 1 →
    loop i data n s = loop i data (n + 1) s
  | _, [], _, _, _ => by rw [loop, loop]
  | _, _ :: _, 0, _, hodd => by simp at hodd
  | _, [_], _ + 1, _, _ => rfl
  | _, _ :: _ :: _, 1, _, _ => rfl
  | _, _ :: _ :: _, n + 2, _, hodd => by
      have hn : n % 2 = 1 := by omega
      rw [loop, loop]
      split
      · exact loop_round hn
      · rfl

/-- A bound the counter cannot reach makes it overflow. -/
theorem loop_overflow : ∀ {i : ℕ} {data : Bytes} {n : ℕ} {s : UInt32}, n % 2 = 0 →
    n ≤ data.length → i < 2147483648 → 2147483648 ≤ i + n → loop i data n s = Eval.undefined
  | i, [], n, _, _, hle, hi, hin => by
      simp only [List.length_nil] at hle
      omega
  | i, _ :: _, 0, _, _, _, hi, hin => by omega
  | i, [_], n + 1, _, hev, hle, _, _ => by
      simp only [List.length_cons, List.length_nil] at hle
      omega
  | i, a :: b :: rest, n + 1, s, hev, hle, hi, hin => by
      obtain ⟨m, rfl⟩ : ∃ m, n = m + 1 := ⟨n - 1, by omega⟩
      simp only [List.length_cons] at hle
      have hm : m % 2 = 0 := by omega
      have hmle : m ≤ rest.length := by omega
      rw [loop]
      split
      · rename_i hlt
        exact loop_overflow hm hmle hlt (by omega)
      · rfl

/-- The loop over whole words of a vector does not look at what is behind them. -/
theorem loop_append {data : Bytes} {n : ℕ} (tail : Bytes) (hev : n % 2 = 0)
    (hle : n ≤ data.length) (hn : n < 2147483648) :
    loop 0 (data ++ tail) n 0 = loop 0 data n 0 := by
  obtain ⟨t₁, h₁, hval₁⟩ := loop_eq (i := 0) (s := 0) hev hle (by omega)
  have hle' : n ≤ (data ++ tail).length := by
    rw [List.length_append]
    omega
  obtain ⟨t₂, h₂, hval₂⟩ := loop_eq (i := 0) (s := 0) hev hle' (by omega)
  rw [List.take_append_of_le_length hle] at hval₂
  rw [h₁, h₂, UInt32.toNat_inj.mp (hval₂.trans hval₁.symm)]

/-- Inside the vector, the loop is defined for an even number of bytes, and for an odd one with a
byte behind them, unless the counter overflows on it. -/
theorem loop_defined_iff {data : Bytes} {n : ℕ} (hle : n ≤ data.length) (hn : n < 2147483648) :
    (∃ total, loop 0 data n 0 = .ok total) ↔
      n % 2 = 0 ∨ n < data.length ∧ n ≠ 2147483647 := by
  have heven : ∀ {m : ℕ}, m % 2 = 0 → m ≤ data.length → m < 2147483648 →
      ∃ total, loop 0 data m 0 = .ok total := by
    intro m hm hmle hmn
    obtain ⟨total, htotal, -⟩ := loop_eq (i := 0) (s := 0) hm hmle (by omega)
    exact ⟨total, htotal⟩
  refine ⟨?_, ?_⟩
  · rintro ⟨total, htotal⟩
    by_contra hc
    have hodd : n % 2 = 1 := by omega
    by_cases hlast : n = data.length
    · rw [loop_odd (by omega) (by omega)] at htotal
      cases htotal
    · rw [loop_round hodd, loop_overflow (by omega) (by omega) (by omega) (by omega)] at htotal
      cases htotal
  · rintro (hev | ⟨hlt, hne⟩)
    · exact heven hev hle hn
    · by_cases hev : n % 2 = 0
      · exact heven hev hle hn
      · rw [loop_round (by omega)]
        exact heven (by omega) (by omega) (by omega)

end calculateChecksum

/-- `calculateChecksum` of a whole vector is its loop, up to the size as an `int`. -/
theorem calculateChecksum_whole (data : Bytes) :
    calculateChecksum data 0 (intOfSize data.length) =
      (calculateChecksum.loop 0 data (intOfSize data.length).toNat 0 >>= fun sum =>
        .ok (foldOnce sum)) := by
  rw [calculateChecksum, List.drop_zero]
  have hcount : (intOfSize data.length - ((0 : ℕ) : ℤ)).toNat = (intOfSize data.length).toNat := by
    omega
  rw [hcount]
  rfl

/-- The size as a bound of the loop: a negative `int` stops it at once. -/
theorem toNat_intOfSize (n : ℕ) :
    (intOfSize n).toNat = if n % 4294967296 < 2147483648 then n % 4294967296 else 0 := by
  unfold intOfSize
  split <;> omega

/-- The vectors whose checksum is computed inside their bounds. -/
theorem calculateChecksum_defined_iff (data : Bytes) :
    (∃ sum, calculateChecksum data 0 (intOfSize data.length) = .ok sum) ↔
      data.length % 2 = 0 ∨
        2147483648 ≤ data.length ∧ data.length % 4294967296 ≠ 2147483647 := by
  have hbind : (∃ sum, calculateChecksum data 0 (intOfSize data.length) = .ok sum) ↔
      ∃ total, calculateChecksum.loop 0 data (intOfSize data.length).toNat 0 = .ok total := by
    rw [calculateChecksum_whole]
    refine ⟨?_, ?_⟩
    · rintro ⟨sum, h⟩
      obtain ⟨total, htotal, -⟩ := Eval.bind_eq_ok h
      exact ⟨total, htotal⟩
    · rintro ⟨total, htotal⟩
      exact ⟨foldOnce total, by rw [htotal]; rfl⟩
  have hbound := toNat_intOfSize data.length
  rw [hbind, calculateChecksum.loop_defined_iff (by split at hbound <;> omega)
    (by split at hbound <;> omega)]
  split at hbound <;> omega

/-- Where it is defined at all on an odd size, the loop stops in front of the last byte, so that a
byte more changes nothing. -/
theorem calculateChecksum_pad {data : Bytes} (hodd : data.length % 2 = 1)
    (hn : 2147483648 ≤ data.length ∧ data.length % 4294967296 ≠ 2147483647) :
    calculateChecksum data 0 (intOfSize data.length) =
      calculateChecksum (data ++ [0]) 0 (intOfSize (data ++ [0]).length) := by
  have hlen : (data ++ [0]).length = data.length + 1 := by simp
  have hbound := toNat_intOfSize data.length
  have hnext := toNat_intOfSize (data.length + 1)
  rw [calculateChecksum_whole, calculateChecksum_whole, hlen]
  split at hbound
  · have hstep : (intOfSize (data.length + 1)).toNat = (intOfSize data.length).toNat + 1 := by
      split at hnext <;> omega
    rw [calculateChecksum.loop_round (by omega), hstep,
      calculateChecksum.loop_append [0] (by omega) (by omega) (by omega)]
  · -- a negative bound, and behind the last of them the bound is zero
    have hstep : (intOfSize (data.length + 1)).toNat = 0 := by
      split at hnext <;> omega
    rw [hbound, hstep, calculateChecksum.loop_append [0] (by decide) (by omega) (by decide)]

/-- The checksum of pseudo header and segment is defined as soon as the one of the segment is. -/
theorem udpChecksum_defined (src dst : UInt32) {segment : Bytes} {sum : UInt16}
    (h : calculateChecksum segment 0 (intOfSize segment.length) = .ok sum) :
    ∃ checksum, udpChecksum src dst segment = .ok checksum := by
  rw [udpChecksum_pseudo, h]
  exact ⟨_, rfl⟩

/-- **No pad byte**: the vectors of even size, and of the odd sizes only those beyond an `int` (the
loop then stops early), next to whose largest value the counter overflows. -/
theorem checksumPads_iff (data : Bytes) :
    ChecksumPads data ↔
      data.length % 2 = 0 ∨
        2147483648 ≤ data.length ∧ data.length % 4294967296 ≠ 2147483647 := by
  rw [← calculateChecksum_defined_iff]
  refine ⟨ChecksumPads.inBounds, ?_⟩
  rintro ⟨sum, hsum⟩
  refine ⟨⟨sum, hsum⟩, ?_, fun src dst => udpChecksum_defined src dst hsum, ?_⟩
  · intro hodd
    have hdef := (calculateChecksum_defined_iff data).mp ⟨sum, hsum⟩
    exact calculateChecksum_pad hodd (hdef.resolve_left (by omega))
  · rw [verifyChecksum, hsum]
    exact ⟨_, rfl⟩

/-- A datagram from port 5555 to port 40000 with the one byte `61`. -/
theorem not_forall_checksumPads : ¬ ∀ data, ChecksumPads data := by
  intro h
  obtain ⟨sum, hsum⟩ := (h (udpSegment 5555 40000 9 0 [0x61])).inBounds
  rw [calculateChecksum_odd (by decide) (by decide)] at hsum
  cases hsum

end Suika
