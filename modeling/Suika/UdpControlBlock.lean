import Mathlib.Data.Fintype.Pigeonhole
import Suika.BinaryPayload

/-!
# The table of UDP control blocks

`lib/UdpControlBlock.h` and `lib/UdpControlBlock.cpp`. The manager owns 100 control blocks; `alloc`
opens the first free one, `select` finds the first open one whose endpoint covers an address and a
port, `interruptAll` raises the flag of every open one. A reference to a block is its index.

Nothing in the program ever frees a block, so an open block stays open.
-/

namespace Suika

open Cpp

/-- `ipv4::IP_ADDR_ANY` -/
abbrev ipAddrAny : UInt32 := 0x00000000

/-- `ipv4::IpEndpoint` -/
structure IpEndpoint : Type where
  addr : UInt32
  port : UInt16
  deriving DecidableEq

inductive UdpControlBlockState : Type where
  | FREE | OPEN | CLOSING
  deriving DecidableEq

/-- A datagram waiting in a control block. -/
structure UdpPcbPayload : Type where
  data : Bytes
  endpoint : IpEndpoint
  deriving DecidableEq

/-- A control block. The constructor of the source leaves `endpoint` unset; nothing reads it before
`alloc` sets it. -/
structure UdpControlBlock : Type where
  id : ℤ := -1
  state : UdpControlBlockState := .FREE
  que : List UdpPcbPayload := []
  endpoint : IpEndpoint := ⟨0, 0⟩
  interrupted : ℤ := 0
  deriving DecidableEq

namespace UdpControlBlock

/-- The condition of `select`: the block is open, has the port, and its address is the wildcard or
the one asked for. -/
def Matches (elm : UdpControlBlock) (ipv4 : UInt32) (port : UInt16) : Prop :=
  elm.state = .OPEN ∧ (elm.endpoint.addr = ipAddrAny ∨ elm.endpoint.addr = ipv4) ∧
    elm.endpoint.port = port

instance (elm : UdpControlBlock) (ipv4 : UInt32) (port : UInt16) :
    Decidable (elm.Matches ipv4 port) := inferInstanceAs (Decidable (_ ∧ _))

end UdpControlBlock

/-- The size of the table. -/
abbrev udpPcbListSize : ℕ := 100

/-- The manager: a table of `udpPcbListSize` blocks. -/
structure UdpPcbManager : Type where
  udpPcbList : List UdpControlBlock
  /-- the table never changes its size -/
  size_eq : udpPcbList.length = udpPcbListSize

namespace UdpPcbManager

/-- `UdpPcbManager()` -/
def init : UdpPcbManager := ⟨List.replicate udpPcbListSize {}, List.length_replicate⟩

/-- The block at an index. -/
def block? (m : UdpPcbManager) (i : ℕ) : Option UdpControlBlock := m.udpPcbList[i]?

/-- Write to the block behind a reference. -/
def modify (m : UdpPcbManager) (i : ℕ) (f : UdpControlBlock → UdpControlBlock) : UdpPcbManager :=
  ⟨m.udpPcbList.modify i f, by rw [List.length_modify, m.size_eq]⟩

/-- An `int` converted to the `size_t` of `std::vector::at`. -/
def sizeOfInt (id : ℤ) : ℕ := (id % 18446744073709551616).toNat

/-- `udpPcbList.at(id_)` -/
def get (m : UdpPcbManager) (id : ℤ) : Eval Err UdpControlBlock :=
  match m.block? (sizeOfInt id) with
  | some elm => .ok elm
  | none => Eval.throwing .outOfRange

/-- Open the first free block; `none` is `std::unexpected{-1}`. -/
def alloc (m : UdpPcbManager) : Option (UdpPcbManager × ℕ) :=
  match m.udpPcbList.findIdx? (fun elm => elm.state = .FREE) with
  | some i =>
    some (m.modify i fun elm => { elm with state := .OPEN, id := i, endpoint := ⟨ipAddrAny, 0⟩ }, i)
  | none => none

/-- The first open block that covers the endpoint; `none` is `std::unexpected{-1}`. -/
def select (m : UdpPcbManager) (ipv4 : UInt32) (port : UInt16) : Option ℕ :=
  m.udpPcbList.findIdx? (fun elm => elm.Matches ipv4 port)

/-- Raise the flag of every open block. -/
def interruptAll (m : UdpPcbManager) : UdpPcbManager :=
  ⟨m.udpPcbList.map fun elm => if elm.state = .OPEN then { elm with interrupted := 1 } else elm, by
    rw [List.length_map, m.size_eq]⟩

variable {m : UdpPcbManager} {i j : ℕ} {b : UdpControlBlock} {a : UInt32} {p : UInt16}

/-! ## The blocks after each operation -/

theorem block?_init (h : i < udpPcbListSize) : init.block? i = some {} := by
  rw [block?, init, List.getElem?_replicate, if_pos h]

theorem lt_of_block? (h : m.block? i = some b) : i < udpPcbListSize := by
  rw [← m.size_eq]
  exact (List.getElem?_eq_some_iff.mp h).1

theorem exists_block (m : UdpPcbManager) (h : i < udpPcbListSize) : ∃ b, m.block? i = some b :=
  ⟨_, List.getElem?_eq_getElem (m.size_eq.symm ▸ h)⟩

/-- A table is its blocks. -/
theorem ext_block? {m' : UdpPcbManager} (h : ∀ i, m.block? i = m'.block? i) : m = m' := by
  obtain ⟨l, hl⟩ := m
  obtain ⟨l', hl'⟩ := m'
  obtain rfl : l = l' := List.ext_getElem? h
  rfl

@[simp] theorem block?_modify_self (f : UdpControlBlock → UdpControlBlock) :
    (m.modify i f).block? i = (m.block? i).map f := by
  rw [block?, modify, List.getElem?_modify]
  simp [block?]

theorem block?_modify_ne (f : UdpControlBlock → UdpControlBlock) (h : i ≠ j) :
    (m.modify i f).block? j = m.block? j := by
  rw [block?, modify, List.getElem?_modify]
  simp [block?, h]

theorem modify_modify (f g : UdpControlBlock → UdpControlBlock) :
    (m.modify i f).modify i g = m.modify i (g ∘ f) := by
  refine ext_block? fun j => ?_
  by_cases hj : i = j
  · subst hj
    simp
  · simp [block?_modify_ne _ hj]

/-- Only what a write does to its block matters. -/
theorem modify_congr {f g : UdpControlBlock → UdpControlBlock}
    (h : ∀ b, m.block? i = some b → f b = g b) : m.modify i f = m.modify i g := by
  refine ext_block? fun j => ?_
  by_cases hj : i = j
  · subst hj
    rw [block?_modify_self, block?_modify_self]
    cases hb : m.block? i with
    | none => rfl
    | some b => rw [Option.map_some, Option.map_some, h b hb]
  · simp [block?_modify_ne _ hj]

/-- What a write to one block does to the table. -/
theorem block?_modify_cases {f : UdpControlBlock → UdpControlBlock}
    (h : (m.modify i f).block? j = some b) :
    (j = i ∧ ∃ b₀, m.block? i = some b₀ ∧ b = f b₀) ∨ (j ≠ i ∧ m.block? j = some b) := by
  by_cases hj : j = i
  · subst hj
    rw [block?_modify_self] at h
    obtain ⟨b₀, hb₀, rfl⟩ := Option.map_eq_some_iff.mp h
    exact Or.inl ⟨rfl, b₀, hb₀, rfl⟩
  · rw [block?_modify_ne f (Ne.symm hj)] at h
    exact Or.inr ⟨hj, h⟩

@[simp] theorem block?_interruptAll :
    m.interruptAll.block? i =
      (m.block? i).map fun elm =>
        if elm.state = .OPEN then { elm with interrupted := 1 } else elm := by
  rw [block?, interruptAll, List.getElem?_map]
  rfl

theorem get_eq (id : ℤ) (h : m.block? (sizeOfInt id) = some b) : m.get id = .ok b := by
  rw [get, h]

theorem get_eq_ok {id : ℤ} (h : m.get id = .ok b) : m.block? (sizeOfInt id) = some b := by
  rw [get] at h
  split at h
  · rename_i hb
    cases h
    exact hb
  · cases h

/-- `alloc` opens a free block and touches no other. -/
theorem alloc_eq_some {m' : UdpPcbManager} (h : m.alloc = some (m', i)) :
    (∃ b, m.block? i = some b ∧ b.state = .FREE) ∧
      m' = m.modify i fun elm =>
        { elm with state := .OPEN, id := i, endpoint := ⟨ipAddrAny, 0⟩ } := by
  rw [alloc] at h
  split at h
  · rename_i k hk
    obtain ⟨hlt, hfree, -⟩ := List.findIdx?_eq_some_iff_getElem.mp hk
    obtain ⟨rfl, rfl⟩ := Prod.mk.inj (Option.some.inj h)
    exact ⟨⟨_, List.getElem?_eq_getElem hlt, of_decide_eq_true hfree⟩, rfl⟩
  · cases h

/-- The blocks before it are taken. -/
theorem alloc_first {m' : UdpPcbManager} (h : m.alloc = some (m', i)) (hj : j < i)
    (hb : m.block? j = some b) : b.state ≠ .FREE := by
  rw [alloc] at h
  split at h
  · rename_i k hk
    obtain ⟨hlt, -, hbefore⟩ := List.findIdx?_eq_some_iff_getElem.mp hk
    obtain ⟨-, rfl⟩ := Prod.mk.inj (Option.some.inj h)
    obtain ⟨hjlt, rfl⟩ := List.getElem?_eq_some_iff.mp hb
    simpa using hbefore j hj
  · cases h

/-- With a free block, `alloc` opens one. -/
theorem exists_alloc (hb : m.block? i = some b) (hfree : b.state = .FREE) :
    ∃ r, m.alloc = some r := by
  rw [alloc]
  split
  · exact ⟨_, rfl⟩
  · rename_i hnone
    have hall := List.findIdx?_eq_none_iff.mp hnone b (List.mem_of_getElem? hb)
    exact absurd hfree (by simpa using hall)

/-! ## `select` -/

theorem select_eq_none :
    m.select a p = none ↔ ∀ i b, m.block? i = some b → ¬ b.Matches a p := by
  rw [select, List.findIdx?_eq_none_iff]
  refine ⟨?_, ?_⟩
  · intro h i b hb
    have hmem : b ∈ m.udpPcbList := List.mem_of_getElem? hb
    simpa using h b hmem
  · intro h b hb
    obtain ⟨i, hi⟩ := List.mem_iff_getElem?.mp hb
    simpa using h i b hi

theorem select_eq_some :
    m.select a p = some i ↔
      (∃ b, m.block? i = some b ∧ b.Matches a p) ∧
        ∀ j b, j < i → m.block? j = some b → ¬ b.Matches a p := by
  rw [select, List.findIdx?_eq_some_iff_getElem]
  refine ⟨?_, ?_⟩
  · rintro ⟨hlt, hm, hfirst⟩
    refine ⟨⟨_, List.getElem?_eq_getElem hlt, of_decide_eq_true hm⟩, fun j b hj hb => ?_⟩
    obtain ⟨hjlt, rfl⟩ := List.getElem?_eq_some_iff.mp hb
    simpa using hfirst j hj
  · rintro ⟨⟨b, hb, hm⟩, hfirst⟩
    obtain ⟨hlt, rfl⟩ := List.getElem?_eq_some_iff.mp hb
    refine ⟨hlt, decide_eq_true hm, fun j hj => ?_⟩
    simpa using hfirst j _ hj (List.getElem?_eq_getElem (by omega))

/-- A matching block makes `select` find one. -/
theorem select_ne_none (hb : m.block? i = some b) (hm : b.Matches a p) : m.select a p ≠ none :=
  fun h => select_eq_none.mp h i b hb hm

/-- `select` looks at states and endpoints only. -/
theorem select_congr {m' : UdpPcbManager}
    (h : ∀ i, (m'.block? i).map (fun b => (b.state, b.endpoint)) =
      (m.block? i).map (fun b => (b.state, b.endpoint))) : m'.select a p = m.select a p := by
  have hmap : m'.udpPcbList.map (fun b => (b.state, b.endpoint)) =
      m.udpPcbList.map (fun b => (b.state, b.endpoint)) := by
    apply List.ext_getElem?
    intro i
    rw [List.getElem?_map, List.getElem?_map]
    exact h i
  have hfind : ∀ m : UdpPcbManager, m.select a p =
      (m.udpPcbList.map (fun b => (b.state, b.endpoint))).findIdx? (fun e =>
        e.1 = .OPEN ∧ (e.2.addr = ipAddrAny ∨ e.2.addr = a) ∧ e.2.port = p) := by
    intro m
    rw [List.findIdx?_map]
    rfl
  rw [hfind m', hfind m, hmap]

/-! ## The search for a free port -/

/-- Of distinct ports, `select` finds at most as many as there are blocks it can return. -/
theorem exists_select_eq_none (m : UdpPcbManager) (a : UInt32) {n : ℕ} (f : Fin n → UInt16)
    (hf : Function.Injective f) (blocks : Finset ℕ)
    (hblocks : ∀ k i, m.select a (f k) = some i → i ∈ blocks) (hcard : blocks.card < n) :
    ∃ k, m.select a (f k) = none := by
  by_contra hall
  have hsome : ∀ k, ∃ i, m.select a (f k) = some i :=
    fun k => Option.ne_none_iff_exists'.mp fun hk => hall ⟨k, hk⟩
  choose g hg using hsome
  have hmaps : ∀ k ∈ Finset.univ, g k ∈ blocks := fun k _ => hblocks k (g k) (hg k)
  obtain ⟨k, -, l, -, hkl, hgkl⟩ :=
    Finset.exists_ne_map_eq_of_card_lt_of_maps_to (by simpa using hcard) hmaps
  -- one block would have two ports
  obtain ⟨⟨b, hb, hmb⟩, -⟩ := select_eq_some.mp (hg k)
  obtain ⟨⟨c, hc, hmc⟩, -⟩ := select_eq_some.mp (hg l)
  rw [hgkl] at hb
  obtain rfl : b = c := Option.some.inj (hb.symm.trans hc)
  exact hkl (hf (hmb.2.2.symm.trans hmc.2.2))

theorem select_lt (h : m.select a p = some i) : i < udpPcbListSize := by
  obtain ⟨⟨b, hb, -⟩, -⟩ := select_eq_some.mp h
  exact lt_of_block? hb

end UdpPcbManager

end Suika
