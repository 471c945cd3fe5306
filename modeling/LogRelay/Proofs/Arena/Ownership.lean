import LogRelay.Arena.Basic
import Mathlib.Tactic.SplitIfs

/-!
# Ownership of arena bytes

An arena keeps a cursor or a stack of indices and a count; who owns which bytes is
known only to the owners.  `Arena.Holds` ties the two together: it lists the slots
that are out and says how the arena's own record describes them.  Every operation
keeps it, with the list changed by the one slot that went out or came back, and it
is what makes any two owners' bytes disjoint.
-/

namespace LogRelay

namespace Slot

/-- The position behind the bytes set aside for a slot. -/
def limit (slot : Slot) : Nat :=
  slot.offset + slot.reserved

/-- The slot's owner may use the byte at this position. -/
def Covers (slot : Slot) (position : Nat) : Prop :=
  slot.offset ≤ position ∧ position < slot.offset + slot.length

/-- No byte is set aside for both slots.  Nothing is ever set aside for a slot of
no bytes, wherever it lies. -/
def Apart (left right : Slot) : Prop :=
  left.reserved = 0 ∨ right.reserved = 0 ∨ left.limit ≤ right.offset ∨ right.limit ≤ left.offset

def index (slotSize : Nat) (slot : Slot) : Nat :=
  slot.offset / slotSize

theorem Apart.symm {left right : Slot} (hapart : left.Apart right) : right.Apart left := by
  rcases hapart with hleft | hright | hbefore | hafter
  · exact Or.inr (Or.inl hleft)
  · exact Or.inl hright
  · exact Or.inr (Or.inr (Or.inr hbefore))
  · exact Or.inr (Or.inr (Or.inl hafter))

/-- Owners of slots that are apart share no byte. -/
theorem Apart.not_covers {left right : Slot} (hapart : left.Apart right)
    (hleft : left.length ≤ left.reserved) (hright : right.length ≤ right.reserved)
    (position : Nat) : ¬(left.Covers position ∧ right.Covers position) := by
  simp only [Apart, Covers, limit] at hapart ⊢
  omega

/-- What is written within one slot cannot be read through another. -/
theorem Apart.read_write {left right : Slot} (hapart : left.Apart right)
    (hleft : left.length ≤ left.reserved) (hright : right.length ≤ right.reserved)
    (region : Memory) {start : Nat} {bytes : List UInt8}
    (hfits : bytes.length ≤ left.length - start) :
    (region.write (left.offset + start) bytes).read right.offset right.length =
      region.read right.offset right.length := by
  apply Memory.read_congr
  intro index hindex
  have hcovers := hapart.not_covers hleft hright (right.offset + index)
  simp only [Covers] at hcovers
  rw [Memory.byteAt_write, if_neg (by omega)]

end Slot

namespace Arena

/-- Bump slots lie within the capacity and apart, and end before the cursor.  A slot of
no bytes may be left behind the cursor when the slot before it goes back. -/
structure BumpPlaced (capacity cursor : Nat) (slots : List Slot) : Prop where
  cursor_le : cursor ≤ capacity
  limit_le : ∀ slot ∈ slots, slot.limit ≤ capacity
  below : ∀ slot ∈ slots, slot.reserved ≠ 0 → slot.limit ≤ cursor
  apart : slots.Pairwise Slot.Apart

/-- Slab slots fill the places of their indices, and every index is either free or
taken, once. -/
structure SlabPlaced (capacity slotSize : Nat) (freeSlots : List Nat) (slots : List Slot) :
    Prop where
  size_pos : 0 < slotSize
  aligned : ∀ slot ∈ slots, slot.offset = slot.index slotSize * slotSize
  whole : ∀ slot ∈ slots, slot.reserved = slotSize
  indices : (freeSlots ++ slots.map (Slot.index slotSize)).Perm
    (List.range (capacity / slotSize))

/-- How the arena's record describes the slots that are out. -/
def Placed (arena : Arena) (slots : List Slot) : Prop :=
  match arena.policy with
  | .bump => BumpPlaced arena.capacity arena.cursor slots
  | .slab slotSize => SlabPlaced arena.capacity slotSize arena.freeSlots slots

/-- The slots that are out, in any order. -/
structure Holds (arena : Arena) (slots : List Slot) : Prop where
  live_eq : arena.live = slots.length
  live_le : arena.live ≤ arena.maxInFlight
  length_le : ∀ slot ∈ slots, slot.length ≤ slot.reserved
  placed : arena.Placed slots

variable {arena after : Arena} {slots others : List Slot} {slot other : Slot} {length : Nat}

/-! ## What follows for the slots that are out -/

namespace SlabPlaced

variable {capacity slotSize : Nat} {freeSlots : List Nat}

theorem index_lt (hplaced : SlabPlaced capacity slotSize freeSlots slots) (hslot : slot ∈ slots) :
    slot.index slotSize < capacity / slotSize := by
  have hmem : slot.index slotSize ∈ freeSlots ++ slots.map (Slot.index slotSize) :=
    List.mem_append_right _ (List.mem_map_of_mem hslot)
  exact List.mem_range.mp (hplaced.indices.mem_iff.mp hmem)

theorem limit_le (hplaced : SlabPlaced capacity slotSize freeSlots slots) (hslot : slot ∈ slots) :
    slot.limit ≤ capacity := by
  have hlt := hplaced.index_lt hslot
  calc
    slot.limit = slot.index slotSize * slotSize + slotSize := by
      rw [Slot.limit, hplaced.aligned slot hslot, hplaced.whole slot hslot]
    _ = (slot.index slotSize + 1) * slotSize := (Nat.succ_mul _ _).symm
    _ ≤ capacity / slotSize * slotSize := Nat.mul_le_mul_right slotSize hlt
    _ ≤ capacity := Nat.div_mul_le_self _ _

theorem limit_le_offset (hplaced : SlabPlaced capacity slotSize freeSlots slots)
    (hslot : slot ∈ slots) (hother : other ∈ slots)
    (hlt : slot.index slotSize < other.index slotSize) : slot.limit ≤ other.offset := by
  rw [Slot.limit, hplaced.aligned slot hslot, hplaced.whole slot hslot,
    hplaced.aligned other hother, ← Nat.succ_mul]
  exact Nat.mul_le_mul_right slotSize hlt

/-- Slab slots of different indices have no byte in common. -/
theorem apart (hplaced : SlabPlaced capacity slotSize freeSlots slots) :
    slots.Pairwise Slot.Apart := by
  have hnodup : (freeSlots ++ slots.map (Slot.index slotSize)).Nodup :=
    hplaced.indices.nodup_iff.mpr List.nodup_range
  have hdistinct : slots.Pairwise fun left right => left.index slotSize ≠ right.index slotSize :=
    List.pairwise_map.mp (List.nodup_append.mp hnodup).2.1
  apply hdistinct.imp_of_mem
  intro left right hleft hright hne
  rcases Nat.lt_or_gt_of_ne hne with hlt | hgt
  · exact Or.inr (Or.inr (Or.inl (hplaced.limit_le_offset hleft hright hlt)))
  · exact Or.inr (Or.inr (Or.inr (hplaced.limit_le_offset hright hleft hgt)))

end SlabPlaced

theorem SlabPlaced.perm {capacity slotSize : Nat} {freeSlots : List Nat}
    (hplaced : SlabPlaced capacity slotSize freeSlots slots) (hperm : slots.Perm others) :
    SlabPlaced capacity slotSize freeSlots others where
  size_pos := hplaced.size_pos
  aligned slot hslot := hplaced.aligned slot (hperm.mem_iff.mpr hslot)
  whole slot hslot := hplaced.whole slot (hperm.mem_iff.mpr hslot)
  indices := ((hperm.map _).append_left _).symm.trans hplaced.indices

theorem BumpPlaced.perm {capacity cursor : Nat} (hplaced : BumpPlaced capacity cursor slots)
    (hperm : slots.Perm others) : BumpPlaced capacity cursor others where
  cursor_le := hplaced.cursor_le
  limit_le slot hslot := hplaced.limit_le slot (hperm.mem_iff.mpr hslot)
  below slot hslot := hplaced.below slot (hperm.mem_iff.mpr hslot)
  apart := (hperm.pairwise_iff Slot.Apart.symm).mp hplaced.apart

theorem placed_bump (hpolicy : arena.policy = .bump) :
    arena.Placed slots ↔ BumpPlaced arena.capacity arena.cursor slots := by
  rw [Placed, hpolicy]

theorem placed_slab {slotSize : Nat} (hpolicy : arena.policy = .slab slotSize) :
    arena.Placed slots ↔ SlabPlaced arena.capacity slotSize arena.freeSlots slots := by
  rw [Placed, hpolicy]

namespace Placed

theorem limit_le (hplaced : arena.Placed slots) (hslot : slot ∈ slots) :
    slot.limit ≤ arena.capacity := by
  cases hpolicy : arena.policy with
  | bump => exact ((placed_bump hpolicy).mp hplaced).limit_le slot hslot
  | slab slotSize => exact ((placed_slab hpolicy).mp hplaced).limit_le hslot

theorem apart (hplaced : arena.Placed slots) : slots.Pairwise Slot.Apart := by
  cases hpolicy : arena.policy with
  | bump => exact ((placed_bump hpolicy).mp hplaced).apart
  | slab slotSize => exact ((placed_slab hpolicy).mp hplaced).apart

theorem usedBytes_le (hplaced : arena.Placed slots) : arena.usedBytes ≤ arena.capacity := by
  cases hpolicy : arena.policy with
  | bump => simpa only [usedBytes, hpolicy] using ((placed_bump hpolicy).mp hplaced).cursor_le
  | slab slotSize =>
    simp only [usedBytes, hpolicy, slotCount]
    calc
      (arena.capacity / slotSize - arena.freeSlots.length) * slotSize ≤
          arena.capacity / slotSize * slotSize := Nat.mul_le_mul_right _ (Nat.sub_le _ _)
      _ ≤ arena.capacity := Nat.div_mul_le_self _ _

/-- The order in which slots are listed does not matter. -/
theorem perm (hplaced : arena.Placed slots) (hperm : slots.Perm others) :
    arena.Placed others := by
  cases hpolicy : arena.policy with
  | bump => exact (placed_bump hpolicy).mpr (((placed_bump hpolicy).mp hplaced).perm hperm)
  | slab slotSize => exact (placed_slab hpolicy).mpr (((placed_slab hpolicy).mp hplaced).perm hperm)

end Placed

theorem Holds.limit_le (hholds : arena.Holds slots) (hslot : slot ∈ slots) :
    slot.limit ≤ arena.capacity :=
  hholds.placed.limit_le hslot

theorem Holds.apart (hholds : arena.Holds slots) : slots.Pairwise Slot.Apart :=
  hholds.placed.apart

theorem Holds.usedBytes_le (hholds : arena.Holds slots) : arena.usedBytes ≤ arena.capacity :=
  hholds.placed.usedBytes_le

theorem Holds.perm (hholds : arena.Holds slots) (hperm : slots.Perm others) :
    arena.Holds others where
  live_eq := hholds.live_eq.trans hperm.length_eq
  live_le := hholds.live_le
  length_le slot hslot := hholds.length_le slot (hperm.mem_iff.mpr hslot)
  placed := hholds.placed.perm hperm

/-- A write through one slot changes nothing that another one reads. -/
theorem Holds.read_write {other : Slot} (hholds : arena.Holds (slot :: slots))
    (hother : other ∈ slots) (start : Nat) (bytes : List UInt8) :
    (arena.write slot start bytes).read other = arena.read other := by
  obtain ⟨hslot, hothers⟩ := List.forall_mem_cons.mp hholds.length_le
  have hapart := (List.pairwise_cons.mp hholds.apart).1 other hother
  exact hapart.read_write hslot (hothers other hother) arena.region (List.length_take_le _ _)

/-- Bytes that fit are all written. -/
theorem region_write {start : Nat} {bytes : List UInt8}
    (hfits : start + bytes.length ≤ slot.length) :
    (arena.write slot start bytes).region = arena.region.write (slot.offset + start) bytes := by
  rw [write, List.take_of_length_le (by omega)]

/-- A slot whose end is written before its beginning reads as both together. -/
theorem read_write_write (arena : Arena) {first second : List UInt8}
    (hlength : slot.length = first.length + second.length) :
    ((arena.write slot first.length second).write slot 0 first).read slot = first ++ second := by
  have hdisjoint : slot.offset + 0 + first.length ≤ slot.offset + first.length := Nat.le_refl _
  rw [read, region_write (by omega), region_write (by omega), hlength, Memory.read_add]
  congr 1
  · exact Memory.read_write_self _ _ _
  · rw [Memory.read_write_of_disjoint _ _ _ _ _ (Or.inr hdisjoint)]
    exact Memory.read_write_self _ _ _

/-- The contents of memory do not matter. -/
theorem Holds.region (hholds : arena.Holds slots) (region : Memory) :
    Holds { arena with region } slots :=
  ⟨hholds.live_eq, hholds.live_le, hholds.length_le, hholds.placed⟩

/-! ## What the operations do -/

/-- What a successful allocation says about the arena before and after it. -/
theorem allocate_eq_ok (heq : arena.allocate length = .ok (slot, after)) :
    arena.live < arena.maxInFlight ∧ ∃ cursor freeSlots,
      arena.place length = .ok (slot, cursor, freeSlots) ∧
      after = { arena with
        cursor, freeSlots
        live := arena.live + 1
        peak := max arena.peak (usedBytes { arena with cursor, freeSlots }) } := by
  rw [allocate] at heq
  split at heq
  · exact absurd heq (by simp)
  · next hlimit =>
    split at heq
    · exact absurd heq (by simp)
    · next cursor freeSlots hplace =>
      obtain ⟨rfl, rfl⟩ := Prod.mk.inj (Except.ok.inj heq)
      exact ⟨Nat.lt_of_not_le hlimit, cursor, freeSlots, hplace, rfl⟩

theorem place_bump_eq_ok {cursor : Nat} {freeSlots : List Nat} (hpolicy : arena.policy = .bump)
    (heq : arena.place length = .ok (slot, cursor, freeSlots)) :
    length ≤ arena.capacity - arena.cursor ∧ slot = ⟨arena.cursor, length, length⟩ ∧
      cursor = arena.cursor + length ∧ freeSlots = arena.freeSlots := by
  simp only [place, hpolicy] at heq
  split at heq
  · exact absurd heq (by simp)
  · next hroom =>
    simp only [Except.ok.injEq, Prod.mk.injEq] at heq
    exact ⟨Nat.le_of_not_lt hroom, heq.1.symm, heq.2.1.symm, heq.2.2.symm⟩

theorem place_slab_eq_ok {slotSize cursor : Nat} {freeSlots : List Nat}
    (hpolicy : arena.policy = .slab slotSize)
    (heq : arena.place length = .ok (slot, cursor, freeSlots)) :
    length ≤ slotSize ∧ ∃ index, arena.freeSlots = index :: freeSlots ∧
      slot = ⟨index * slotSize, length, slotSize⟩ := by
  simp only [place, hpolicy] at heq
  split at heq
  · exact absurd heq (by simp)
  · next hfits =>
    split at heq
    · exact absurd heq (by simp)
    · next index rest hfree =>
      simp only [Except.ok.injEq, Prod.mk.injEq] at heq
      obtain ⟨rfl, -, rfl⟩ := heq
      exact ⟨Nat.le_of_not_lt hfits, index, hfree, rfl⟩

theorem cursor_of_place_slab {slotSize cursor : Nat} {freeSlots : List Nat}
    (hpolicy : arena.policy = .slab slotSize)
    (heq : arena.place length = .ok (slot, cursor, freeSlots)) : cursor = arena.cursor := by
  simp only [place, hpolicy] at heq
  split at heq
  · exact absurd heq (by simp)
  · split at heq
    · exact absurd heq (by simp)
    · exact (Prod.mk.inj (Prod.mk.inj (Except.ok.inj heq)).2).1.symm

theorem length_of_allocate (heq : arena.allocate length = .ok (slot, after)) :
    slot.length = length := by
  obtain ⟨-, cursor, freeSlots, hplace, -⟩ := allocate_eq_ok heq
  cases hpolicy : arena.policy with
  | bump =>
    obtain ⟨-, rfl, -, -⟩ := place_bump_eq_ok hpolicy hplace
    rfl
  | slab slotSize =>
    obtain ⟨-, index, -, rfl⟩ := place_slab_eq_ok hpolicy hplace
    rfl

theorem region_of_allocate (heq : arena.allocate length = .ok (slot, after)) :
    after.region = arena.region := by
  obtain ⟨-, cursor, freeSlots, -, rfl⟩ := allocate_eq_ok heq
  rfl

theorem read_of_allocate (heq : arena.allocate length = .ok (slot, after)) (other : Slot) :
    after.read other = arena.read other := by
  rw [read, region_of_allocate heq, read]

theorem capacity_of_allocate (heq : arena.allocate length = .ok (slot, after)) :
    after.capacity = arena.capacity := by
  obtain ⟨-, cursor, freeSlots, -, rfl⟩ := allocate_eq_ok heq
  rfl

theorem maxInFlight_of_allocate (heq : arena.allocate length = .ok (slot, after)) :
    after.maxInFlight = arena.maxInFlight := by
  obtain ⟨-, cursor, freeSlots, -, rfl⟩ := allocate_eq_ok heq
  rfl

theorem policy_of_allocate (heq : arena.allocate length = .ok (slot, after)) :
    after.policy = arena.policy := by
  obtain ⟨-, cursor, freeSlots, -, rfl⟩ := allocate_eq_ok heq
  rfl

theorem peak_of_allocate (heq : arena.allocate length = .ok (slot, after)) :
    after.peak = max arena.peak after.usedBytes := by
  obtain ⟨-, cursor, freeSlots, -, rfl⟩ := allocate_eq_ok heq
  rfl

/-- What taking a slot back can change. -/
theorem exists_free (arena : Arena) (slot : Slot) :
    ∃ cursor freeSlots,
      arena.free slot = { arena with cursor, freeSlots, live := arena.live - 1 } := by
  rw [free]
  split
  · split
    · exact ⟨_, _, rfl⟩
    · exact ⟨_, _, rfl⟩
  · exact ⟨_, _, rfl⟩

@[simp]
theorem region_free (arena : Arena) (slot : Slot) : (arena.free slot).region = arena.region := by
  obtain ⟨cursor, freeSlots, hfree⟩ := arena.exists_free slot
  rw [hfree]

@[simp]
theorem read_free (arena : Arena) (slot other : Slot) :
    (arena.free slot).read other = arena.read other := by
  rw [read, region_free, read]

@[simp]
theorem capacity_free (arena : Arena) (slot : Slot) :
    (arena.free slot).capacity = arena.capacity := by
  obtain ⟨cursor, freeSlots, hfree⟩ := arena.exists_free slot
  rw [hfree]

@[simp]
theorem policy_free (arena : Arena) (slot : Slot) : (arena.free slot).policy = arena.policy := by
  obtain ⟨cursor, freeSlots, hfree⟩ := arena.exists_free slot
  rw [hfree]

@[simp]
theorem maxInFlight_free (arena : Arena) (slot : Slot) :
    (arena.free slot).maxInFlight = arena.maxInFlight := by
  obtain ⟨cursor, freeSlots, hfree⟩ := arena.exists_free slot
  rw [hfree]

@[simp]
theorem peak_free (arena : Arena) (slot : Slot) : (arena.free slot).peak = arena.peak := by
  obtain ⟨cursor, freeSlots, hfree⟩ := arena.exists_free slot
  rw [hfree]

theorem live_free (arena : Arena) (slot : Slot) : (arena.free slot).live = arena.live - 1 := by
  obtain ⟨cursor, freeSlots, hfree⟩ := arena.exists_free slot
  rw [hfree]

@[simp]
theorem region_reset (arena : Arena) : arena.reset.1.region = arena.region := by
  rw [reset]
  split <;> rfl

@[simp]
theorem capacity_reset (arena : Arena) : arena.reset.1.capacity = arena.capacity := by
  rw [reset]
  split <;> rfl

@[simp]
theorem policy_reset (arena : Arena) : arena.reset.1.policy = arena.policy := by
  rw [reset]
  split <;> rfl

@[simp]
theorem maxInFlight_reset (arena : Arena) : arena.reset.1.maxInFlight = arena.maxInFlight := by
  rw [reset]
  split <;> rfl

/-- Under the bump policy only the slot that ends at the cursor moves it back. -/
theorem cursor_free_bump (hpolicy : arena.policy = .bump) (slot : Slot) :
    (arena.free slot).cursor = if slot.limit = arena.cursor then slot.offset else arena.cursor := by
  by_cases htail : slot.offset + slot.reserved = arena.cursor
  · simp [free, hpolicy, Slot.limit, htail]
  · simp [free, hpolicy, Slot.limit, htail]

theorem freeSlots_free_slab {slotSize : Nat} (hpolicy : arena.policy = .slab slotSize)
    (slot : Slot) : (arena.free slot).freeSlots = slot.index slotSize :: arena.freeSlots := by
  simp only [free, hpolicy, Slot.index]

/-- The last slot to have gone out takes everything back with it, whatever was written in
the meantime; only the peak stays. -/
theorem free_of_allocate (hpolicy : arena.policy ≠ .slab 0)
    (heq : arena.allocate length = .ok (slot, after)) (region : Memory) :
    free { after with region } slot = { arena with region, peak := after.peak } := by
  obtain ⟨-, cursor, freeSlots, hplace, rfl⟩ := allocate_eq_ok heq
  cases hkind : arena.policy with
  | bump =>
    obtain ⟨-, rfl, rfl, rfl⟩ := place_bump_eq_ok hkind hplace
    simp only [free, if_true, Nat.add_sub_cancel]
  | slab slotSize =>
    have hsize : 0 < slotSize := by
      apply Nat.pos_of_ne_zero
      rintro rfl
      exact hpolicy hkind
    obtain rfl := cursor_of_place_slab hkind hplace
    obtain ⟨-, index, hfree, rfl⟩ := place_slab_eq_ok hkind hplace
    simp only [free, Nat.mul_div_cancel index hsize, ← hfree, Nat.add_sub_cancel]

/-! ## Every operation keeps the account -/

namespace BumpPlaced

variable {capacity cursor : Nat}

theorem nil (hcursor : cursor ≤ capacity) : BumpPlaced capacity cursor [] where
  cursor_le := hcursor
  limit_le := List.forall_mem_nil _
  below := List.forall_mem_nil _
  apart := List.Pairwise.nil

theorem allocate (hplaced : BumpPlaced capacity cursor slots)
    (hroom : length ≤ capacity - cursor) :
    BumpPlaced capacity (cursor + length) (⟨cursor, length, length⟩ :: slots) where
  cursor_le := by
    have hcursor := hplaced.cursor_le
    omega
  limit_le := by
    have hcursor := hplaced.cursor_le
    rw [List.forall_mem_cons]
    exact ⟨by simp only [Slot.limit]; omega, hplaced.limit_le⟩
  below := by
    rw [List.forall_mem_cons]
    constructor
    · intro hreserved
      exact Nat.le_refl _
    · intro other hother hreserved
      exact Nat.le_trans (hplaced.below other hother hreserved) (Nat.le_add_right _ _)
  apart := by
    have hothers : ∀ other ∈ slots, Slot.Apart ⟨cursor, length, length⟩ other := by
      intro other hother
      by_cases hreserved : other.reserved = 0
      · exact Or.inr (Or.inl hreserved)
      · exact Or.inr (Or.inr (Or.inr (hplaced.below other hother hreserved)))
    exact List.pairwise_cons.mpr ⟨hothers, hplaced.apart⟩

theorem free (hplaced : BumpPlaced capacity cursor (slot :: slots)) :
    BumpPlaced capacity (if slot.limit = cursor then slot.offset else cursor) slots := by
  obtain ⟨hslot, hlimits⟩ := List.forall_mem_cons.mp hplaced.limit_le
  obtain ⟨-, hbelow⟩ := List.forall_mem_cons.mp hplaced.below
  obtain ⟨hapart, hothers⟩ := List.pairwise_cons.mp hplaced.apart
  split
  · next htail =>
    -- The cursor falls back to the slot's beginning, which nothing else reaches over.
    refine ⟨Nat.le_trans (Nat.le_add_right _ _) hslot, hlimits, ?_, hothers⟩
    intro other hother hreserved
    have hcursor := hbelow other hother hreserved
    have hother := hapart other hother
    simp only [Slot.Apart, Slot.limit] at hother hcursor htail ⊢
    omega
  · exact ⟨hplaced.cursor_le, hlimits, hbelow, hothers⟩

end BumpPlaced

namespace SlabPlaced

variable {capacity slotSize : Nat} {freeSlots : List Nat}

theorem nil (hsize : 0 < slotSize) :
    SlabPlaced capacity slotSize (allSlots (.slab slotSize) capacity) [] where
  size_pos := hsize
  aligned := List.forall_mem_nil _
  whole := List.forall_mem_nil _
  indices := by rw [List.map_nil, List.append_nil, allSlots, slotCount]

/-- The index on top of the stack goes from the free ones to the taken ones. -/
theorem allocate {index : Nat}
    (hplaced : SlabPlaced capacity slotSize (index :: freeSlots) slots) :
    SlabPlaced capacity slotSize freeSlots (⟨index * slotSize, length, slotSize⟩ :: slots) := by
  have hindex : Slot.index slotSize ⟨index * slotSize, length, slotSize⟩ = index :=
    Nat.mul_div_cancel index hplaced.size_pos
  refine ⟨hplaced.size_pos, ?_, ?_, ?_⟩
  · rw [List.forall_mem_cons]
    exact ⟨by rw [hindex], hplaced.aligned⟩
  · rw [List.forall_mem_cons]
    exact ⟨rfl, hplaced.whole⟩
  · rw [List.map_cons, hindex]
    exact List.perm_middle.trans hplaced.indices

theorem free (hplaced : SlabPlaced capacity slotSize freeSlots (slot :: slots)) :
    SlabPlaced capacity slotSize (slot.index slotSize :: freeSlots) slots where
  size_pos := hplaced.size_pos
  aligned := (List.forall_mem_cons.mp hplaced.aligned).2
  whole := (List.forall_mem_cons.mp hplaced.whole).2
  indices := List.perm_middle.symm.trans hplaced.indices

end SlabPlaced

/-- What a new arena is made of. -/
theorem create_eq_ok {hostMemory capacity maxInFlight : Nat} {policy : Policy}
    (heq : create hostMemory capacity maxInFlight policy = .ok arena) :
    arena = { capacity, maxInFlight, policy, freeSlots := allSlots policy capacity } ∧
      policy ≠ .slab 0 := by
  rw [create] at heq
  split_ifs at heq with _ _ hslot
  exact ⟨(Except.ok.inj heq).symm, hslot⟩

/-- Nothing is set aside in an arena that is as good as new. -/
theorem placed_nil (hcursor : arena.cursor = 0)
    (hfree : arena.freeSlots = allSlots arena.policy arena.capacity)
    (hpolicy : arena.policy ≠ .slab 0) : arena.Placed [] := by
  cases hkind : arena.policy with
  | bump =>
    rw [placed_bump hkind, hcursor]
    exact BumpPlaced.nil (Nat.zero_le _)
  | slab slotSize =>
    rw [hkind] at hfree hpolicy
    rw [placed_slab hkind, hfree]
    exact SlabPlaced.nil (Nat.pos_of_ne_zero fun hzero => hpolicy (congrArg Policy.slab hzero))

theorem Holds.of_create {hostMemory capacity maxInFlight : Nat} {policy : Policy}
    (heq : create hostMemory capacity maxInFlight policy = .ok arena) : arena.Holds [] := by
  obtain ⟨rfl, hpolicy⟩ := create_eq_ok heq
  exact ⟨rfl, Nat.zero_le _, List.forall_mem_nil _, placed_nil rfl rfl hpolicy⟩

theorem reserved_of_place {cursor : Nat} {freeSlots : List Nat}
    (heq : arena.place length = .ok (slot, cursor, freeSlots)) : slot.length ≤ slot.reserved := by
  cases hpolicy : arena.policy with
  | bump =>
    obtain ⟨-, rfl, -, -⟩ := place_bump_eq_ok hpolicy heq
    exact Nat.le_refl _
  | slab slotSize =>
    obtain ⟨hfits, index, -, rfl⟩ := place_slab_eq_ok hpolicy heq
    exact hfits

namespace Placed

theorem allocate {cursor : Nat} {freeSlots : List Nat} (hplaced : arena.Placed slots)
    (hplace : arena.place length = .ok (slot, cursor, freeSlots)) :
    Placed { arena with cursor, freeSlots } (slot :: slots) := by
  cases hpolicy : arena.policy with
  | bump =>
    obtain ⟨hroom, rfl, rfl, rfl⟩ := place_bump_eq_ok hpolicy hplace
    exact (placed_bump rfl).mpr (((placed_bump hpolicy).mp hplaced).allocate hroom)
  | slab slotSize =>
    obtain ⟨-, index, hfree, rfl⟩ := place_slab_eq_ok hpolicy hplace
    rw [placed_slab hpolicy, hfree] at hplaced
    exact (placed_slab rfl).mpr hplaced.allocate

theorem free (hplaced : arena.Placed (slot :: slots)) : (arena.free slot).Placed slots := by
  cases hpolicy : arena.policy with
  | bump =>
    rw [placed_bump ((policy_free _ _).trans hpolicy), capacity_free, cursor_free_bump hpolicy]
    exact ((placed_bump hpolicy).mp hplaced).free
  | slab slotSize =>
    rw [placed_slab ((policy_free _ _).trans hpolicy), capacity_free, freeSlots_free_slab hpolicy]
    exact ((placed_slab hpolicy).mp hplaced).free

/-- Slab slots have a size, so their number stays defined. -/
theorem policy_ne (hplaced : arena.Placed slots) : arena.policy ≠ .slab 0 := by
  intro hpolicy
  exact Nat.lt_irrefl 0 ((placed_slab hpolicy).mp hplaced).size_pos

/-- A reset undoes everything that was set aside. -/
theorem reset (hplaced : arena.Placed slots) (hlive : arena.live = 0) :
    arena.reset.1.Placed [] := by
  rw [Arena.reset, if_pos hlive]
  exact placed_nil rfl rfl hplaced.policy_ne

end Placed

/-- The slot that goes out joins those that are out. -/
theorem Holds.allocate (hholds : arena.Holds slots)
    (heq : arena.allocate length = .ok (slot, after)) : after.Holds (slot :: slots) := by
  obtain ⟨hlive, cursor, freeSlots, hplace, rfl⟩ := allocate_eq_ok heq
  refine ⟨congrArg (· + 1) hholds.live_eq, hlive, ?_, hholds.placed.allocate hplace⟩
  exact List.forall_mem_cons.mpr ⟨reserved_of_place hplace, hholds.length_le⟩

/-- The slot that comes back leaves those that are out. -/
theorem Holds.free (hholds : arena.Holds (slot :: slots)) : (arena.free slot).Holds slots := by
  have hlive : (arena.free slot).live = slots.length := by
    rw [live_free, hholds.live_eq, List.length_cons, Nat.add_sub_cancel]
  refine ⟨hlive, ?_, (List.forall_mem_cons.mp hholds.length_le).2, hholds.placed.free⟩
  rw [live_free, maxInFlight_free]
  exact Nat.le_trans (Nat.sub_le _ _) hholds.live_le

theorem Holds.reset (hholds : arena.Holds slots) : arena.reset.1.Holds slots := by
  by_cases hlive : arena.live = 0
  · obtain rfl : slots = [] := List.length_eq_zero_iff.mp (hholds.live_eq.symm.trans hlive)
    have hplaced := hholds.placed.reset hlive
    rw [Arena.reset, if_pos hlive] at hplaced ⊢
    exact ⟨hholds.live_eq, hholds.live_le, List.forall_mem_nil _, hplaced⟩
  · rw [Arena.reset, if_neg hlive]
    exact hholds

end Arena

end LogRelay
