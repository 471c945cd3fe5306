import LogRelay.Proofs.Arena.Contention
import LogRelay.Proofs.Checked.Basic

/-!
# Arena arithmetic

Every sum, product and difference that the arena forms stays within a word as long as it
accounts for the slots that are out: what it sets aside lies within its capacity.
-/

namespace LogRelay.Arena

open LogRelay.Checked

/-! ## Checked operations -/

def usedBytes? (arena : Arena) : Option Nat :=
  match arena.policy with
  | .bump => some arena.cursor
  | .slab slotSize => do
    let taken ← sub? (slotCount arena.policy arena.capacity) arena.freeSlots.length
    mul? taken slotSize

def place? (arena : Arena) (length : Nat) : Option (Except Exhaustion (Slot × Nat × List Nat)) :=
  match arena.policy with
  | .bump => do
    let room ← sub? arena.capacity arena.cursor
    if room < length then return .error .arenaFull
    else
      let cursor ← add? arena.cursor length
      return .ok (⟨arena.cursor, length, length⟩, cursor, arena.freeSlots)
  | .slab slotSize =>
    if slotSize < length then return .error (.slotTooSmall length slotSize)
    else
      match arena.freeSlots with
      | [] => return .error .arenaFull
      | index :: rest => do
        let offset ← mul? index slotSize
        return .ok (⟨offset, length, slotSize⟩, arena.cursor, rest)

def allocate? (arena : Arena) (length : Nat) : Option (Except Exhaustion (Slot × Arena)) :=
  if arena.maxInFlight ≤ arena.live then return .error (.tooManyInFlight arena.maxInFlight)
  else do
    match ← arena.place? length with
    | .error cause => return .error cause
    | .ok (slot, cursor, freeSlots) =>
      let taken := { arena with cursor, freeSlots, live := arena.live + 1 }
      let used ← taken.usedBytes?
      return .ok (slot, { taken with peak := max taken.peak used })

def allocateIn? (arena : Arena) (entered : Bool) (length : Nat) :
    Option (Except Exhaustion (Slot × Arena)) :=
  if entered then arena.allocate? length else return .error .arenaContended

def free? (arena : Arena) (slot : Slot) : Option Arena := do
  let live ← sub? arena.live 1
  let released := { arena with live }
  match arena.policy with
  | .bump =>
    let limit ← add? slot.offset slot.reserved
    return if limit = arena.cursor then { released with cursor := slot.offset } else released
  | .slab slotSize =>
    let index ← div? slot.offset slotSize
    return { released with freeSlots := index :: arena.freeSlots }

def freeIn? (arena : Arena) (entered : Bool) (slot : Slot) : Option Arena :=
  if entered then arena.free? slot
  else do
    let live ← sub? arena.live 1
    return { arena with live }

/-- The bytes of a slot, which has to lie within the region. -/
def read? (arena : Arena) (slot : Slot) : Option (List UInt8) := do
  guard (slot.offset + slot.length ≤ arena.capacity)
  return arena.read slot

/-- Puts bytes into a slot, `start` bytes behind its beginning, within the region and the
slot. -/
def write? (arena : Arena) (slot : Slot) (start : Nat) (bytes : List UInt8) : Option Arena := do
  guard (slot.offset + slot.length ≤ arena.capacity)
  let size ← window? slot.length start (start + bytes.length)
  let copied ← copy? size bytes
  return arena.write slot start copied

/-! ## Nothing goes wrong -/

variable {arena after : Arena} {slots : List Slot} {slot : Slot} {length : Nat}

theorem lt_wordLimit_of_le {number : Nat} (hcapacity : arena.capacity ≤ addressSpace)
    (hle : number ≤ arena.capacity) : number < wordLimit :=
  Nat.lt_of_le_of_lt (Nat.le_trans hle hcapacity) (by decide)

theorem Placed.usedBytes?_eq (hplaced : arena.Placed slots)
    (hcapacity : arena.capacity ≤ addressSpace) : arena.usedBytes? = some arena.usedBytes := by
  have hused := lt_wordLimit_of_le hcapacity hplaced.usedBytes_le
  cases hpolicy : arena.policy with
  | bump => simp only [usedBytes?, usedBytes, hpolicy]
  | slab slotSize =>
    have hcount := ((placed_slab hpolicy).mp hplaced).indices.length_eq
    rw [List.length_append, List.length_range] at hcount
    have hfree : arena.freeSlots.length ≤ slotCount (.slab slotSize) arena.capacity := by
      rw [slotCount, ← hcount]
      exact Nat.le_add_right _ _
    simp only [usedBytes, hpolicy] at hused
    simp only [usedBytes?, usedBytes, hpolicy, sub?_of_le hfree, Option.bind_eq_bind,
      Option.bind_some, mul?_of_lt hused]

/-- Sums of positions stay below the end of the address space, so that none of them wraps. -/
theorem Placed.place?_eq (hplaced : arena.Placed slots) (hcapacity : arena.capacity ≤ addressSpace)
    (length : Nat) : arena.place? length = some (arena.place length) := by
  cases hpolicy : arena.policy with
  | bump =>
    have hcursor := ((placed_bump hpolicy).mp hplaced).cursor_le
    simp only [place?, place, hpolicy, sub?_of_le hcursor, Option.bind_eq_bind, Option.bind_some]
    split
    · rfl
    · next hroom =>
      have hlt : arena.cursor + length < wordLimit := lt_wordLimit_of_le hcapacity (by omega)
      rw [add?_of_lt hlt]
      rfl
  | slab slotSize =>
    simp only [place?, place, hpolicy]
    split
    · rfl
    · cases hfree : arena.freeSlots with
      | nil => rfl
      | cons index rest =>
        have hslab := (placed_slab hpolicy).mp hplaced
        have hmem : index ∈ arena.freeSlots ++ slots.map (Slot.index slotSize) := by
          rw [hfree]
          exact List.mem_cons_self
        have hindex := List.mem_range.mp (hslab.indices.mem_iff.mp hmem)
        have hoffset : index * slotSize ≤ arena.capacity :=
          Nat.le_trans (Nat.mul_le_mul_right _ (Nat.le_of_lt hindex)) (Nat.div_mul_le_self _ _)
        simp only [mul?_of_lt (lt_wordLimit_of_le hcapacity hoffset)]
        rfl

namespace Accounts

/-- An arena that accounts for its slots hands out the next one without a step going wrong. -/
theorem allocate?_eq (haccounts : arena.Accounts slots) (length : Nat) :
    arena.allocate? length = some (arena.allocate length) := by
  obtain ⟨lost, -, -, hplaced, hcapacity⟩ := haccounts
  rw [allocate?, Arena.allocate, hplaced.place?_eq hcapacity]
  split
  · rfl
  · simp only [Option.bind_eq_bind, Option.bind_some]
    cases hplace : arena.place length with
    | error cause => rfl
    | ok placed =>
      obtain ⟨slot, cursor, freeSlots⟩ := placed
      have htaken : Placed { arena with cursor, freeSlots, live := arena.live + 1 }
          (slot :: (slots ++ lost)) := hplaced.allocate hplace
      simp only [htaken.usedBytes?_eq hcapacity]
      rfl

theorem allocateIn?_eq (haccounts : arena.Accounts slots) (entered : Bool) (length : Nat) :
    arena.allocateIn? entered length = some (arena.allocateIn entered length) := by
  cases entered with
  | true => exact haccounts.allocate?_eq length
  | false => rfl

/-- While a slot is out the count of live slots can be lowered. -/
theorem live_pos (haccounts : arena.Accounts (slot :: slots)) : 1 ≤ arena.live := by
  rw [haccounts.live_eq]
  exact Nat.succ_pos _

/-- Only a slot that is out goes back, so the count of live slots never runs below zero. -/
theorem free?_eq (haccounts : arena.Accounts (slot :: slots)) :
    arena.free? slot = some (arena.free slot) := by
  have hlimit : slot.offset + slot.reserved < wordLimit :=
    lt_wordLimit_of_le haccounts.capacity_le (haccounts.limit_le List.mem_cons_self)
  rw [free?, sub?_of_le haccounts.live_pos, Arena.free]
  cases hpolicy : arena.policy with
  | bump =>
    simp only [Option.bind_eq_bind, Option.bind_some, add?_of_lt hlimit]
    rfl
  | slab slotSize =>
    obtain ⟨lost, haccounts⟩ := haccounts
    have hpositive := ((placed_slab hpolicy).mp haccounts.placed).size_pos
    simp only [Option.bind_eq_bind, Option.bind_some, div?_of_pos hpositive]
    rfl

-- A slot that comes back when none is out would take the count below zero.
example :
    free? { capacity := 8, maxInFlight := 1, policy := .bump, freeSlots := [] } ⟨0, 8, 8⟩ = none :=
  rfl

theorem freeIn?_eq (haccounts : arena.Accounts (slot :: slots)) (entered : Bool) :
    arena.freeIn? entered slot = some (arena.freeIn entered slot) := by
  cases entered with
  | true => exact haccounts.free?_eq
  | false =>
    simp only [freeIn?, sub?_of_le haccounts.live_pos]
    rfl

/-- A slot that has an owner lies within the region. -/
theorem inside (haccounts : arena.Accounts slots) (hslot : slot ∈ slots) :
    slot.offset + slot.length ≤ arena.capacity :=
  Nat.le_trans (Nat.add_le_add_left (haccounts.length_le hslot) _) (haccounts.limit_le hslot)

theorem read?_eq (haccounts : arena.Accounts slots) (hslot : slot ∈ slots) :
    arena.read? slot = some (arena.read slot) := by
  rw [read?, guard_of (haccounts.inside hslot)]
  rfl

/-- Bytes that fit into a slot that is out lie within the region. -/
theorem write?_eq (haccounts : arena.Accounts slots) (hslot : slot ∈ slots) {start : Nat}
    {bytes : List UInt8} (hfits : start + bytes.length ≤ slot.length) :
    arena.write? slot start bytes = some (arena.write slot start bytes) := by
  rw [write?, guard_of (haccounts.inside hslot), window?_of_le (Nat.le_add_right _ _) hfits]
  simp only [Option.bind_eq_bind, Option.bind_some]
  rw [copy?_of_length (Nat.add_sub_cancel_left _ _).symm]
  rfl

end Accounts

end LogRelay.Arena
