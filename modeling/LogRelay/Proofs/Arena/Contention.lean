import LogRelay.Arena.Interrupt
import LogRelay.Proofs.Arena.Ownership
import LogRelay.Proofs.Arena.Safety

/-!
# Ownership under contention

A slot that interrupt context gives back without the guard has no owner any more, and is
not counted, but its bytes stay set aside.  `Arena.Accounts` lists the slots that have an
owner: the arena counts these, and what it has set aside is set aside for them and for the
lost ones.  Every operation keeps it, whether its caller had the guard or not.
-/

namespace LogRelay.Arena

/-- `slots` have an owner, and `lost` ones do not although their bytes are set aside. -/
structure AccountsFor (arena : Arena) (slots lost : List Slot) : Prop where
  live_eq : arena.live = slots.length
  length_le : ∀ slot ∈ slots, slot.length ≤ slot.reserved
  placed : arena.Placed (slots ++ lost)
  capacity_le : arena.capacity ≤ addressSpace

/-- The slots that have an owner, in any order. -/
def Accounts (arena : Arena) (slots : List Slot) : Prop :=
  ∃ lost, arena.AccountsFor slots lost

variable {arena after : Arena} {slots others : List Slot} {slot : Slot} {length : Nat}

@[simp]
theorem read_freeIn (arena : Arena) (entered : Bool) (slot other : Slot) :
    (arena.freeIn entered slot).read other = arena.read other := by
  cases entered with
  | true => exact read_free arena slot other
  | false => rfl

@[simp]
theorem peak_freeIn (arena : Arena) (entered : Bool) (slot : Slot) :
    (arena.freeIn entered slot).peak = arena.peak := by
  cases entered with
  | true => exact peak_free arena slot
  | false => rfl

theorem Holds.accounts (hholds : arena.Holds slots) (hcapacity : arena.capacity ≤ addressSpace) :
    arena.Accounts slots := by
  refine ⟨[], hholds.live_eq, hholds.length_le, ?_, hcapacity⟩
  rw [List.append_nil]
  exact hholds.placed

theorem accounts_of_create {hostMemory capacity maxInFlight : Nat} {policy : Policy}
    (heq : create hostMemory capacity maxInFlight policy = .ok arena) : arena.Accounts [] := by
  have hholds := Holds.of_create heq
  obtain ⟨rfl, -⟩ := create_eq_ok heq
  rw [create] at heq
  split_ifs at heq with _ _ _ _ hcapacity
  exact hholds.accounts (Nat.le_of_not_lt hcapacity)

namespace Accounts

theorem live_eq (haccounts : arena.Accounts slots) : arena.live = slots.length := by
  obtain ⟨lost, haccounts⟩ := haccounts
  exact haccounts.live_eq

theorem length_le (haccounts : arena.Accounts slots) (hslot : slot ∈ slots) :
    slot.length ≤ slot.reserved := by
  obtain ⟨lost, haccounts⟩ := haccounts
  exact haccounts.length_le slot hslot

theorem limit_le (haccounts : arena.Accounts slots) (hslot : slot ∈ slots) :
    slot.limit ≤ arena.capacity := by
  obtain ⟨lost, haccounts⟩ := haccounts
  exact haccounts.placed.limit_le (List.mem_append_left _ hslot)

theorem capacity_le (haccounts : arena.Accounts slots) : arena.capacity ≤ addressSpace := by
  obtain ⟨lost, haccounts⟩ := haccounts
  exact haccounts.capacity_le

theorem apart (haccounts : arena.Accounts slots) : slots.Pairwise Slot.Apart := by
  obtain ⟨lost, haccounts⟩ := haccounts
  exact (List.pairwise_append.mp haccounts.placed.apart).1

theorem policy_ne (haccounts : arena.Accounts slots) : arena.policy ≠ .slab 0 := by
  obtain ⟨lost, haccounts⟩ := haccounts
  exact haccounts.placed.policy_ne

/-- A write through one slot changes nothing that another owner reads. -/
theorem read_write {other : Slot} (haccounts : arena.Accounts (slot :: slots))
    (hother : other ∈ slots) (start : Nat) (bytes : List UInt8) :
    (arena.write slot start bytes).read other = arena.read other := by
  have hslot := haccounts.length_le List.mem_cons_self
  have hothers := haccounts.length_le (List.mem_cons_of_mem slot hother)
  have hapart := (List.pairwise_cons.mp haccounts.apart).1 other hother
  exact hapart.read_write hslot hothers arena.region (List.length_take_le _ _)

/-- No slab index is free twice, or free while a slot of it has an owner. -/
theorem nodup_indices (haccounts : arena.Accounts slots) {slotSize : Nat}
    (hpolicy : arena.policy = .slab slotSize) :
    (arena.freeSlots ++ slots.map (Slot.index slotSize)).Nodup := by
  obtain ⟨lost, haccounts⟩ := haccounts
  have hnodup := ((placed_slab hpolicy).mp haccounts.placed).indices.nodup_iff.mpr List.nodup_range
  rw [List.map_append, ← List.append_assoc] at hnodup
  exact (List.nodup_append.mp hnodup).1

theorem perm (haccounts : arena.Accounts slots) (hperm : slots.Perm others) :
    arena.Accounts others := by
  obtain ⟨lost, hlive, hlength, hplaced, hcapacity⟩ := haccounts
  refine ⟨lost, hlive.trans hperm.length_eq, ?_, hplaced.perm (hperm.append_right lost), hcapacity⟩
  exact fun slot hslot => hlength slot (hperm.mem_iff.mpr hslot)

theorem region (haccounts : arena.Accounts slots) (region : Memory) :
    Accounts { arena with region } slots := by
  obtain ⟨lost, hlive, hlength, hplaced, hcapacity⟩ := haccounts
  exact ⟨lost, hlive, hlength, hplaced, hcapacity⟩

theorem allocate (haccounts : arena.Accounts slots)
    (heq : arena.allocate length = .ok (slot, after)) : after.Accounts (slot :: slots) := by
  obtain ⟨lost, hlive, hlength, hplaced, hcapacity⟩ := haccounts
  obtain ⟨-, cursor, freeSlots, hplace, rfl⟩ := allocate_eq_ok heq
  refine ⟨lost, congrArg (· + 1) hlive, ?_, hplaced.allocate hplace, hcapacity⟩
  exact List.forall_mem_cons.mpr ⟨reserved_of_place hplace, hlength⟩

/-- A slot that goes out is set aside in addition to all that was. -/
theorem usedBytes_of_allocate (haccounts : arena.Accounts slots)
    (heq : arena.allocate length = .ok (slot, after)) :
    after.usedBytes = arena.usedBytes + slot.reserved := by
  obtain ⟨lost, haccounts⟩ := haccounts
  obtain ⟨-, cursor, freeSlots, hplace, rfl⟩ := allocate_eq_ok heq
  cases hpolicy : arena.policy with
  | bump =>
    obtain ⟨-, rfl, rfl, -⟩ := place_bump_eq_ok hpolicy hplace
    simp only [usedBytes, hpolicy]
  | slab slotSize =>
    obtain ⟨-, index, hfree, rfl⟩ := place_slab_eq_ok hpolicy hplace
    have hcount := ((placed_slab hpolicy).mp haccounts.placed).indices.length_eq
    rw [hfree, List.length_append, List.length_cons, List.length_range] at hcount
    have hroom : freeSlots.length + 1 ≤ arena.capacity / slotSize :=
      hcount ▸ Nat.le_add_right _ _
    simp only [usedBytes, hpolicy, slotCount, hfree, List.length_cons]
    rw [← Nat.succ_mul]
    congr 1
    omega

theorem allocateIn {entered : Bool} (haccounts : arena.Accounts slots)
    (heq : arena.allocateIn entered length = .ok (slot, after)) :
    after.Accounts (slot :: slots) :=
  haccounts.allocate (allocate_of_allocateIn heq)

theorem free (haccounts : arena.Accounts (slot :: slots)) :
    (arena.free slot).Accounts slots := by
  obtain ⟨lost, hlive, hlength, hplaced, hcapacity⟩ := haccounts
  refine ⟨lost, ?_, (List.forall_mem_cons.mp hlength).2, hplaced.free, ?_⟩
  · rw [live_free, hlive, List.length_cons, Nat.add_sub_cancel]
  · rwa [capacity_free]

/-- Without the guard the slot that comes back is lost. -/
theorem freeIn (haccounts : arena.Accounts (slot :: slots)) (entered : Bool) :
    (arena.freeIn entered slot).Accounts slots := by
  cases entered with
  | true => exact haccounts.free
  | false =>
    obtain ⟨lost, hlive, hlength, hplaced, hcapacity⟩ := haccounts
    refine ⟨slot :: lost, ?_, (List.forall_mem_cons.mp hlength).2, ?_, hcapacity⟩
    · change arena.live - 1 = slots.length
      rw [hlive, List.length_cons, Nat.add_sub_cancel]
    · exact hplaced.perm List.perm_middle.symm

/-- A reset that is not refused finds what was lost again. -/
theorem reset (haccounts : arena.Accounts slots) : arena.reset.1.Accounts slots := by
  by_cases hlive : arena.live = 0
  · obtain ⟨lost, hcount, hlength, hplaced, hcapacity⟩ := haccounts
    obtain rfl : slots = [] := List.length_eq_zero_iff.mp (hcount.symm.trans hlive)
    have hnew := hplaced.reset hlive
    rw [Arena.reset, if_pos hlive] at hnew ⊢
    exact ⟨[], hcount, hlength, hnew, hcapacity⟩
  · rw [Arena.reset, if_neg hlive]
    exact haccounts

end Accounts

namespace Session

theorem keptByUse_accounts : KeptByUse Arena.Accounts where
  perm haccounts := haccounts.perm
  region haccounts := haccounts.region
  allocate haccounts := haccounts.allocate
  free haccounts := haccounts.free
  reset haccounts := haccounts.reset

/-- Without the guard nothing goes out, and a slot that comes back is only no longer counted.
Every other turn is a step. -/
theorem turn_cases (session : Session) (turn : Turn) :
    (∃ step, session.turn turn = session.step step) ∨ (session.turn turn).1 = session ∨
      ∃ number slot, session.slots.get? number = some slot ∧ (session.turn turn).1 =
        ⟨session.arena.freeIn false slot, session.slots.remove number⟩ := by
  cases turn with
  | step step => exact Or.inl ⟨step, rfl⟩
  | allocate entered length =>
    cases entered with
    | true => exact Or.inl ⟨.allocate length, rfl⟩
    | false => exact Or.inr (Or.inl rfl)
  | free entered number =>
    cases entered with
    | true => exact Or.inl ⟨.free number, rfl⟩
    | false =>
      cases hslot : session.slots.get? number with
      | none => exact Or.inr (Or.inl (by rw [turn, hslot]))
      | some slot => exact Or.inr (Or.inr ⟨number, slot, hslot, by rw [turn, hslot]⟩)

variable {session : Session}

/-- Slots may be out that the session does not hold, and those stay out. -/
theorem accounts_turn (haccounts : session.arena.Accounts (session.slots.toList ++ others))
    (turn : Turn) :
    (session.turn turn).1.arena.Accounts ((session.turn turn).1.slots.toList ++ others) := by
  rcases session.turn_cases turn with ⟨step, hturn⟩ | hturn | ⟨number, slot, hslot, hturn⟩
  · rw [hturn]
    exact keptByUse_accounts.step haccounts step
  · rw [hturn]
    exact haccounts
  · rw [hturn]
    have hperm := (Numbered.toList_perm_of_get?_eq_some hslot).append_right others
    exact (haccounts.perm hperm).freeIn false

theorem accounts_after (haccounts : session.arena.Accounts (session.slots.toList ++ others))
    (turns : List Turn) :
    (session.after turns).arena.Accounts ((session.after turns).slots.toList ++ others) := by
  induction turns generalizing session with
  | nil => exact haccounts
  | cons turn rest ih => exact ih (accounts_turn haccounts turn)

/-- Nothing that is done through held slots can be seen through another one, in interrupt
context as little as elsewhere. -/
theorem read_turn {other : Slot}
    (haccounts : session.arena.Accounts (session.slots.toList ++ others)) (hother : other ∈ others)
    (turn : Turn) : (session.turn turn).1.arena.read other = session.arena.read other := by
  rcases session.turn_cases turn with ⟨step, hturn⟩ | hturn | ⟨number, slot, -, hturn⟩
  · rw [hturn]
    apply read_step_of_write
    intro number slot hslot start bytes
    have hperm := (Numbered.toList_perm_of_get?_eq_some hslot).append_right others
    exact (haccounts.perm hperm).read_write (List.mem_append_right _ hother) start bytes
  · rw [hturn]
  · rw [hturn]
    exact read_freeIn _ _ _ _

/-- No turn changes what an arena was made with. -/
theorem limits_turn (session : Session) (turn : Turn) :
    (session.turn turn).1.arena.capacity = session.arena.capacity ∧
      (session.turn turn).1.arena.maxInFlight = session.arena.maxInFlight ∧
      (session.turn turn).1.arena.policy = session.arena.policy := by
  rcases session.turn_cases turn with ⟨step, hturn⟩ | hturn | ⟨number, slot, -, hturn⟩
  · obtain ⟨hcapacity, hlimit⟩ := limits_step session step
    rw [hturn]
    exact ⟨hcapacity, hlimit, policy_step session step⟩
  · rw [hturn]
    exact ⟨rfl, rfl, rfl⟩
  · rw [hturn]
    exact ⟨rfl, rfl, rfl⟩

theorem limits_after (session : Session) (turns : List Turn) :
    (session.after turns).arena.capacity = session.arena.capacity ∧
      (session.after turns).arena.maxInFlight = session.arena.maxInFlight ∧
      (session.after turns).arena.policy = session.arena.policy := by
  induction turns generalizing session with
  | nil => exact ⟨rfl, rfl, rfl⟩
  | cons turn rest ih =>
    obtain ⟨hcapacity, hlimit, hpolicy⟩ := limits_turn session turn
    obtain ⟨hlater, hlaterLimit, hlaterPolicy⟩ := ih (session.turn turn).1
    exact ⟨hlater.trans hcapacity, hlaterLimit.trans hlimit, hlaterPolicy.trans hpolicy⟩

end Session

end LogRelay.Arena
