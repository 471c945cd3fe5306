import LogRelay.Arena.Interrupt
import LogRelay.Proofs.Arena.Contention

/-!
# An arena made new

What an arena has set aside decides all that it will ever hand out; what its memory holds and
how full it once was do not.  So an arena that was reset cannot be told from a new one by
what it grants, whatever was done to it before.
-/

namespace LogRelay.Arena

/-! ## What is set aside -/

/-- Of two arenas the second has the same set aside as the first.  What they store may
differ, and the most that they ever had in use. -/
def SetAsideAlike (before after : Arena) : Prop :=
  after = { before with region := after.region, peak := after.peak }

namespace SetAsideAlike

variable {before after : Arena}

theorem refl (arena : Arena) : arena.SetAsideAlike arena := rfl

/-- Giving back the slot that went out last undoes that it did, whatever was written. -/
theorem of_allocate {arena taken : Arena} {length : Nat} {slot : Slot}
    (hpolicy : arena.policy ≠ .slab 0) (heq : arena.allocate length = .ok (slot, taken))
    (region : Memory) : arena.SetAsideAlike (free { taken with region } slot) := by
  rw [SetAsideAlike, free_of_allocate hpolicy heq]

/-- Without the guard a slot is counted no more, and stays set aside. -/
theorem of_allocate_lost {arena taken : Arena} {length : Nat} {slot : Slot}
    (heq : arena.allocate length = .ok (slot, taken)) (region : Memory) :
    SetAsideAlike { taken with live := arena.live } (freeIn { taken with region } false slot) := by
  obtain ⟨-, cursor, freeSlots, -, rfl⟩ := allocate_eq_ok heq
  rfl

theorem usedBytes_eq (halike : before.SetAsideAlike after) :
    after.usedBytes = before.usedBytes := by
  rw [halike]
  rfl

theorem freeSlots_eq (halike : before.SetAsideAlike after) :
    after.freeSlots = before.freeSlots := by
  rw [halike]

theorem live_eq (halike : before.SetAsideAlike after) : after.live = before.live := by
  rw [halike]

theorem exists_eq (halike : before.SetAsideAlike after) :
    ∃ region peak, after = { before with region, peak } :=
  ⟨_, _, halike⟩

theorem describe_eq (halike : before.SetAsideAlike after) : after.describe = before.describe := by
  obtain ⟨region, peak, rfl⟩ := halike.exists_eq
  rfl

/-- The same is granted from both, or refused for the same cause. -/
theorem allocate (halike : before.SetAsideAlike after) (length : Nat) :
    (∃ cause, before.allocate length = .error cause ∧ after.allocate length = .error cause) ∨
      ∃ slot left right, left.SetAsideAlike right ∧
        before.allocate length = .ok (slot, left) ∧ after.allocate length = .ok (slot, right) := by
  obtain ⟨region, peak, rfl⟩ := halike.exists_eq
  have hplace : place { before with region, peak } length = before.place length := rfl
  by_cases hlimit : before.maxInFlight ≤ before.live
  · exact Or.inl ⟨_, if_pos hlimit, if_pos hlimit⟩
  · simp only [Arena.allocate, if_neg hlimit, hplace]
    cases before.place length with
    | error cause => exact Or.inl ⟨cause, rfl, rfl⟩
    | ok placed =>
      obtain ⟨slot, cursor, freeSlots⟩ := placed
      refine Or.inr ⟨slot, _, _, ?_, rfl, rfl⟩
      rfl

theorem allocateIn (halike : before.SetAsideAlike after) (entered : Bool) (length : Nat) :
    (∃ cause, before.allocateIn entered length = .error cause ∧
        after.allocateIn entered length = .error cause) ∨
      ∃ slot left right, left.SetAsideAlike right ∧
        before.allocateIn entered length = .ok (slot, left) ∧
        after.allocateIn entered length = .ok (slot, right) := by
  cases entered with
  | true => exact halike.allocate length
  | false => exact Or.inl ⟨.arenaContended, rfl, rfl⟩

theorem free (halike : before.SetAsideAlike after) (slot : Slot) :
    (before.free slot).SetAsideAlike (after.free slot) := by
  obtain ⟨region, peak, rfl⟩ := halike.exists_eq
  cases hpolicy : before.policy with
  | bump =>
    simp only [SetAsideAlike, Arena.free, hpolicy]
    split <;> rfl
  | slab slotSize => simp only [SetAsideAlike, Arena.free, hpolicy]

theorem freeIn (halike : before.SetAsideAlike after) (entered : Bool) (slot : Slot) :
    (before.freeIn entered slot).SetAsideAlike (after.freeIn entered slot) := by
  cases entered with
  | true => exact halike.free slot
  | false =>
    obtain ⟨region, peak, rfl⟩ := halike.exists_eq
    rfl

theorem write (halike : before.SetAsideAlike after) (slot : Slot) (start : Nat)
    (bytes : List UInt8) :
    (before.write slot start bytes).SetAsideAlike (after.write slot start bytes) := by
  obtain ⟨region, peak, rfl⟩ := halike.exists_eq
  rfl

theorem reset (halike : before.SetAsideAlike after) :
    before.reset.1.SetAsideAlike after.reset.1 ∧ after.reset.2 = before.reset.2 := by
  obtain ⟨region, peak, rfl⟩ := halike.exists_eq
  by_cases hlive : before.live = 0
  · simp only [SetAsideAlike, Arena.reset, if_pos hlive, and_self]
  · simp only [SetAsideAlike, Arena.reset, if_neg hlive, and_self]

end SetAsideAlike

/-- A reset that is not refused sets aside what a new arena does, which is nothing. -/
theorem setAsideAlike_reset {hostMemory : Nat} {new arena : Arena}
    (hcreate : create hostMemory arena.capacity arena.maxInFlight arena.policy = .ok new)
    (hlive : arena.live = 0) : new.SetAsideAlike arena.reset.1 := by
  obtain ⟨rfl, -⟩ := create_eq_ok hcreate
  rw [SetAsideAlike, reset, if_pos hlive, hlive]

/-- An answer without the bytes in it. -/
def Answer.blanked : Answer → Answer
  | .bytes content => .bytes (content.map fun _ => 0)
  | answer => answer

namespace Session

/-! ## Sessions that cannot be told apart by what they are granted -/

/-- Users of two arenas with the same set aside, who hold the same slots. -/
structure Mirrors (left right : Session) : Prop where
  arena : left.arena.SetAsideAlike right.arena
  slots_eq : right.slots = left.slots

namespace Mirrors

variable {left right : Session}

theorem allocate (hmirrors : Mirrors left right) (entered : Bool) (length : Nat) :
    Mirrors (left.turn (.allocate entered length)).1 (right.turn (.allocate entered length)).1 ∧
      (right.turn (.allocate entered length)).2.blanked =
        (left.turn (.allocate entered length)).2.blanked := by
  obtain ⟨leftArena, slots⟩ := left
  obtain ⟨rightArena, rightSlots⟩ := right
  obtain ⟨halike, rfl⟩ := hmirrors
  rcases halike.allocateIn entered length with
    ⟨cause, hleft, hright⟩ | ⟨slot, before, after, hafter, hleft, hright⟩
  · simp only [turn, hleft, hright]
    exact ⟨⟨halike, rfl⟩, trivial⟩
  · simp only [turn, hleft, hright]
    exact ⟨⟨hafter, rfl⟩, trivial⟩

theorem free (hmirrors : Mirrors left right) (entered : Bool) (number : Nat) :
    Mirrors (left.turn (.free entered number)).1 (right.turn (.free entered number)).1 ∧
      (right.turn (.free entered number)).2.blanked =
        (left.turn (.free entered number)).2.blanked := by
  obtain ⟨leftArena, slots⟩ := left
  obtain ⟨rightArena, rightSlots⟩ := right
  obtain ⟨halike, rfl⟩ := hmirrors
  cases hslot : rightSlots.get? number with
  | none =>
    simp only [turn, hslot]
    exact ⟨⟨halike, rfl⟩, trivial⟩
  | some slot =>
    simp only [turn, hslot]
    exact ⟨⟨halike.freeIn entered slot, rfl⟩, trivial⟩

theorem step (hmirrors : Mirrors left right) (step : Step) :
    Mirrors (left.step step).1 (right.step step).1 ∧
      (right.step step).2.blanked = (left.step step).2.blanked := by
  cases step with
  | allocate length => exact hmirrors.allocate true length
  | free number => exact hmirrors.free true number
  | reset =>
    obtain ⟨hreset, hsame⟩ := hmirrors.arena.reset
    simp only [Session.step, hsame]
    exact ⟨⟨hreset, hmirrors.slots_eq⟩, trivial⟩
  | fill number byte | write number start bytes =>
    simp only [Session.step, hmirrors.slots_eq]
    cases left.slots.get? number with
    | none => exact ⟨hmirrors, rfl⟩
    | some slot => exact ⟨⟨hmirrors.arena.write slot _ _, rfl⟩, rfl⟩
  | read number =>
    simp only [Session.step, hmirrors.slots_eq]
    cases left.slots.get? number with
    | none => exact ⟨hmirrors, rfl⟩
    | some slot =>
      refine ⟨hmirrors, ?_⟩
      simp only [Answer.blanked, List.map_const', Arena.read, Memory.length_read]
  | describe =>
    refine ⟨hmirrors, ?_⟩
    simp only [Session.step, hmirrors.arena.describe_eq]
  | describeSlot number =>
    simp only [Session.step, hmirrors.slots_eq]
    cases left.slots.get? number with
    | none | some slot => exact ⟨hmirrors, rfl⟩

theorem turn (hmirrors : Mirrors left right) (turn : Turn) :
    Mirrors (left.turn turn).1 (right.turn turn).1 ∧
      (right.turn turn).2.blanked = (left.turn turn).2.blanked := by
  cases turn with
  | step step => exact hmirrors.step step
  | allocate entered length => exact hmirrors.allocate entered length
  | free entered number => exact hmirrors.free entered number

theorem after (hmirrors : Mirrors left right) (turns : List Turn) :
    Mirrors (left.after turns) (right.after turns) ∧
      (right.responses turns).map Answer.blanked = (left.responses turns).map Answer.blanked := by
  induction turns generalizing left right with
  | nil => exact ⟨hmirrors, rfl⟩
  | cons turn rest ih =>
    obtain ⟨hnext, hanswer⟩ := hmirrors.turn turn
    obtain ⟨hlast, hanswers⟩ := ih hnext
    refine ⟨hlast, ?_⟩
    rw [responses, responses, List.map_cons, List.map_cons, hanswer, hanswers]

end Mirrors

/-! ## Every run -/

/-- What a reset does: it is refused while slots are out, and after it the arena grants and
refuses whatever is asked for as `new` would. -/
structure Renewable (new : Arena) (session : Session) : Prop where
  live_eq : session.arena.live = session.slots.toList.length
  reset_iff : (session.step .reset).2 = .wasReset true ↔ session.slots.toList = []
  refused : (session.step .reset).2 ≠ .wasReset true →
    session.step .reset = (session, .wasReset false)
  renewed : (session.step .reset).2 = .wasReset true → ∀ turns : List Turn,
    let again : Session := { arena := (session.step .reset).1.arena }
    let fresh : Session := { arena := new }
    (again.responses turns).map Answer.blanked = (fresh.responses turns).map Answer.blanked ∧
      (again.after turns).arena.usedBytes = (fresh.after turns).arena.usedBytes ∧
      (again.after turns).arena.live = (fresh.after turns).arena.live ∧
      (fresh.after turns).arena.SetAsideAlike (again.after turns).arena

theorem renewable_of_accounts {hostMemory : Nat} {new : Arena} {session : Session}
    (hcreate : create hostMemory session.arena.capacity session.arena.maxInFlight
      session.arena.policy = .ok new)
    (haccounts : session.arena.Accounts session.slots.toList) : Renewable new session := by
  have hlive := haccounts.live_eq
  by_cases hnone : session.arena.live = 0
  · have hreset : session.step .reset =
        ({ session with arena := session.arena.reset.1 }, .wasReset true) := by
      simp only [step, reset, if_pos hnone]
    have hheld : session.slots.toList = [] := List.length_eq_zero_iff.mp (hlive.symm.trans hnone)
    refine ⟨hlive, ?_, ?_, ?_⟩
    · rw [hreset]
      exact ⟨fun _ => hheld, fun _ => rfl⟩
    · rw [hreset]
      exact fun hrefused => absurd rfl hrefused
    · intro _ turns again fresh
      have hmirrors : Mirrors fresh again := by
        refine ⟨?_, rfl⟩
        change new.SetAsideAlike (session.step .reset).1.arena
        rw [hreset]
        exact setAsideAlike_reset hcreate hnone
      obtain ⟨⟨halike, -⟩, hanswers⟩ := hmirrors.after turns
      exact ⟨hanswers, halike.usedBytes_eq, halike.live_eq, halike⟩
  · have hreset : session.step .reset = (session, .wasReset false) := by
      simp only [step, reset, if_neg hnone]
    have hheld : session.slots.toList ≠ [] := by
      intro heq
      rw [heq] at hlive
      exact hnone hlive
    refine ⟨hlive, ?_, fun _ => hreset, ?_⟩
    · rw [hreset]
      exact ⟨fun hsuccess => absurd hsuccess (by simp), fun heq => absurd heq hheld⟩
    · rw [hreset]
      exact fun hsuccess => absurd hsuccess (by simp)

/-- Whatever was done to an arena, by tasks or in interrupt context, it is reset exactly when
no slot is out, and from then on does as a new one does. -/
theorem renewable_after {hostMemory capacity maxInFlight : Nat} {policy : Policy} {new : Arena}
    (hcreate : create hostMemory capacity maxInFlight policy = .ok new) (turns : List Turn) :
    Renewable new (after { arena := new } turns) := by
  obtain ⟨hnew, -⟩ := create_eq_ok hcreate
  obtain ⟨hcapacity, hlimit, hpolicy⟩ := limits_after { arena := new } turns
  have hafter : (after { arena := new } turns).arena.Accounts
      ((after { arena := new } turns).slots.toList ++ []) :=
    accounts_after (accounts_of_create hcreate) turns
  have hagain : create hostMemory (after { arena := new } turns).arena.capacity
      (after { arena := new } turns).arena.maxInFlight
      (after { arena := new } turns).arena.policy = .ok new := by
    rw [hcapacity, hlimit, hpolicy]
    rw [hnew] at hcreate ⊢
    exact hcreate
  rw [List.append_nil] at hafter
  exact renewable_of_accounts hagain hafter

/-- Of three slots two are shuffled and one is lost in interrupt context; all three can be
had again after the reset, the lowest first. -/
theorem renewable_after_loss :
    let start : Session :=
      { arena := { capacity := 26, maxInFlight := 4, policy := .slab 8, freeSlots := [0, 1, 2] } }
    let turns : List Turn :=
      [.allocate true 8, .step (.allocate 3), .step (.write 0 2 [9]), .free false 0,
        .step (.allocate 1), .step (.free 1), .free true 2]
    let again : Session := { arena := ((start.after turns).step .reset).1.arena }
    let more : List Turn := [.step (.allocate 8), .step (.allocate 9), .step (.allocate 2)]
    create 1024 26 4 (.slab 8) = .ok start.arena ∧
      Renewable start.arena (start.after turns) ∧
      (start.after turns).arena.usedBytes = 8 ∧ (start.after turns).arena.freeSlots = [2, 1] ∧
      ((start.after turns).step .reset).2 = .wasReset true ∧
      again.responses more =
        [.allocated 0 ⟨0, 8, 8⟩, .refused (.slotTooSmall 9 8), .allocated 1 ⟨8, 2, 8⟩] := by
  intro start turns again more
  have hcreate : create 1024 26 4 (.slab 8) = .ok start.arena := rfl
  exact ⟨hcreate, renewable_after hcreate turns, by decide +kernel, by decide +kernel,
    by decide +kernel, by decide +kernel⟩

end Session

end LogRelay.Arena
