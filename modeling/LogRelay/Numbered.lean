/-!
# Numbered things

Things are numbered from zero in the order they were obtained.  Whoever gives one
away uses its number up, and a number is never given twice.
-/

namespace LogRelay

/-- What was obtained so far; a gap stands for what was given away. -/
structure Numbered (α : Type) where
  entries : List (Option α) := []
  deriving Repr, DecidableEq

namespace Numbered

variable {α : Type}

/-- Keeps a thing under the next number. -/
def add (held : Numbered α) (thing : α) : Nat × Numbered α :=
  (held.entries.length, ⟨held.entries ++ [some thing]⟩)

def get? (held : Numbered α) (number : Nat) : Option α :=
  held.entries[number]?.join

/-- Gives away what is kept under a number. -/
def remove (held : Numbered α) (number : Nat) : Numbered α :=
  ⟨held.entries.set number none⟩

/-- What is still kept, in the order of the numbers. -/
def toList (held : Numbered α) : List α :=
  held.entries.filterMap id

theorem get?_add_self (held : Numbered α) (thing : α) :
    (held.add thing).2.get? (held.add thing).1 = some thing := by
  simp [add, get?]

theorem get?_add_of_ne (held : Numbered α) (thing : α) (number : Nat)
    (h : number ≠ (held.add thing).1) :
    (held.add thing).2.get? number = held.get? number := by
  simp only [add] at h
  simp only [add, get?, List.getElem?_append]
  split
  · rfl
  · rw [List.getElem?_eq_none (by simp; omega), List.getElem?_eq_none (by omega)]

theorem get?_remove (held : Numbered α) (number other : Nat) :
    (held.remove number).get? other = if other = number then none else held.get? other := by
  rw [get?, remove, List.getElem?_set]
  by_cases h : number = other
  · rw [if_pos h, if_pos h.symm]
    split <;> rfl
  · rw [if_neg h, if_neg (Ne.symm h)]
    rfl

theorem get?_remove_eq_some_iff {held : Numbered α} {number other : Nat} {thing : α} :
    (held.remove number).get? other = some thing ↔
      other ≠ number ∧ held.get? other = some thing := by
  rw [get?_remove]
  split
  · next heq => simp [heq]
  · next hne => simp [hne]

theorem lt_length_of_get?_eq_some {held : Numbered α} {number : Nat} {thing : α}
    (heq : held.get? number = some thing) : number < held.entries.length := by
  obtain ⟨hbound, -⟩ := List.getElem?_eq_some_iff.mp (Option.join_eq_some_iff.mp heq)
  exact hbound

@[simp]
theorem toList_add (held : Numbered α) (thing : α) :
    (held.add thing).2.toList = held.toList ++ [thing] := by
  simp [add, toList]

theorem entries_of_get?_eq_some {held : Numbered α} {number : Nat} {thing : α}
    (heq : held.get? number = some thing) :
    ∃ before behind, held.entries = before ++ some thing :: behind ∧ before.length = number := by
  have hentry : held.entries[number]? = some (some thing) := Option.join_eq_some_iff.mp heq
  obtain ⟨hbound, hvalue⟩ := List.getElem?_eq_some_iff.mp hentry
  refine ⟨held.entries.take number, held.entries.drop (number + 1), ?_, by simp; omega⟩
  rw [← hvalue, List.getElem_cons_drop, List.take_append_drop]

/-- Giving a thing away leaves all the others. -/
theorem toList_perm_of_get?_eq_some {held : Numbered α} {number : Nat} {thing : α}
    (heq : held.get? number = some thing) :
    held.toList.Perm (thing :: (held.remove number).toList) := by
  obtain ⟨before, behind, hentries, rfl⟩ := entries_of_get?_eq_some heq
  simp [toList, remove, hentries]

theorem mem_toList_of_get?_eq_some {held : Numbered α} {number : Nat} {thing : α}
    (heq : held.get? number = some thing) : thing ∈ held.toList :=
  (toList_perm_of_get?_eq_some heq).mem_iff.mpr List.mem_cons_self

end Numbered

end LogRelay
