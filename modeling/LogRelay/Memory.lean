/-!
# Zeroed byte memory

Memory starts as zeros and keeps what was last written to each place.  Only an
initial stretch is stored; every byte past it is still zero, so memory of any
size costs no more than what was written into it.
-/

namespace LogRelay

/-- Bytes by position: the stored ones first, zeros from there on. -/
structure Memory where
  cells : List UInt8 := []
  deriving Repr, DecidableEq

namespace Memory

def byteAt (memory : Memory) (position : Nat) : UInt8 :=
  memory.cells.getD position 0

def read (memory : Memory) (offset length : Nat) : List UInt8 :=
  ((memory.cells.drop offset).take length).rightpad length 0

/-- Puts `bytes` at `offset` and leaves every other byte alone. -/
def write (memory : Memory) (offset : Nat) (bytes : List UInt8) : Memory :=
  ⟨(memory.cells.take offset).rightpad offset 0 ++ bytes ++
    memory.cells.drop (offset + bytes.length)⟩

@[simp]
theorem length_read (memory : Memory) (offset length : Nat) :
    (memory.read offset length).length = length := by
  rw [read, List.rightpad, List.length_append, List.length_replicate, List.length_take,
    List.length_drop]
  omega

theorem getElem_read (memory : Memory) (offset length index : Nat)
    (h : index < (memory.read offset length).length) :
    (memory.read offset length)[index] = memory.byteAt (offset + index) := by
  simp only [length_read] at h
  simp only [read, List.rightpad, byteAt, List.getElem_append, List.length_take,
    List.length_drop, List.getElem_take, List.getElem_drop, List.getElem_replicate,
    List.getD_eq_getElem?_getD]
  split
  · rw [List.getElem?_eq_getElem (by omega), Option.getD_some]
  · rw [List.getElem?_eq_none (by omega), Option.getD_none]

/-- What is read depends on the bytes at the positions read, and on no others. -/
theorem read_congr {left right : Memory} {offset length : Nat}
    (h : ∀ index < length, left.byteAt (offset + index) = right.byteAt (offset + index)) :
    left.read offset length = right.read offset length := by
  apply List.ext_getElem
  · simp
  · intro index hleft hright
    simp only [length_read] at hleft
    rw [getElem_read, getElem_read, h index hleft]

theorem read_add (memory : Memory) (offset first second : Nat) :
    memory.read offset (first + second) =
      memory.read offset first ++ memory.read (offset + first) second := by
  apply List.ext_getElem
  · simp
  · intro index hleft hright
    rw [getElem_read, List.getElem_append]
    split
    · rw [getElem_read]
    · next hbehind =>
      rw [length_read] at hbehind
      rw [getElem_read, length_read, Nat.add_assoc, Nat.add_sub_cancel' (Nat.le_of_not_lt hbehind)]

/-- A write changes the bytes it covers and no others. -/
theorem byteAt_write (memory : Memory) (offset : Nat) (bytes : List UInt8) (position : Nat) :
    (memory.write offset bytes).byteAt position =
      if offset ≤ position ∧ position < offset + bytes.length then
        bytes.getD (position - offset) 0
      else memory.byteAt position := by
  have hlength : ((memory.cells.take offset).rightpad offset 0).length = offset := by
    rw [List.rightpad, List.length_append, List.length_replicate, List.length_take]
    omega
  simp only [write, byteAt, List.getD_eq_getElem?_getD, List.append_assoc]
  by_cases hbefore : position < offset
  · rw [if_neg (by omega), List.getElem?_append_left (by omega), List.rightpad,
      List.getElem?_append, List.length_take, List.getElem?_replicate, List.getElem?_take]
    by_cases hstored : position < memory.cells.length
    · rw [if_pos (by omega), if_pos hbefore]
    · rw [if_neg (by omega), List.getElem?_eq_none (by omega)]
      split <;> rfl
  · rw [List.getElem?_append_right (by omega), hlength]
    by_cases hinside : position < offset + bytes.length
    · rw [if_pos (by omega), List.getElem?_append_left (by omega)]
    · rw [if_neg (by omega), List.getElem?_append_right (by omega), List.getElem?_drop]
      congr 2
      omega

theorem read_write_self (memory : Memory) (offset : Nat) (bytes : List UInt8) :
    (memory.write offset bytes).read offset bytes.length = bytes := by
  apply List.ext_getElem
  · simp
  · intro index hread hbytes
    rw [getElem_read, byteAt_write, if_pos ⟨Nat.le_add_right _ _, by omega⟩]
    simp [hbytes]

theorem read_write_of_disjoint (memory : Memory) (offset : Nat) (bytes : List UInt8)
    (start length : Nat) (h : start + length ≤ offset ∨ offset + bytes.length ≤ start) :
    (memory.write offset bytes).read start length = memory.read start length := by
  apply read_congr
  intro index hindex
  rw [byteAt_write, if_neg (by omega)]

end Memory

end LogRelay
