/-!
# Little-endian words

Numbers are stored as a fixed count of bytes, the lowest first.
-/

namespace LogRelay.Record

/-- The lowest `count` bytes of a number, the lowest first. -/
def littleEndian : Nat → Nat → List UInt8
  | 0, _ => []
  | count + 1, number => UInt8.ofNat number :: littleEndian count (number / 256)

def ofLittleEndian : List UInt8 → Nat
  | [] => 0
  | byte :: rest => byte.toNat + 256 * ofLittleEndian rest

def word (number : UInt64) : List UInt8 :=
  littleEndian 8 number.toNat

/-- The number in the first `count` bytes and what follows them, if there are that
many. -/
def takeNumber? (count : Nat) (bytes : List UInt8) : Option (Nat × List UInt8) :=
  if count ≤ bytes.length then some (ofLittleEndian (bytes.take count), bytes.drop count)
  else none

/-- The word at the start of some bytes and what follows it. -/
def takeWord? (bytes : List UInt8) : Option (UInt64 × List UInt8) :=
  (takeNumber? 8 bytes).map fun (number, rest) => (UInt64.ofNat number, rest)

@[simp]
theorem length_littleEndian (count number : Nat) :
    (littleEndian count number).length = count := by
  induction count generalizing number with
  | zero => rfl
  | succ count ih => simp [littleEndian, ih]

@[simp]
theorem length_word (number : UInt64) : (word number).length = 8 :=
  length_littleEndian 8 number.toNat

theorem length_of_takeNumber?_eq_some {count number : Nat} {bytes rest : List UInt8}
    (heq : takeNumber? count bytes = some (number, rest)) :
    bytes.length = count + rest.length := by
  simp only [takeNumber?] at heq
  split at heq
  · next hcount =>
    obtain ⟨-, rfl⟩ := Prod.mk.inj (Option.some.inj heq)
    rw [List.length_drop]
    omega
  · exact absurd heq (by simp)

end LogRelay.Record
