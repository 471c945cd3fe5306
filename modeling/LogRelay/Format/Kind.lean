/-!
# Storage classes of arguments

Every conversion of a format takes its argument from one storage class.  The
class fixes the size the argument has after the default promotions, the size it
takes when it is recorded, and the tag byte that announces it in a record.
Sizes are those of a machine with 32-bit `int` and 64-bit `long` and pointers.
-/

namespace LogRelay.Format

/-- The storage class of one argument after default promotion. -/
inductive Kind where
  | int
  | long
  | longLong
  | size
  | ptrDiff
  | intMax
  | double
  | str
  | pointer
  deriving Repr, DecidableEq

namespace Kind

def tagSize : Nat := 1

def promotedSize : Kind → Nat
  | int => 4
  | _ => 8

/-- The bytes a recorded value takes after its tag: the promoted size, but for a
string its address and its length. -/
def storedSize : Kind → Nat
  | str => 16
  | kind => kind.promotedSize

def recordSize (kind : Kind) : Nat :=
  tagSize + kind.storedSize

/-- The byte that announces a record of this class. -/
def tag : Kind → UInt8
  | int => 1
  | long => 2
  | longLong => 3
  | size => 4
  | ptrDiff => 5
  | intMax => 6
  | double => 7
  | str => 8
  | pointer => 9

def ofTag? : UInt8 → Option Kind
  | 1 => some int
  | 2 => some long
  | 3 => some longLong
  | 4 => some size
  | 5 => some ptrDiff
  | 6 => some intMax
  | 7 => some double
  | 8 => some str
  | 9 => some pointer
  | _ => none

def isInteger : Kind → Bool
  | int | long | longLong | size | ptrDiff | intMax => true
  | double | str | pointer => false

def name : Kind → String
  | int => "Int"
  | long => "Long"
  | longLong => "LongLong"
  | size => "Size"
  | ptrDiff => "PtrDiff"
  | intMax => "IntMax"
  | double => "Double"
  | str => "Str"
  | pointer => "Pointer"

/-- All classes in the order of their tags. -/
def all : List Kind :=
  [int, long, longLong, size, ptrDiff, intMax, double, str, pointer]

def ofName? (text : String) : Option Kind :=
  all.find? (·.name = text)

@[simp]
theorem ofTag?_tag (kind : Kind) : ofTag? kind.tag = some kind := by
  cases kind <;> rfl

theorem tag_of_ofTag? {byte : UInt8} {kind : Kind} (heq : ofTag? byte = some kind) :
    byte = kind.tag := by
  unfold ofTag? at heq
  split at heq
  case h_10 => exact absurd heq (by simp)
  all_goals
    obtain rfl := Option.some.inj heq
    rfl

end Kind

end LogRelay.Format
