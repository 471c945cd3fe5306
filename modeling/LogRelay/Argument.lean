import LogRelay.Binary64
import LogRelay.Format.Spec

/-!
# Arguments and the values they become

A call site supplies arguments of its own types; a conversion asks for a value of
its storage class.  Coercion promotes the one to the other the way a variadic
call would, or finds that the argument cannot feed the conversion.
-/

namespace LogRelay

open Format (Kind)

/-- A text that lives as long as the program, at a fixed address. -/
structure StaticText where
  address : UInt64
  text : String
  deriving Repr, DecidableEq

def StaticText.size (static : StaticText) : UInt64 :=
  UInt64.ofNat static.text.utf8ByteSize

abbrev StaticTexts := List StaticText

/-- The static text at an address with a length in bytes, if there is one. -/
def StaticTexts.find? (texts : StaticTexts) (address size : UInt64) : Option StaticText :=
  List.find? (fun static => static.address = address ∧ static.size = size) texts

/-- What a call site supplies in place of one variadic argument. -/
inductive Argument where
  | int (value : Int64)
  | uint (value : UInt64)
  | float (value : Binary64)
  | bool (value : Bool)
  | char (value : Char)
  | str (value : StaticText)
  | ptr (address : UInt64)
  deriving Repr, DecidableEq

/-- What mismatch reports call an argument's type. -/
def Argument.typeName : Argument → String
  | int _ => "signed integer"
  | uint _ => "unsigned integer"
  | float _ => "float"
  | bool _ => "bool"
  | char _ => "char"
  | str _ => "string"
  | ptr _ => "pointer"

/-- The 64 bits of an integer, boolean or character argument. -/
def Argument.integerBits? : Argument → Option UInt64
  | int value => some value.toUInt64
  | uint value => some value
  | bool value => some (if value then 1 else 0)
  | char value => some (UInt64.ofNat value.toNat)
  | float _ | str _ | ptr _ => none

/-- A value ready for rendering. -/
inductive Value where
  /-- The bits of an integer, zero-extended from its promoted width. -/
  | int (bits : UInt64)
  | double (value : Binary64)
  | str (value : StaticText)
  | pointer (address : UInt64)
  deriving Repr, DecidableEq

def lowBytes (bits : UInt64) (width : Nat) : UInt64 :=
  UInt64.ofNat (bits.toNat % Nat.pow 2 (8 * width))

/-- The value that an argument gives a conversion of the class `kind`, if it can
feed one.  A string also serves as the address of its text. -/
def Argument.coerce? (kind : Kind) (argument : Argument) : Option Value :=
  if kind.isInteger then
    argument.integerBits?.map fun bits => .int (lowBytes bits kind.promotedSize)
  else
    match kind, argument with
    | .double, float value => some (.double value)
    | .str, str value => some (.str value)
    | .pointer, ptr address => some (.pointer address)
    | .pointer, str value => some (.pointer value.address)
    | _, _ => none

/-- The address of something, as a program logs it. -/
structure Address where
  value : UInt64
  deriving Repr, DecidableEq

class Loggable (α : Type) where
  toArgument : α → Argument

instance : Loggable Int8 := ⟨fun value => .int value.toInt64⟩
instance : Loggable Int16 := ⟨fun value => .int value.toInt64⟩
instance : Loggable Int32 := ⟨fun value => .int value.toInt64⟩
instance : Loggable Int64 := ⟨.int⟩
instance : Loggable UInt8 := ⟨fun value => .uint value.toUInt64⟩
instance : Loggable UInt16 := ⟨fun value => .uint value.toUInt64⟩
instance : Loggable UInt32 := ⟨fun value => .uint value.toUInt64⟩
instance : Loggable UInt64 := ⟨.uint⟩
instance : Loggable Binary32 := ⟨fun value => .float value.widen⟩
instance : Loggable Binary64 := ⟨.float⟩
instance : Loggable Bool := ⟨.bool⟩
instance : Loggable Char := ⟨.char⟩
instance : Loggable StaticText := ⟨.str⟩
instance : Loggable Address := ⟨fun address => .ptr address.value⟩

end LogRelay
