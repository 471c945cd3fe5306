import LogRelay.Argument
import LogRelay.Record.Word

/-!
# Records of values

A record is a tag byte followed by the value, little-endian and unaligned: an
integer at its promoted width, a double's bits, an address, or for a string its
address and its length.  Strings are static, so the record of one stays readable
for as long as the program runs.
-/

namespace LogRelay.Record

open Format (Kind)

/-- The bytes that follow the tag of a record. -/
def valueBytes (kind : Kind) : Value → List UInt8
  | .int bits => littleEndian kind.promotedSize bits.toNat
  | .double value => word value.bits
  | .str value => word value.address ++ word value.size
  | .pointer address => word address

def encode (kind : Kind) (value : Value) : List UInt8 :=
  kind.tag :: valueBytes kind value

/-- What reading one value takes from some bytes: the value, if there is one, and
the bytes it leaves. -/
abbrev Taken (α : Type) := Option α × List UInt8

/-- Reads a value of the class `kind`.  A value that is cut short leaves all bytes,
but for a string whose address is complete, which is not given back. -/
def takeValue (texts : StaticTexts) (kind : Kind) (bytes : List UInt8) : Taken Value :=
  match kind with
  | .double =>
    match takeWord? bytes with
    | some (bits, rest) => (some (.double ⟨bits⟩), rest)
    | none => (none, bytes)
  | .pointer =>
    match takeWord? bytes with
    | some (address, rest) => (some (.pointer address), rest)
    | none => (none, bytes)
  | .str =>
    match takeWord? bytes with
    | none => (none, bytes)
    | some (address, afterAddress) =>
      match takeWord? afterAddress with
      | none => (none, afterAddress)
      | some (size, rest) => ((texts.find? address size).map .str, rest)
  | integer =>
    match takeNumber? integer.promotedSize bytes with
    | some (bits, rest) => (some (.int (UInt64.ofNat bits)), rest)
    | none => (none, bytes)

/-- Reads the next record.  An unknown tag is consumed alone. -/
def takeRecord (texts : StaticTexts) : List UInt8 → Taken (Kind × Value)
  | [] => (none, [])
  | tag :: rest =>
    match Kind.ofTag? tag with
    | none => (none, rest)
    | some kind =>
      let (value, remaining) := takeValue texts kind rest
      (value.map (kind, ·), remaining)

/-- Reading a value never gives back more bytes than it was given. -/
theorem length_takeValue_le (texts : StaticTexts) (kind : Kind) (bytes : List UInt8) :
    (takeValue texts kind bytes).2.length ≤ bytes.length := by
  have hword : ∀ {given rest : List UInt8} {number : UInt64},
      takeWord? given = some (number, rest) → given.length = 8 + rest.length := by
    intro given rest number heq
    obtain ⟨⟨value, after⟩, htaken, hpair⟩ := Option.map_eq_some_iff.mp heq
    obtain ⟨-, rfl⟩ := Prod.mk.inj hpair
    exact length_of_takeNumber?_eq_some htaken
  unfold takeValue
  split
  · split
    · next heq => have := hword heq; simp only; omega
    · exact Nat.le_refl _
  · split
    · next heq => have := hword heq; simp only; omega
    · exact Nat.le_refl _
  · split
    · exact Nat.le_refl _
    · next heq =>
      have := hword heq
      split
      · simp only; omega
      · next hsize => have := hword hsize; simp only; omega
  · split
    · next heq => have := length_of_takeNumber?_eq_some heq; simp only; omega
    · exact Nat.le_refl _

/-- Reading a record takes at least its tag. -/
theorem length_takeRecord_lt (texts : StaticTexts) (tag : UInt8) (rest : List UInt8) :
    (takeRecord texts (tag :: rest)).2.length < (tag :: rest).length := by
  simp only [takeRecord]
  split
  · simp
  · next kind _ =>
    have := length_takeValue_le texts kind rest
    simp only [List.length_cons]
    omega

/-- The records at the start of some bytes, up to the first that cannot be read. -/
def takeRecords (texts : StaticTexts) : List UInt8 → List (Kind × Value)
  | [] => []
  | tag :: rest =>
    have := length_takeRecord_lt texts tag rest
    let taken := takeRecord texts (tag :: rest)
    match taken.1 with
    | some record => record :: takeRecords texts taken.2
    | none => []
termination_by bytes => bytes.length
decreasing_by exact this

end LogRelay.Record
