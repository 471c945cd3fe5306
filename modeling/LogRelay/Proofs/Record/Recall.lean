import LogRelay.Proofs.Record.Faults
import LogRelay.Proofs.Record.Reading

/-!
# What a capture brings back

A reader of captured bytes finds one record for each conversion of the format, in the order
of the conversions, and after the last of them nothing is left.  The record of a conversion
is of its class, with what the class keeps of the argument: of a number as much as fits,
and of everything else all of it.
-/

namespace LogRelay

open Format (Kind)

/-- The number that an argument is to an integer conversion. -/
def Argument.number? : Argument → Option Int
  | int value => some value.toInt
  | uint value => some value.toNat
  | bool value => some value.toInt
  | char value => some value.toNat
  | float _ | str _ | ptr _ => none

namespace Record

/-- What a conversion of a class keeps of an argument. -/
inductive Receives : Kind → Argument → Value → Prop
  | int {argument : Argument} {number : Int} {bits : UInt64}
      (hnumber : argument.number? = some number) (hbits : (bits.toNat : Int) = number % 2 ^ 32) :
      Receives .int argument (.int bits)
  | wide {kind : Kind} {argument : Argument} {number : Int} {bits : UInt64}
      (hinteger : kind.isInteger) (hwide : kind ≠ .int)
      (hnumber : argument.number? = some number) (hbits : (bits.toNat : Int) = number % 2 ^ 64) :
      Receives kind argument (.int bits)
  | double (number : Binary64) : Receives .double (.float number) (.double number)
  | str (static : StaticText) : Receives .str (.str static) (.str static)
  | address (address : UInt64) : Receives .pointer (.ptr address) (.pointer address)
  | addressOfText (static : StaticText) :
      Receives .pointer (.str static) (.pointer static.address)

variable {kind : Kind} {argument : Argument} {value : Value} {bits : UInt64}

/-! ## Numbers -/

theorem toNat_toUInt64 (value : Int64) : (value.toUInt64.toNat : Int) = value.toInt % 2 ^ 64 := by
  have hsigned : value.toInt = (value.toUInt64.toNat : Int).bmod (2 ^ 64) := by
    rw [← Int64.toNat_toBitVec, ← BitVec.toInt_eq_toNat_bmod, Int64.toInt_toBitVec]
  have hlt := value.toUInt64.toNat_lt
  rw [hsigned, Int.bmod_def]
  omega

/-- The bits of an argument are those of its number. -/
theorem integerBits?_eq_some_iff :
    argument.integerBits? = some bits ↔
      ∃ number, argument.number? = some number ∧ (bits.toNat : Int) = number % 2 ^ 64 := by
  have hword {found : UInt64} {number : Int} (hfound : (found.toNat : Int) = number % 2 ^ 64) :
      some found = some bits ↔
        ∃ other, some number = some other ∧ (bits.toNat : Int) = other % 2 ^ 64 := by
    simp only [Option.some.injEq, exists_eq_left', ← hfound, Int.natCast_inj, UInt64.toNat_inj]
    exact eq_comm
  cases argument with
  | int value => exact hword (toNat_toUInt64 value)
  | uint value =>
    have hlt := value.toNat_lt
    exact hword (by omega)
  | bool value => exact hword (by cases value <;> rfl)
  | char value =>
    have hlt : value.toNat < 2 ^ 32 := value.val.toNat_lt
    have hbits : (UInt64.ofNat value.toNat).toNat = value.toNat :=
      UInt64.toNat_ofNat_of_lt' (Nat.lt_trans hlt (by decide))
    exact hword (by omega)
  | float | str | ptr => simp [Argument.integerBits?, Argument.number?]

theorem toNat_lowBytes (bits : UInt64) (width : Nat) :
    (lowBytes bits width).toNat = bits.toNat % 2 ^ (8 * width) := by
  have hlt : bits.toNat % 2 ^ (8 * width) < UInt64.size :=
    Nat.lt_of_le_of_lt (Nat.mod_le _ _) bits.toNat_lt
  exact UInt64.toNat_ofNat_of_lt' hlt

/-- An integer conversion keeps the low bytes of the number. -/
theorem coerce?_integer_iff (hinteger : kind.isInteger) :
    argument.coerce? kind = some value ↔
      ∃ number bits, argument.number? = some number ∧ value = .int bits ∧
        (bits.toNat : Int) = number % 2 ^ (8 * kind.promotedSize) := by
  have hlow (found : UInt64) {number : Int} (hfound : (found.toNat : Int) = number % 2 ^ 64) :
      ((lowBytes found kind.promotedSize).toNat : Int) = number % 2 ^ (8 * kind.promotedSize) := by
    have hdvd : (2 : Int) ^ (8 * kind.promotedSize) ∣ 2 ^ 64 := by cases kind <;> decide
    rw [toNat_lowBytes, ← Int.emod_emod_of_dvd number hdvd, ← hfound]
    norm_cast
  have hcoerce : argument.coerce? kind =
      argument.integerBits?.map fun bits => .int (lowBytes bits kind.promotedSize) :=
    if_pos hinteger
  rw [hcoerce, Option.map_eq_some_iff]
  constructor
  · rintro ⟨found, hfound, rfl⟩
    obtain ⟨number, hnumber, hbits⟩ := integerBits?_eq_some_iff.mp hfound
    exact ⟨number, _, hnumber, rfl, hlow found hbits⟩
  · rintro ⟨number, bits, hnumber, rfl, hbits⟩
    -- Any word with these low bytes would do; the argument has the one of its whole number.
    let found := UInt64.ofNat (number % 2 ^ 64).toNat
    have hfound : (found.toNat : Int) = number % 2 ^ 64 := by
      rw [UInt64.toNat_ofNat_of_lt' (by rw [UInt64.size]; omega)]
      omega
    refine ⟨found, integerBits?_eq_some_iff.mpr ⟨number, hnumber, hfound⟩, ?_⟩
    have heq := (hlow found hfound).trans hbits.symm
    rw [UInt64.toNat_inj.mp (Int.natCast_inj.mp heq)]

/-- An argument feeds a conversion with what the class of the conversion keeps of it, and
with nothing else. -/
theorem coerce?_eq_some_iff :
    argument.coerce? kind = some value ↔ Receives kind argument value := by
  have hsize (hinteger : kind.isInteger) (hkind : kind ≠ .int) : 8 * kind.promotedSize = 64 := by
    cases kind <;> first | rfl | contradiction
  constructor
  · intro hcoerce
    by_cases hinteger : kind.isInteger
    · obtain ⟨number, bits, hnumber, rfl, hbits⟩ := (coerce?_integer_iff hinteger).mp hcoerce
      by_cases hkind : kind = .int
      · subst hkind
        exact .int hnumber hbits
      · rw [hsize hinteger hkind] at hbits
        exact .wide hinteger hkind hnumber hbits
    · simp only [Argument.coerce?] at hcoerce
      split at hcoerce
      · contradiction
      · split at hcoerce
        · cases hcoerce
          exact .double _
        · cases hcoerce
          exact .str _
        · cases hcoerce
          exact .address _
        · cases hcoerce
          exact .addressOfText _
        · exact absurd hcoerce (by simp)
  · intro hreceives
    cases hreceives with
    | int hnumber hbits => exact (coerce?_integer_iff rfl).mpr ⟨_, _, hnumber, rfl, hbits⟩
    | wide hinteger hkind hnumber hbits =>
      rw [← hsize hinteger hkind] at hbits
      exact (coerce?_integer_iff hinteger).mpr ⟨_, _, hnumber, rfl, hbits⟩
    | double | str | address | addressOfText => rfl

/-! ## Captured bytes -/

variable {texts : StaticTexts} {kinds : List Kind} {arguments : List Argument}
  {records : List (Kind × Value)} {format : String} {memory after : Memory}
  {offset available size : Nat}

theorem Feeds.length_records (hfeeds : Feeds kinds arguments records) :
    records.length = kinds.length := by
  induction hfeeds with
  | nil => rfl
  | cons _ _ ih => rw [List.length_cons, List.length_cons, ih]

theorem Feeds.getElem? (hfeeds : Feeds kinds arguments records) {index : Nat}
    (hkind : kinds[index]? = some kind) :
    ∃ argument value, arguments[index]? = some argument ∧
      records[index]? = some (kind, value) ∧ argument.coerce? kind = some value := by
  induction hfeeds generalizing index with
  | nil => exact absurd hkind (by simp)
  | cons value_eq _ ih =>
    cases index with
    | zero =>
      obtain rfl := Option.some.inj hkind
      exact ⟨_, _, rfl, rfl, value_eq⟩
    | succ index => exact ih hkind

theorem Feeds.tail (hfeeds : Feeds kinds arguments records) :
    Feeds kinds.tail arguments.tail records.tail := by
  cases hfeeds with
  | nil => exact .nil
  | cons _ rest => exact rest

/-- The records of arguments are read to the last, whatever their sizes. -/
theorem Feeds.reads (hfeeds : Feeds kinds arguments records)
    (hstatic : ∀ argument ∈ arguments, argument.IsStatic texts) :
    Reads texts (encodeAll records) records [] := by
  induction hfeeds with
  | nil => exact .nil
  | cons value_eq _ ih =>
    obtain ⟨hfirst, hothers⟩ := List.forall_mem_cons.mp hstatic
    rw [encodeAll_cons]
    exact .cons (takeRecord_encode (recordable_of_coerce? hfirst value_eq) _) (ih hothers)

/-- What a reader of the captured bytes of a format is given. -/
structure Recalls (texts : StaticTexts) (format : String) (arguments : List Argument)
    (bytes : List UInt8) (records : List (Kind × Value)) : Prop where
  /-- Call after call, with nothing left at the end. -/
  reads : Reads texts bytes records []
  iterated : takeRecords texts bytes = records
  length_eq : records.length = (Format.conversions format).length
  record_eq : ∀ (index : Nat) (spec : Format.Spec),
    (Format.conversions format)[index]? = some spec →
    ∃ argument value, arguments[index]? = some argument ∧
      records[index]? = some (spec.kind, value) ∧
      argument.coerce? spec.kind = some value ∧ Receives spec.kind argument value

/-- The bytes of every capture that succeeds bring back the arguments, as their conversions
take them. -/
theorem exists_recalls_of_captureInto
    (hstatic : ∀ argument ∈ arguments, argument.IsStatic texts)
    (hcapture : captureInto memory offset available format arguments = (after, .ok size)) :
    ∃ records, Recalls texts format arguments (after.read offset size) records := by
  have hcaptured := captured_captureInto memory offset available format arguments
  rw [hcapture] at hcaptured
  obtain ⟨records, hfeeds, rfl, rfl⟩ : ∃ records, Feeds (asked format) arguments records ∧
      after = memory.write offset (encodeAll records) ∧ size = (encodeAll records).length := by
    cases hcaptured with
    | whole _ _ _ hfeeds =>
      exact ⟨_, hfeeds, rfl, by rw [length_encodeAll hfeeds, encodedBytes_eq]⟩
  rw [Memory.read_write_self]
  refine ⟨records, hfeeds.reads hstatic, takeRecords_encodeAll hfeeds hstatic, ?_, ?_⟩
  · rw [hfeeds.length_records, asked, List.length_map]
  · intro index spec hspec
    have hkind : (asked format)[index]? = some spec.kind := by
      rw [asked, List.getElem?_map, hspec, Option.map_some]
    obtain ⟨argument, value, hargument, hrecord, hcoerce⟩ := hfeeds.getElem? hkind
    exact ⟨argument, value, hargument, hrecord, hcoerce, coerce?_eq_some_iff.mp hcoerce⟩

/-- Values of four sizes, captured behind other bytes: of a negative number that is cut to
32 bits, of the payload of a NaN, of a text and of where it stands. -/
theorem exists_recalls_of_captureInto_mixed :
    let texts : StaticTexts := [⟨4096, "disk"⟩]
    let arguments : List Argument :=
      [.int (-1), .float ⟨0x7ff8000000000abc⟩, .str ⟨4096, "disk"⟩, .char 'x', .str ⟨4096, "disk"⟩]
    let captured := captureInto {} 3 64 "%hhd %f %s %lu %p" arguments
    (∀ argument ∈ arguments, argument.IsStatic texts) ∧ captured = (captured.1, .ok 49) ∧
      ∃ records, Recalls texts "%hhd %f %s %lu %p" arguments (captured.1.read 3 49) records ∧
        records = [(.int, .int 4294967295), (.double, .double ⟨0x7ff8000000000abc⟩),
          (.str, .str ⟨4096, "disk"⟩), (.long, .int 120), (.pointer, .pointer 4096)] := by
  intro texts arguments captured
  have hstatic : ∀ argument ∈ arguments, argument.IsStatic texts := by
    simp [arguments, texts, Argument.IsStatic, StaticTexts.find?]
  have hcapture : captured = (captured.1, .ok 49) := by decide +kernel
  obtain ⟨records, hrecalls⟩ := exists_recalls_of_captureInto hstatic hcapture
  have hread : takeRecords texts (captured.1.read 3 49) =
      [(.int, .int 4294967295), (.double, .double ⟨0x7ff8000000000abc⟩),
        (.str, .str ⟨4096, "disk"⟩), (.long, .int 120), (.pointer, .pointer 4096)] := by
    decide +kernel
  exact ⟨hstatic, hcapture, records, hrecalls, hrecalls.iterated.symm.trans hread⟩

end Record

end LogRelay
