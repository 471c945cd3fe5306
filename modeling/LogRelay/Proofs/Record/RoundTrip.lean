import LogRelay.Record.Capture
import Mathlib.Algebra.Order.Ring.Nat

/-!
# Records read back

A value that a conversion of its class can be fed leaves a record from which the same
value is read again, whatever bytes follow.  Arguments that are captured without a
fault are therefore on record as the very values they were promoted to.
-/

namespace LogRelay

open Format (Kind)

/-- A text argument is one of the program's static texts, so its address and its size
find it again. -/
def Argument.IsStatic (texts : StaticTexts) : Argument → Prop
  | .str static => texts.find? static.address static.size = some static
  | _ => True

namespace Record

/-! ## Words -/

theorem ofLittleEndian_littleEndian (count number : Nat) :
    ofLittleEndian (littleEndian count number) = number % 256 ^ count := by
  induction count generalizing number with
  | zero => rw [Nat.pow_zero, Nat.mod_one, littleEndian, ofLittleEndian]
  | succ count ih =>
    calc
      ofLittleEndian (littleEndian (count + 1) number) =
          number % 256 + 256 * (number / 256 % 256 ^ count) := by
        rw [littleEndian, ofLittleEndian, ih, UInt8.toNat_ofNat']
      _ = number % (256 * 256 ^ count) := Nat.mod_mul.symm
      _ = number % 256 ^ (count + 1) := by rw [Nat.pow_succ']

theorem takeNumber?_littleEndian (count number : Nat) (rest : List UInt8) :
    takeNumber? count (littleEndian count number ++ rest) = some (number % 256 ^ count, rest) := by
  have htake : (littleEndian count number ++ rest).take count = littleEndian count number :=
    List.take_left' (length_littleEndian count number)
  have hdrop : (littleEndian count number ++ rest).drop count = rest :=
    List.drop_left' (length_littleEndian count number)
  rw [takeNumber?, if_pos (by simp), htake, hdrop, ofLittleEndian_littleEndian]

theorem takeWord?_word (number : UInt64) (rest : List UInt8) :
    takeWord? (word number ++ rest) = some (number, rest) := by
  have hsmall : number.toNat % 256 ^ 8 = number.toNat := Nat.mod_eq_of_lt number.toNat_lt
  rw [takeWord?, word, takeNumber?_littleEndian, hsmall]
  simp

/-! ## Values -/

/-- The value is of the class and no larger than its record. -/
def Recordable (texts : StaticTexts) (kind : Kind) : Value → Prop
  | .int bits => kind.isInteger ∧ bits.toNat < 256 ^ kind.promotedSize
  | .double _ => kind = .double
  | .str static => kind = .str ∧ texts.find? static.address static.size = some static
  | .pointer _ => kind = .pointer

theorem recordable_of_coerce? {texts : StaticTexts} {kind : Kind} {argument : Argument}
    {value : Value} (hstatic : argument.IsStatic texts)
    (heq : argument.coerce? kind = some value) : Recordable texts kind value := by
  simp only [Argument.coerce?] at heq
  split at heq
  · next hinteger =>
    obtain ⟨bits, -, rfl⟩ := Option.map_eq_some_iff.mp heq
    refine ⟨hinteger, ?_⟩
    have hpow : Nat.pow 2 (8 * kind.promotedSize) = 256 ^ kind.promotedSize := pow_mul 2 8 _
    rw [lowBytes, hpow, UInt64.toNat_ofNat']
    exact Nat.lt_of_le_of_lt (Nat.mod_le _ _) (Nat.mod_lt _ (Nat.pow_pos (by decide)))
  · split at heq
    · cases heq
      rfl
    · cases heq
      exact ⟨rfl, hstatic⟩
    · cases heq
      rfl
    · cases heq
      rfl
    · exact absurd heq (by simp)

theorem takeValue_integer {texts : StaticTexts} {kind : Kind} (hinteger : kind.isInteger)
    (bytes : List UInt8) :
    takeValue texts kind bytes =
      match takeNumber? kind.promotedSize bytes with
      | some (bits, rest) => (some (.int (UInt64.ofNat bits)), rest)
      | none => (none, bytes) := by
  cases kind <;> first | rfl | exact absurd hinteger (by decide)

/-- A value is read back from its bytes, and nothing of what follows them is taken. -/
theorem takeValue_valueBytes {texts : StaticTexts} {kind : Kind} {value : Value}
    (hrecordable : Recordable texts kind value) (rest : List UInt8) :
    takeValue texts kind (valueBytes kind value ++ rest) = (some value, rest) := by
  cases value with
  | int bits =>
    obtain ⟨hinteger, hsize⟩ := hrecordable
    rw [takeValue_integer hinteger, valueBytes, takeNumber?_littleEndian, Nat.mod_eq_of_lt hsize]
    simp
  | double number =>
    cases hrecordable
    rw [valueBytes, takeValue, takeWord?_word]
  | str static =>
    obtain ⟨rfl, hfound⟩ := hrecordable
    simp only [valueBytes, takeValue, List.append_assoc, takeWord?_word, hfound, Option.map_some]
  | pointer address =>
    cases hrecordable
    rw [valueBytes, takeValue, takeWord?_word]

theorem takeRecord_encode {texts : StaticTexts} {kind : Kind} {value : Value}
    (hrecordable : Recordable texts kind value) (rest : List UInt8) :
    takeRecord texts (encode kind value ++ rest) = (some (kind, value), rest) := by
  rw [encode, List.cons_append, takeRecord, Kind.ofTag?_tag]
  simp only [takeValue_valueBytes hrecordable, Option.map_some]

theorem length_valueBytes {texts : StaticTexts} {kind : Kind} {value : Value}
    (hrecordable : Recordable texts kind value) :
    (valueBytes kind value).length = kind.storedSize := by
  cases value with
  | int bits =>
    obtain ⟨hinteger, -⟩ := hrecordable
    rw [valueBytes, length_littleEndian]
    cases kind <;> first | rfl | exact absurd hinteger (by decide)
  | double number =>
    cases hrecordable
    rfl
  | str static =>
    obtain ⟨rfl, -⟩ := hrecordable
    rfl
  | pointer address =>
    cases hrecordable
    rfl

theorem exists_recordable_of_coerce? {kind : Kind} {argument : Argument} {value : Value}
    (heq : argument.coerce? kind = some value) : ∃ texts, Recordable texts kind value := by
  obtain ⟨texts, hstatic⟩ : ∃ texts, argument.IsStatic texts := by
    cases argument with
    | str static => exact ⟨[static], by simp [Argument.IsStatic, StaticTexts.find?]⟩
    | _ => exact ⟨[], trivial⟩
  exact ⟨texts, recordable_of_coerce? hstatic heq⟩

/-- The record of an argument's value takes the space that its class alone decides. -/
theorem length_encode_of_coerce? {kind : Kind} {argument : Argument} {value : Value}
    (heq : argument.coerce? kind = some value) : (encode kind value).length = kind.recordSize := by
  obtain ⟨texts, hrecordable⟩ := exists_recordable_of_coerce? heq
  rw [encode, List.length_cons, length_valueBytes hrecordable, Kind.recordSize, Kind.tagSize,
    Nat.add_comm]

/-! ## Whole captures -/

/-- The arguments feed conversions of the given classes, one each, with these values. -/
inductive Feeds : List Kind → List Argument → List (Kind × Value) → Prop where
  | nil : Feeds [] [] []
  | cons {kind : Kind} {kinds : List Kind} {argument : Argument} {arguments : List Argument}
      {value : Value} {records : List (Kind × Value)}
      (value_eq : argument.coerce? kind = some value) (rest : Feeds kinds arguments records) :
      Feeds (kind :: kinds) (argument :: arguments) ((kind, value) :: records)

def encodeAll (records : List (Kind × Value)) : List UInt8 :=
  records.flatMap fun (kind, value) => encode kind value

variable {texts : StaticTexts} {kinds : List Kind} {arguments : List Argument}
  {records : List (Kind × Value)}

theorem encodeAll_cons (kind : Kind) (value : Value) (records : List (Kind × Value)) :
    encodeAll ((kind, value) :: records) = encode kind value ++ encodeAll records :=
  List.flatMap_cons

/-- Records of arguments are read one after the other, up to the last. -/
theorem takeRecords_encodeAll (hfeeds : Feeds kinds arguments records)
    (hstatic : ∀ argument ∈ arguments, argument.IsStatic texts) :
    takeRecords texts (encodeAll records) = records := by
  induction hfeeds with
  | nil => rw [encodeAll, List.flatMap_nil, takeRecords]
  | @cons _ _ _ _ _ records value_eq rest ih =>
    obtain ⟨hfirst, hothers⟩ := List.forall_mem_cons.mp hstatic
    have htaken := takeRecord_encode (recordable_of_coerce? hfirst value_eq) (encodeAll records)
    rw [encode, List.cons_append] at htaken
    rw [encodeAll_cons, encode, List.cons_append, takeRecords]
    simp only [htaken, ih hothers]

theorem length_encodeAll (hfeeds : Feeds kinds arguments records) :
    (encodeAll records).length = (kinds.map Kind.recordSize).sum := by
  induction hfeeds with
  | nil => rfl
  | cons value_eq rest ih =>
    rw [encodeAll_cons, List.length_append, length_encode_of_coerce? value_eq, ih, List.map_cons,
      List.sum_cons]

/-- Without a fault every argument feeds its conversion. -/
theorem feeds_of_transcribe {index : Nat} (hcount : arguments.length ≤ kinds.length)
    (hfault : (transcribe index kinds arguments).fault = none) :
    ∃ records, Feeds kinds arguments records ∧
      (transcribe index kinds arguments).bytes = encodeAll records := by
  induction kinds generalizing index arguments with
  | nil =>
    obtain rfl : arguments = [] := List.length_eq_zero_iff.mp (Nat.le_zero.mp hcount)
    exact ⟨[], Feeds.nil, rfl⟩
  | cons kind kinds ih =>
    cases arguments with
    | nil => exact absurd hfault (by simp [transcribe])
    | cons argument arguments =>
      rw [transcribe] at hfault ⊢
      cases hvalue : argument.coerce? kind with
      | none => exact absurd hfault (by simp [hvalue])
      | some value =>
        simp only [hvalue] at hfault ⊢
        obtain ⟨records, hfeeds, hbytes⟩ := ih (Nat.le_of_succ_le_succ hcount) hfault
        exact ⟨(kind, value) :: records, Feeds.cons hvalue hfeeds, by rw [encodeAll_cons, hbytes]⟩

/-- Up to its first fault a capture stays within the space for all records. -/
theorem length_transcribe_le (index : Nat) (kinds : List Kind) (arguments : List Argument) :
    (transcribe index kinds arguments).bytes.length ≤ (kinds.map Kind.recordSize).sum := by
  induction kinds generalizing index arguments with
  | nil => exact Nat.zero_le _
  | cons kind kinds ih =>
    cases arguments with
    | nil => exact Nat.zero_le _
    | cons argument arguments =>
      rw [transcribe]
      cases hvalue : argument.coerce? kind with
      | none => exact Nat.zero_le _
      | some value =>
        rw [List.length_append, length_encode_of_coerce? hvalue, List.map_cons, List.sum_cons]
        exact Nat.add_le_add_left (ih _ _) _

theorem foldl_layout (specs : List Format.Spec) (start : Format.Layout) :
    (specs.foldl (fun layout spec => layout.add spec.kind) start).count =
        start.count + specs.length ∧
      (specs.foldl (fun layout spec => layout.add spec.kind) start).encodedBytes =
        start.encodedBytes + ((specs.map Format.Spec.kind).map Kind.recordSize).sum := by
  induction specs generalizing start with
  | nil => exact ⟨rfl, rfl⟩
  | cons spec specs ih =>
    obtain ⟨hcount, hbytes⟩ := ih (start.add spec.kind)
    rw [List.foldl_cons, hcount, hbytes]
    simp only [Format.Layout.add, List.length_cons, List.map_cons, List.sum_cons]
    omega

theorem layout_count (format : String) :
    (Format.layout format).count = (Format.conversions format).length := by
  rw [Format.layout, (foldl_layout _ _).1, Nat.zero_add]

theorem layout_encodedBytes (format : String) :
    (Format.layout format).encodedBytes =
      (((Format.conversions format).map Format.Spec.kind).map Kind.recordSize).sum := by
  rw [Format.layout, (foldl_layout _ _).2, Nat.zero_add]

/-- A capture never writes beyond the space it is given. -/
theorem length_capture_le (format : String) (arguments : List Argument) (available : Nat) :
    (capture format arguments available).bytes.length ≤ available := by
  simp only [capture]
  split
  · exact Nat.zero_le _
  · split
    · exact Nat.zero_le _
    · next hroom =>
      have hbytes := length_transcribe_le 0 ((Format.conversions format).map Format.Spec.kind)
        arguments
      rw [← layout_encodedBytes] at hbytes
      exact Nat.le_trans hbytes (Nat.le_of_not_lt hroom)

/-- A capture without a fault holds one record for each conversion, made from the
argument at its place, and nothing else. -/
theorem feeds_of_capture {format : String} {available : Nat}
    (hfault : (capture format arguments available).fault = none) :
    ∃ records, Feeds ((Format.conversions format).map Format.Spec.kind) arguments records ∧
      (capture format arguments available).bytes = encodeAll records ∧
      (encodeAll records).length = (Format.layout format).encodedBytes := by
  simp only [capture] at hfault ⊢
  split at hfault
  · exact absurd hfault (by simp)
  · next hcount =>
    split at hfault
    · exact absurd hfault (by simp)
    · next hroom =>
      rw [if_neg hcount, if_neg hroom]
      have hlength : arguments.length ≤
        ((Format.conversions format).map Format.Spec.kind).length := by
        rw [List.length_map, ← layout_count]
        exact Nat.le_of_not_lt hcount
      obtain ⟨records, hfeeds, hbytes⟩ := feeds_of_transcribe hlength hfault
      exact ⟨records, hfeeds, hbytes, by rw [length_encodeAll hfeeds, layout_encodedBytes]⟩

end Record

end LogRelay
