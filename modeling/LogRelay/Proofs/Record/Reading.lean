import LogRelay.Proofs.Record.RoundTrip

/-!
# Reading any bytes

A reader is given bytes and takes records off their front, one a call.  What it takes for a
record is what is written for one, byte for byte, so a list of records has one way only to
be written down.  What it cannot take for a record it passes over, a tag or an address at a
time, until nothing is left.
-/

namespace LogRelay.Record

open Format (Kind)

variable {texts : StaticTexts} {bytes rest : List UInt8} {kind : Kind} {value : Value}
  {records : List (Kind × Value)}

/-! ## Numbers -/

theorem ofLittleEndian_lt (bytes : List UInt8) : ofLittleEndian bytes < 256 ^ bytes.length := by
  induction bytes with
  | nil => decide
  | cons byte rest ih =>
    have hbyte := byte.toNat_lt
    rw [ofLittleEndian, List.length_cons, Nat.pow_succ]
    omega

theorem littleEndian_ofLittleEndian (bytes : List UInt8) :
    littleEndian bytes.length (ofLittleEndian bytes) = bytes := by
  induction bytes with
  | nil => rfl
  | cons byte rest ih =>
    have hbyte := byte.toNat_lt
    have hlow : UInt8.ofNat (byte.toNat + 256 * ofLittleEndian rest) = byte := by
      apply UInt8.toNat_inj.mp
      rw [UInt8.toNat_ofNat']
      omega
    have hhigh : (byte.toNat + 256 * ofLittleEndian rest) / 256 = ofLittleEndian rest := by omega
    rw [List.length_cons, ofLittleEndian, littleEndian, hlow, hhigh, ih]

theorem takeNumber?_eq_none_iff (count : Nat) (bytes : List UInt8) :
    takeNumber? count bytes = none ↔ bytes.length < count := by
  rw [takeNumber?]
  split
  · next hcount => simp [Nat.not_lt_of_le hcount]
  · next hcount => simp [Nat.lt_of_not_le hcount]

/-- The bytes of a number are the only ones that it is read from. -/
theorem takeNumber?_eq_some {count number : Nat}
    (heq : takeNumber? count bytes = some (number, rest)) :
    number < 256 ^ count ∧ bytes = littleEndian count number ++ rest := by
  rw [takeNumber?] at heq
  split at heq
  · next hcount =>
    obtain ⟨rfl, rfl⟩ := Prod.mk.inj (Option.some.inj heq)
    have hlength : (bytes.take count).length = count := List.length_take_of_le hcount
    have hlt := ofLittleEndian_lt (bytes.take count)
    have hwritten := littleEndian_ofLittleEndian (bytes.take count)
    rw [hlength] at hlt hwritten
    rw [hwritten, List.take_append_drop]
    exact ⟨hlt, rfl⟩
  · exact absurd heq (by simp)

theorem takeWord?_eq_none_iff (bytes : List UInt8) :
    takeWord? bytes = none ↔ bytes.length < 8 := by
  rw [takeWord?, Option.map_eq_none_iff, takeNumber?_eq_none_iff]

theorem takeWord?_eq_some {number : UInt64} (heq : takeWord? bytes = some (number, rest)) :
    bytes = word number ++ rest := by
  obtain ⟨⟨taken, after⟩, htaken, hpair⟩ := Option.map_eq_some_iff.mp heq
  obtain ⟨rfl, rfl⟩ := Prod.mk.inj hpair
  obtain ⟨hlt, hbytes⟩ := takeNumber?_eq_some htaken
  rw [word, UInt64.toNat_ofNat_of_lt' hlt]
  exact hbytes

/-! ## One record -/

theorem takeValue_eq_some (heq : takeValue texts kind bytes = (some value, rest)) :
    Recordable texts kind value ∧ bytes = valueBytes kind value ++ rest := by
  by_cases hinteger : kind.isInteger
  · rw [takeValue_integer hinteger] at heq
    cases htaken : takeNumber? kind.promotedSize bytes with
    | none => exact absurd heq (by simp [htaken])
    | some taken =>
      obtain ⟨number, after⟩ := taken
      simp only [htaken, Prod.mk.injEq, Option.some.injEq] at heq
      obtain ⟨rfl, rfl⟩ := heq
      obtain ⟨hlt, hbytes⟩ := takeNumber?_eq_some htaken
      have hsize : 256 ^ kind.promotedSize ≤ 2 ^ 64 := by cases kind <;> decide
      have hbits : (UInt64.ofNat number).toNat = number :=
        UInt64.toNat_ofNat_of_lt' (Nat.lt_of_lt_of_le hlt hsize)
      rw [Recordable, valueBytes, hbits]
      exact ⟨⟨hinteger, hlt⟩, hbytes⟩
  · cases kind with
    | int | long | longLong | size | ptrDiff | intMax => exact absurd rfl hinteger
    | double =>
      cases htaken : takeWord? bytes with
      | none => exact absurd heq (by simp [takeValue, htaken])
      | some taken =>
        simp only [takeValue, htaken, Prod.mk.injEq, Option.some.injEq] at heq
        obtain ⟨rfl, rfl⟩ := heq
        exact ⟨rfl, takeWord?_eq_some htaken⟩
    | pointer =>
      cases htaken : takeWord? bytes with
      | none => exact absurd heq (by simp [takeValue, htaken])
      | some taken =>
        simp only [takeValue, htaken, Prod.mk.injEq, Option.some.injEq] at heq
        obtain ⟨rfl, rfl⟩ := heq
        exact ⟨rfl, takeWord?_eq_some htaken⟩
    | str =>
      cases haddress : takeWord? bytes with
      | none => exact absurd heq (by simp [takeValue, haddress])
      | some taken =>
        obtain ⟨address, afterAddress⟩ := taken
        cases hsize : takeWord? afterAddress with
        | none => exact absurd heq (by simp [takeValue, haddress, hsize])
        | some taken =>
          obtain ⟨size, after⟩ := taken
          simp only [takeValue, haddress, hsize, Prod.mk.injEq, Option.map_eq_some_iff] at heq
          obtain ⟨⟨static, hfound, rfl⟩, rfl⟩ := heq
          have hplace := List.find?_some hfound
          simp only [decide_eq_true_eq] at hplace
          obtain ⟨rfl, rfl⟩ := hplace
          refine ⟨⟨rfl, hfound⟩, ?_⟩
          rw [valueBytes, takeWord?_eq_some haddress, takeWord?_eq_some hsize, List.append_assoc]

/-- A record is read from the bytes that are written for it, and from no others. -/
theorem takeRecord_eq_some_iff :
    takeRecord texts bytes = (some (kind, value), rest) ↔
      Recordable texts kind value ∧ bytes = encode kind value ++ rest := by
  constructor
  · intro heq
    cases bytes with
    | nil => exact absurd heq (by simp [takeRecord])
    | cons tag after =>
      cases htag : Kind.ofTag? tag with
      | none => exact absurd heq (by simp [takeRecord, htag])
      | some found =>
        simp only [takeRecord, htag, Prod.mk.injEq, Option.map_eq_some_iff] at heq
        obtain ⟨⟨taken, hvalue, rfl, rfl⟩, hrest⟩ := heq
        obtain ⟨hrecordable, rfl⟩ := takeValue_eq_some (Prod.ext hvalue hrest)
        rw [Kind.tag_of_ofTag? htag]
        exact ⟨hrecordable, rfl⟩
  · rintro ⟨hrecordable, rfl⟩
    exact takeRecord_encode hrecordable rest

/-- What a call that gives no record takes, and what it leaves: one byte, or the nine of a
string's tag and address. -/
inductive PassesOver : List UInt8 → List UInt8 → Prop
  /-- A byte that is no tag. -/
  | unknown {tag : UInt8} {rest : List UInt8} (htag : Kind.ofTag? tag = none) :
      PassesOver (tag :: rest) rest
  /-- A tag whose value is cut short, for a string within its address. -/
  | cutShort {kind : Kind} {rest : List UInt8} (hshort : rest.length < kind.storedSize)
      (haddress : kind = .str → rest.length < 8) : PassesOver (kind.tag :: rest) rest
  /-- The tag and the address of a string whose length is cut short. -/
  | sizeCutShort {address rest : List UInt8} (haddress : address.length = 8)
      (hshort : rest.length < 8) : PassesOver (Kind.str.tag :: (address ++ rest)) rest

/-- If the bytes begin with a complete record of a string, it is one that was written for a
text of the program. -/
def Vouched (texts : StaticTexts) (bytes : List UInt8) : Prop :=
  bytes.head? = some Kind.str.tag → Kind.str.recordSize ≤ bytes.length →
    ∃ static rest, Argument.IsStatic texts (.str static) ∧
      bytes = encode .str (.str static) ++ rest

theorem takeValue_eq_none (hkind : kind ≠ .str)
    (heq : takeValue texts kind bytes = (none, rest)) :
    rest = bytes ∧ bytes.length < kind.storedSize := by
  by_cases hinteger : kind.isInteger
  · rw [takeValue_integer hinteger] at heq
    cases htaken : takeNumber? kind.promotedSize bytes with
    | some taken => exact absurd heq (by simp [htaken])
    | none =>
      simp only [htaken, Prod.mk.injEq, true_and] at heq
      have hstored : kind.storedSize = kind.promotedSize := by
        cases kind <;> first | rfl | exact absurd rfl hkind
      rw [hstored]
      exact ⟨heq.symm, (takeNumber?_eq_none_iff _ _).mp htaken⟩
  · cases kind with
    | int | long | longLong | size | ptrDiff | intMax => exact absurd rfl hinteger
    | str => exact absurd rfl hkind
    | double | pointer =>
      cases htaken : takeWord? bytes with
      | some taken => exact absurd heq (by simp [takeValue, htaken])
      | none =>
        simp only [takeValue, htaken, Prod.mk.injEq, true_and] at heq
        exact ⟨heq.symm, (takeWord?_eq_none_iff _).mp htaken⟩

theorem passesOver_of_takeRecord (hvouched : Vouched texts bytes) (hbytes : bytes ≠ [])
    (heq : takeRecord texts bytes = (none, rest)) : PassesOver bytes rest := by
  obtain ⟨tag, after, rfl⟩ := List.exists_cons_of_ne_nil hbytes
  cases htag : Kind.ofTag? tag with
  | none =>
    simp only [takeRecord, htag, Prod.mk.injEq, true_and] at heq
    rw [← heq]
    exact .unknown htag
  | some kind =>
    obtain rfl := Kind.tag_of_ofTag? htag
    have hvalue : takeValue texts kind after = (none, rest) := by
      simpa [takeRecord, Prod.ext_iff] using heq
    by_cases hkind : kind = .str
    · subst hkind
      cases haddress : takeWord? after with
      | none =>
        simp only [takeValue, haddress, Prod.mk.injEq, true_and] at hvalue
        have hshort := (takeWord?_eq_none_iff _).mp haddress
        rw [← hvalue]
        exact .cutShort (Nat.lt_of_lt_of_le hshort (by decide)) fun _ => hshort
      | some taken =>
        obtain ⟨address, afterAddress⟩ := taken
        obtain rfl := takeWord?_eq_some haddress
        cases hsize : takeWord? afterAddress with
        | none =>
          simp only [takeValue, haddress, hsize, Prod.mk.injEq, true_and] at hvalue
          rw [← hvalue]
          exact .sizeCutShort (length_word address) ((takeWord?_eq_none_iff _).mp hsize)
        | some taken =>
          -- A complete record is one that was written, and would have been read.
          obtain ⟨size, behind⟩ := taken
          obtain rfl := takeWord?_eq_some hsize
          have hlength : Kind.str.recordSize ≤
              (Kind.str.tag :: (word address ++ (word size ++ behind))).length := by
            simp only [List.length_cons, List.length_append, length_word, Kind.recordSize,
              Kind.tagSize, Kind.storedSize]
            omega
          obtain ⟨static, others, hstatic, hwritten⟩ := hvouched rfl hlength
          have hrecordable : Recordable texts .str (.str static) := ⟨rfl, hstatic⟩
          rw [hwritten, takeRecord_encode hrecordable] at heq
          exact absurd heq (by simp)
    · obtain ⟨rfl, hshort⟩ := takeValue_eq_none hkind hvalue
      exact .cutShort hshort fun hstr => absurd hstr hkind

/-! ## Call after call -/

/-- What a reader has not taken yet after a number of calls. -/
def remaining (texts : StaticTexts) (bytes : List UInt8) : (calls : Nat) → List UInt8
  | 0 => bytes
  | calls + 1 => (takeRecord texts (remaining texts bytes calls)).2

theorem length_remaining_lt {calls : Nat} (hleft : remaining texts bytes calls ≠ []) :
    (remaining texts bytes (calls + 1)).length < (remaining texts bytes calls).length := by
  rw [remaining]
  obtain ⟨tag, after, heq⟩ := List.exists_cons_of_ne_nil hleft
  rw [heq]
  exact length_takeRecord_lt texts tag after

theorem length_remaining_le (texts : StaticTexts) (bytes : List UInt8) (calls : Nat) :
    (remaining texts bytes calls).length ≤ bytes.length - calls := by
  induction calls with
  | zero => exact Nat.le_refl _
  | succ calls ih =>
    by_cases hleft : remaining texts bytes calls = []
    · rw [remaining, hleft]
      exact Nat.zero_le _
    · have hlt := length_remaining_lt hleft
      omega

/-- After as many calls as there are bytes nothing is left, if not before. -/
theorem remaining_eq_nil {calls : Nat} (hcalls : bytes.length ≤ calls) :
    remaining texts bytes calls = [] := by
  have hlength := length_remaining_le texts bytes calls
  exact List.length_eq_zero_iff.mp (by omega)

theorem remaining_add_eq_nil {calls : Nat} (hnothing : remaining texts bytes calls = [])
    (more : Nat) : remaining texts bytes (calls + more) = [] := by
  induction more with
  | zero => exact hnothing
  | succ more ih =>
    rw [← Nat.add_assoc, remaining, ih]
    rfl

theorem PassesOver.isSuffix (hpasses : PassesOver bytes rest) : rest <:+ bytes := by
  cases hpasses with
  | unknown => exact List.suffix_cons _ _
  | cutShort => exact List.suffix_cons _ _
  | sizeCutShort => exact (List.suffix_append _ _).trans (List.suffix_cons _ _)

/-- Whatever a call takes, it takes off the front. -/
theorem takeRecord_isSuffix (hvouched : Vouched texts bytes) :
    (takeRecord texts bytes).2 <:+ bytes := by
  cases htaken : takeRecord texts bytes with
  | mk answer rest =>
    cases answer with
    | some record =>
      rw [(takeRecord_eq_some_iff.mp htaken).2]
      exact List.suffix_append _ _
    | none =>
      by_cases hbytes : bytes = []
      · subst hbytes
        rw [← htaken]
        exact List.suffix_rfl
      · exact (passesOver_of_takeRecord hvouched hbytes htaken).isSuffix

/-- Records that are read one after the other without a failure, and what they leave. -/
inductive Reads (texts : StaticTexts) : List UInt8 → List (Kind × Value) → List UInt8 → Prop
  | nil {bytes : List UInt8} : Reads texts bytes [] bytes
  | cons {bytes after rest : List UInt8} {record : Kind × Value} {records : List (Kind × Value)}
      (htaken : takeRecord texts bytes = (some record, after))
      (hrest : Reads texts after records rest) : Reads texts bytes (record :: records) rest

/-- Records are read from what is written for them, and from nothing else. -/
theorem Reads.bytes_eq (hreads : Reads texts bytes records rest) :
    bytes = encodeAll records ++ rest := by
  induction hreads with
  | nil => rfl
  | cons htaken _ ih =>
    rw [encodeAll_cons, List.append_assoc, ← ih]
    exact (takeRecord_eq_some_iff.mp htaken).2

/-- Going through the records ends at the first call that gives none. -/
theorem reads_takeRecords (texts : StaticTexts) (bytes : List UInt8) :
    ∃ rest, Reads texts bytes (takeRecords texts bytes) rest ∧
      (takeRecord texts rest).1 = none := by
  fun_induction takeRecords texts bytes with
  | case1 => exact ⟨[], .nil, rfl⟩
  | case2 tag rest _ _ record htaken ih =>
    obtain ⟨behind, hreads, hend⟩ := ih
    exact ⟨behind, .cons (Prod.ext htaken rfl) hreads, hend⟩
  | case3 tag rest _ _ htaken => exact ⟨tag :: rest, .nil, htaken⟩

/-- What holds of a reader of some bytes at every call. -/
structure Advances (texts : StaticTexts) (bytes : List UInt8) : Prop where
  returned : ∀ calls kind value,
    (takeRecord texts (remaining texts bytes calls)).1 = some (kind, value) →
    remaining texts bytes calls = encode kind value ++ remaining texts bytes (calls + 1)
  passedOver : ∀ calls, remaining texts bytes calls ≠ [] →
    (takeRecord texts (remaining texts bytes calls)).1 = none →
    PassesOver (remaining texts bytes calls) (remaining texts bytes (calls + 1))
  exhausted : ∀ calls, remaining texts bytes calls = [] →
    takeRecord texts (remaining texts bytes calls) = (none, [])
  decreases : ∀ calls, remaining texts bytes calls ≠ [] →
    (remaining texts bytes (calls + 1)).length < (remaining texts bytes calls).length
  /-- The reader never gets beyond the end of the bytes. -/
  isSuffix : ∀ calls, remaining texts bytes calls <:+ bytes
  ends : ∀ calls, bytes.length ≤ calls → remaining texts bytes calls = []
  iterates : ∃ rest, Reads texts bytes (takeRecords texts bytes) rest ∧
    (takeRecord texts rest).1 = none
  /-- No other bytes are read as the same records. -/
  canonical : ∀ other records, Reads texts bytes records [] → Reads texts other records [] →
    other = bytes

/-- Reading goes on to the end of any bytes in which no string is forged, and what it finds
in them is what is written there. -/
theorem advances_of_vouched (hvouched : ∀ calls, Vouched texts (remaining texts bytes calls)) :
    Advances texts bytes where
  returned calls kind value htaken :=
    (takeRecord_eq_some_iff.mp (Prod.ext htaken rfl)).2
  passedOver calls hleft htaken :=
    passesOver_of_takeRecord (hvouched calls) hleft (Prod.ext htaken rfl)
  exhausted calls hnothing := by
    rw [hnothing]
    rfl
  decreases calls hleft := length_remaining_lt hleft
  isSuffix calls := by
    induction calls with
    | zero => exact List.suffix_rfl
    | succ calls ih => exact (takeRecord_isSuffix (hvouched calls)).trans ih
  ends calls hcalls := remaining_eq_nil hcalls
  iterates := reads_takeRecords texts bytes
  canonical other records hreads hother := by
    rw [hreads.bytes_eq, hother.bytes_eq]

/-- A byte that is no tag, a string, a string that ends within its length, and an integer
that ends within its value. -/
theorem advances_of_vouched_garbled :
    let texts : StaticTexts := [⟨4096, "ok"⟩]
    let bytes : List UInt8 :=
      200 :: (encode .str (.str ⟨4096, "ok"⟩) ++ Kind.str.tag :: (word 4096 ++ [2, 0]))
    (∀ calls, Vouched texts (remaining texts bytes calls)) ∧ Advances texts bytes ∧
      (List.range 6).map (fun calls => (remaining texts bytes calls).length) =
        [29, 28, 11, 2, 1, 0] := by
  intro texts bytes
  have hstring : remaining texts bytes 1 =
      encode .str (.str ⟨4096, "ok"⟩) ++ Kind.str.tag :: (word 4096 ++ [2, 0]) := by
    decide +kernel
  have hend : remaining texts bytes 5 = [] := by decide +kernel
  have hvouched : ∀ calls, Vouched texts (remaining texts bytes calls) := by
    intro calls hhead hlength
    match calls with
    | 0 => exact absurd hhead (by decide +kernel)
    | 1 =>
      have hstatic : Argument.IsStatic texts (.str ⟨4096, "ok"⟩) := by
        simp [texts, Argument.IsStatic, StaticTexts.find?]
      exact ⟨⟨4096, "ok"⟩, _, hstatic, hstring⟩
    | 2 => exact absurd hlength (by decide +kernel)
    | 3 => exact absurd hhead (by decide +kernel)
    | 4 => exact absurd hhead (by decide +kernel)
    | more + 5 =>
      rw [Nat.add_comm, remaining_add_eq_nil hend more] at hhead
      exact absurd hhead (by simp)
  exact ⟨hvouched, advances_of_vouched hvouched, by decide +kernel⟩

end LogRelay.Record
