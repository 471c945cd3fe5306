import LogRelay.Proofs.Checked.Basic

/-!
# Bytes of ASCII in a text

A character of ASCII is one byte, and that byte occurs in no other character.  So a text can
be scanned for such characters byte by byte: the scan stops where one that goes by characters
would stop, and that is between two characters.
-/

namespace LogRelay.Checked

open LogRelay.Text

/-! ## Bytes that are characters -/

/-- The bytes of a text, each as the character that it is when it stands for itself. -/
def ascii (text : List Char) : List Char :=
  (utf8 text).map Char.ofUInt8

def IsAscii (char : Char) : Prop :=
  char.toNat < 128

instance (char : Char) : Decidable (IsAscii char) :=
  inferInstanceAs (Decidable (char.toNat < 128))

@[simp]
theorem length_ascii (text : List Char) : (ascii text).length = byteLength text := by
  rw [ascii, List.length_map, length_utf8]

theorem ascii_append (before behind : List Char) :
    ascii (before ++ behind) = ascii before ++ ascii behind := by
  rw [ascii, utf8, List.flatMap_append, List.map_append]
  rfl

theorem ascii_cons (char : Char) (rest : List Char) :
    ascii (char :: rest) = ascii [char] ++ ascii rest :=
  ascii_append [char] rest

theorem ascii_singleton_of_isAscii {char : Char} (hchar : IsAscii char) :
    ascii [char] = [char] := by
  have hvalue : char.val.toNat ≤ 127 := Nat.le_of_lt_succ hchar
  have hbyte : Char.ofUInt8 (UInt8.ofNat char.val.toNat) = char := by
    apply Char.toNat_inj.mp
    change (UInt8.ofNat char.val.toNat).toNat = char.val.toNat
    rw [UInt8.toNat_ofNat']
    omega
  simp only [ascii, utf8, List.flatMap_singleton, String.utf8EncodeChar, if_pos hvalue,
    List.map_singleton, hbyte]

/-- No byte of another character could be taken for ASCII. -/
theorem not_isAscii_of_mem_ascii {char byte : Char} (hchar : ¬IsAscii char)
    (hbyte : byte ∈ ascii [char]) : ¬IsAscii byte := by
  have hvalue : ¬char.val.toNat ≤ 127 := fun hle => hchar (Nat.lt_succ_of_le hle)
  have hhigh : ∀ number, number % 256 ≥ 128 → ¬IsAscii (Char.ofUInt8 (UInt8.ofNat number)) := by
    intro number hnumber hascii
    have hlow : (UInt8.ofNat number).toNat < 128 := hascii
    rw [UInt8.toNat_ofNat'] at hlow
    omega
  simp only [ascii, utf8, List.flatMap_singleton, String.utf8EncodeChar, if_neg hvalue] at hbyte
  split at hbyte
  · simp only [List.map_cons, List.map_nil, List.mem_cons, List.not_mem_nil, or_false] at hbyte
    rcases hbyte with rfl | rfl <;> exact hhigh _ (by omega)
  · split at hbyte
    · simp only [List.map_cons, List.map_nil, List.mem_cons, List.not_mem_nil, or_false] at hbyte
      rcases hbyte with rfl | rfl | rfl <;> exact hhigh _ (by omega)
    · simp only [List.map_cons, List.map_nil, List.mem_cons, List.not_mem_nil, or_false] at hbyte
      rcases hbyte with rfl | rfl | rfl | rfl <;> exact hhigh _ (by omega)

theorem ascii_of_isAscii {text : List Char} (htext : ∀ char ∈ text, IsAscii char) :
    ascii text = text := by
  induction text with
  | nil => rfl
  | cons char rest ih =>
    obtain ⟨hchar, hrest⟩ := List.forall_mem_cons.mp htext
    rw [ascii_cons, ascii_singleton_of_isAscii hchar, ih hrest]
    rfl

theorem byteLength_of_isAscii {text : List Char} (htext : ∀ char ∈ text, IsAscii char) :
    byteLength text = text.length := by
  rw [← length_ascii, ascii_of_isAscii htext]

theorem exists_ascii_cons (char : Char) (rest : List Char) :
    ∃ byte others, byte ∈ ascii [char] ∧ ascii (char :: rest) = byte :: others := by
  have hpositive := char.utf8Size_pos
  have hlength := length_ascii [char]
  cases hbytes : ascii [char] with
  | nil =>
    rw [hbytes, byteLength_cons] at hlength
    exact absurd hlength (by simp only [List.length_nil]; omega)
  | cons byte others =>
    refine ⟨byte, others ++ ascii rest, List.mem_cons_self, ?_⟩
    rw [ascii_cons, hbytes]
    rfl

/-- A test that tells no two characters outside ASCII apart. -/
def Uniform (test : Char → Bool) : Prop :=
  ∀ left right, ¬IsAscii left → ¬IsAscii right → test left = test right

theorem Uniform.eq_of_mem {test : Char → Bool} (huniform : Uniform test) {char byte : Char}
    (hbyte : byte ∈ ascii [char]) : test byte = test char := by
  by_cases hchar : IsAscii char
  · rw [ascii_singleton_of_isAscii hchar, List.mem_singleton] at hbyte
    rw [hbyte]
  · exact huniform byte char (not_isAscii_of_mem_ascii hchar hbyte) hchar

/-- Scanning bytes stops where scanning characters does. -/
theorem takeWhile_ascii {test : Char → Bool} (huniform : Uniform test) (text : List Char) :
    (ascii text).takeWhile test = ascii (text.takeWhile test) := by
  induction text with
  | nil => rfl
  | cons char rest ih =>
    cases htest : test char with
    | true =>
      have hbytes : ∀ byte ∈ ascii [char], test byte = true :=
        fun byte hbyte => (huniform.eq_of_mem hbyte).trans htest
      rw [ascii_cons, List.takeWhile_append_of_pos hbytes, ih, List.takeWhile_cons_of_pos htest,
        ← ascii_cons]
    | false =>
      have hneg : ¬test char = true := by rw [htest]; simp
      obtain ⟨byte, others, hbyte, hbytes⟩ := exists_ascii_cons char rest
      rw [← huniform.eq_of_mem hbyte] at hneg
      rw [hbytes, List.takeWhile_cons_of_neg hneg, List.takeWhile_cons_of_neg (by simp [htest])]
      rfl

/-- A test that only ASCII passes. -/
def OnlyAscii (test : Char → Bool) : Prop :=
  ∀ char, test char = true → IsAscii char

theorem OnlyAscii.uniform {test : Char → Bool} (htest : OnlyAscii test) : Uniform test := by
  have hfalse : ∀ char, ¬IsAscii char → test char = false :=
    fun char hchar => Bool.eq_false_iff.mpr fun heq => hchar (htest char heq)
  intro left right hleft hright
  rw [hfalse left hleft, hfalse right hright]

theorem OnlyAscii.of_mem_takeWhile {test : Char → Bool} (htest : OnlyAscii test)
    (text : List Char) : ∀ char ∈ text.takeWhile test, IsAscii char :=
  fun char hchar => htest char (List.all_eq_true.mp List.all_takeWhile char hchar)

/-! ## Positions -/

/-- `rest` is what stands in `text` from a byte position on. -/
def At (text : List Char) (position : Nat) (rest : List Char) : Prop :=
  ∃ before, text = before ++ rest ∧ byteLength before = position

variable {text rest part : List Char} {position : Nat}

theorem At.begin (text : List Char) : At text 0 text :=
  ⟨[], rfl, rfl⟩

theorem At.skip (hat : At text position (part ++ rest)) :
    At text (position + byteLength part) rest := by
  obtain ⟨before, rfl, rfl⟩ := hat
  exact ⟨before ++ part, (List.append_assoc _ _ _).symm, byteLength_append _ _⟩

theorem At.drop_ascii (hat : At text position rest) :
    (ascii text).drop position = ascii rest := by
  obtain ⟨before, rfl, rfl⟩ := hat
  rw [ascii_append, ← length_ascii before, List.drop_left]

theorem At.getElem?_ascii (hat : At text position rest) :
    (ascii text)[position]? = (ascii rest).head? := by
  rw [← hat.drop_ascii, List.head?_drop]

theorem At.position_le (hat : At text position rest) : position ≤ byteLength text := by
  obtain ⟨before, rfl, rfl⟩ := hat
  rw [byteLength_append]
  exact Nat.le_add_right _ _

theorem At.slice? (hat : At text position (part ++ rest)) :
    slice? position (position + byteLength part) text = some part := by
  obtain ⟨before, rfl, rfl⟩ := hat
  rw [← List.append_assoc]
  exact slice?_append before part rest

theorem At.sliceFrom? (hat : At text position rest) : sliceFrom? position text = some rest := by
  obtain ⟨before, rfl, rfl⟩ := hat
  exact sliceFrom?_append before rest

/-- A byte of ASCII at a position is a character there. -/
theorem At.getElem?_eq_some_iff (hat : At text position rest) {char : Char}
    (hchar : IsAscii char) :
    (ascii text)[position]? = some char ↔ ∃ others, rest = char :: others := by
  rw [hat.getElem?_ascii]
  cases rest with
  | nil => simp [ascii, utf8]
  | cons first others =>
    obtain ⟨byte, bytes, hbyte, hbytes⟩ := exists_ascii_cons first others
    rw [hbytes, List.head?_cons, Option.some.injEq]
    by_cases hfirst : IsAscii first
    · rw [ascii_singleton_of_isAscii hfirst, List.mem_singleton] at hbyte
      rw [hbyte]
      simp
    · have hother := not_isAscii_of_mem_ascii hfirst hbyte
      refine iff_of_false (fun heq => hother (heq ▸ hchar)) ?_
      rintro ⟨_, heq⟩
      exact hfirst ((List.cons.inj heq).1 ▸ hchar)

/-- A run of characters is a run of bytes. -/
theorem At.takeWhile_drop (hat : At text position rest) {test : Char → Bool}
    (huniform : Uniform test) :
    ((ascii text).drop position).takeWhile test = ascii (rest.takeWhile test) := by
  rw [hat.drop_ascii, takeWhile_ascii huniform]

theorem At.takeWhile (hat : At text position rest) {test : Char → Bool}
    (htest : OnlyAscii test) :
    ((ascii text).drop position).takeWhile test = rest.takeWhile test := by
  rw [hat.takeWhile_drop htest.uniform, ascii_of_isAscii (htest.of_mem_takeWhile rest)]

theorem At.slice?_takeWhile (hat : At text position rest) (test : Char → Bool) :
    Checked.slice? position (position + byteLength (rest.takeWhile test)) text =
      some (rest.takeWhile test) := by
  have hparts : At text position (rest.takeWhile test ++ rest.dropWhile test) := by
    rwa [List.takeWhile_append_dropWhile]
  exact hparts.slice?

theorem At.skipWhile (hat : At text position rest) {test : Char → Bool}
    (htest : OnlyAscii test) :
    At text (position + (rest.takeWhile test).length) (rest.dropWhile test) := by
  rw [← byteLength_of_isAscii (htest.of_mem_takeWhile rest)]
  apply At.skip
  rwa [List.takeWhile_append_dropWhile]

theorem At.skip_one {char : Char} (hat : At text position (char :: rest)) (hchar : IsAscii char) :
    At text (position + 1) rest := by
  have hsize : byteLength [char] = 1 :=
    byteLength_of_isAscii (List.forall_mem_singleton.mpr hchar)
  have hpart : At text position ([char] ++ rest) := hat
  rw [← hsize]
  exact hpart.skip

theorem At.skip_of_append {whole : List Char} (hat : At text position whole)
    (happend : part ++ rest = whole) (hpart : ∀ char ∈ part, IsAscii char) :
    At text (position + part.length) rest := by
  rw [← byteLength_of_isAscii hpart]
  apply At.skip
  rwa [happend]

end LogRelay.Checked
