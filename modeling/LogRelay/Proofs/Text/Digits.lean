import Mathlib.Data.List.Induction
import Mathlib.Data.Nat.Digits.Defs
import LogRelay.Text.Piece

/-!
# Digits and the numbers they spell

Positional notation in bases up to sixteen, read from the last digit on.  A number has many
spellings, one for each count of zeros in front of it; a numeral is the one without any.
-/

namespace LogRelay.Text

/-- The character of a digit below sixteen. -/
def digitChar (upper : Bool) (digit : Nat) : Char :=
  (if upper then "0123456789ABCDEF" else "0123456789abcdef").toList.getD digit '0'

/-- `text` is made of digits of a base, with the value `number`.  Zeros may stand in front. -/
inductive Spells (base : Nat) (upper : Bool) : List Char → Nat → Prop
  | nil : Spells base upper [] 0
  | concat {text : List Char} {number digit : Nat} (hfront : Spells base upper text number)
      (hdigit : digit < base) :
      Spells base upper (text ++ [digitChar upper digit]) (number * base + digit)

/-- Digits with no zero in front, unless it is the only one. -/
structure Unpadded (text : List Char) : Prop where
  ne_nil : text ≠ []
  eq_zero_of_head : text.head? = some '0' → text = ['0']

/-- The spelling of a number without zeros in front. -/
structure IsNumeral (base : Nat) (upper : Bool) (text : List Char) (number : Nat) : Prop
    extends Unpadded text where
  spells : Spells base upper text number

variable {base number other : Nat} {upper : Bool} {text behind : List Char}

@[simp]
theorem digitChar_zero (upper : Bool) : digitChar upper 0 = '0' := by
  cases upper <;> rfl

theorem digitChar_false {digit : Nat} (hdigit : digit < 16) :
    digitChar false digit = Nat.digitChar digit := by
  revert digit
  decide

theorem eq_zero_of_digitChar {digit : Nat} (hdigit : digit < 16)
    (hchar : digitChar upper digit = '0') : digit = 0 := by
  revert digit
  cases upper <;> decide

theorem digitChar_true {digit : Nat} (hdigit : digit < 16) :
    digitChar true digit = (Nat.digitChar digit).toUpper := by
  revert digit
  decide

theorem unpadded_singleton (char : Char) : Unpadded [char] where
  ne_nil := List.cons_ne_nil _ _
  eq_zero_of_head hhead := by rw [Option.some.inj hhead]

theorem Unpadded.take (hunpadded : Unpadded text) {count : Nat} (hcount : 0 < count) :
    Unpadded (text.take count) := by
  obtain ⟨char, rest, rfl⟩ := List.exists_cons_of_ne_nil hunpadded.ne_nil
  obtain ⟨count, rfl⟩ := Nat.exists_eq_succ_of_ne_zero hcount.ne'
  rw [List.take_succ_cons]
  refine ⟨List.cons_ne_nil _ _, fun hhead => ?_⟩
  obtain ⟨rfl, rfl⟩ := List.cons.inj (hunpadded.eq_zero_of_head hhead)
  rw [List.take_nil]

/-! ## Spellings put together and taken apart -/

theorem spells_singleton {digit : Nat} (hdigit : digit < base) :
    Spells base upper [digitChar upper digit] digit := by
  have hconcat : Spells base upper ([] ++ [digitChar upper digit]) (0 * base + digit) :=
    Spells.nil.concat hdigit
  rwa [List.nil_append, Nat.zero_mul, Nat.zero_add] at hconcat

theorem Spells.append (hfront : Spells base upper text number)
    (hbehind : Spells base upper behind other) :
    Spells base upper (text ++ behind) (number * base ^ behind.length + other) := by
  induction hbehind with
  | nil =>
    rw [List.append_nil, List.length_nil, Nat.pow_zero, Nat.mul_one]
    exact hfront
  | @concat behind other digit _ hdigit ih =>
    have hvalue : number * base ^ (behind ++ [digitChar upper digit]).length +
        (other * base + digit) = (number * base ^ behind.length + other) * base + digit := by
      rw [List.length_append, List.length_singleton, Nat.pow_succ]
      ring
    rw [← List.append_assoc, hvalue]
    exact ih.concat hdigit

theorem spells_zeros (hbase : 0 < base) (upper : Bool) (count : Nat) :
    Spells base upper (List.replicate count '0') 0 := by
  induction count with
  | zero => exact .nil
  | succ count ih =>
    have hconcat := ih.concat hbase
    rwa [digitChar_zero, Nat.zero_mul, Nat.zero_add, ← List.replicate_succ'] at hconcat

/-- Zeros in front change nothing. -/
theorem Spells.zeros_append (hspells : Spells base upper text number) (hbase : 0 < base)
    (count : Nat) : Spells base upper (List.replicate count '0' ++ text) number := by
  have happend := (spells_zeros hbase upper count).append hspells
  rwa [Nat.zero_mul, Nat.zero_add] at happend

/-- Zeros behind multiply. -/
theorem Spells.append_zeros (hspells : Spells base upper text number) (hbase : 0 < base)
    (count : Nat) :
    Spells base upper (text ++ List.replicate count '0') (number * base ^ count) := by
  have happend := hspells.append (spells_zeros hbase upper count)
  rwa [List.length_replicate, Nat.add_zero] at happend

theorem Spells.of_concat {char : Char} (hspells : Spells base upper (text ++ [char]) number) :
    ∃ front digit, Spells base upper text front ∧ digit < base ∧ char = digitChar upper digit ∧
      number = front * base + digit := by
  generalize hwhole : text ++ [char] = whole at hspells
  cases hspells with
  | nil => exact absurd hwhole (by simp)
  | concat hfront hdigit =>
    obtain ⟨rfl, hchar⟩ := List.append_inj' hwhole rfl
    exact ⟨_, _, hfront, hdigit, (List.cons.inj hchar).1, rfl⟩

theorem Spells.eq_zero_of_nil (hspells : Spells base upper [] number) : number = 0 := by
  generalize hnil : [] = text at hspells
  cases hspells with
  | nil => rfl
  | concat => exact absurd hnil (by simp)

/-- What zeros behind a text multiply is what the text itself spells. -/
theorem Spells.of_append_zeros (hbase : base ≤ 16) {count : Nat}
    (hspells : Spells base upper (text ++ List.replicate count '0') number) :
    ∃ front, Spells base upper text front ∧ number = front * base ^ count := by
  induction count generalizing number with
  | zero => exact ⟨number, by rwa [List.replicate_zero, List.append_nil] at hspells, by simp⟩
  | succ count ih =>
    rw [List.replicate_succ', ← List.append_assoc] at hspells
    obtain ⟨middle, digit, hmiddle, hdigit, hchar, rfl⟩ := hspells.of_concat
    obtain ⟨front, hfront, rfl⟩ := ih hmiddle
    obtain rfl := eq_zero_of_digitChar (by omega) hchar.symm
    exact ⟨front, hfront, by rw [Nat.add_zero, Nat.mul_assoc, Nat.pow_succ]⟩

/-- One more digit does not reach the next multiple of the base. -/
theorem mul_add_digit_lt {digit bound : Nat} (hdigit : digit < base) (hlt : number < bound) :
    number * base + digit < bound * base :=
  calc
    number * base + digit < number * base + base := Nat.add_lt_add_left hdigit _
    _ = (number + 1) * base := (Nat.succ_mul number base).symm
    _ ≤ bound * base := Nat.mul_le_mul_right base hlt

/-- A first digit other than zero is worth more than all digits behind it can be. -/
theorem Spells.head_eq_zero_iff (hbase : base ≤ 16) {char : Char} {rest : List Char}
    (hspells : Spells base upper (char :: rest) number) :
    char = '0' ↔ number < base ^ rest.length := by
  induction rest using List.reverseRecOn generalizing number with
  | nil =>
    rw [← List.nil_append [char]] at hspells
    obtain ⟨front, digit, hfront, hdigit, rfl, rfl⟩ := hspells.of_concat
    have hnone : front = 0 := hfront.eq_zero_of_nil
    rw [hnone, Nat.zero_mul, Nat.zero_add, List.length_nil, Nat.pow_zero, Nat.lt_one_iff]
    exact ⟨eq_zero_of_digitChar (by omega), fun hzero => by rw [hzero, digitChar_zero]⟩
  | append_singleton rest last ih =>
    rw [← List.cons_append] at hspells
    obtain ⟨front, digit, hfront, hdigit, -, rfl⟩ := hspells.of_concat
    rw [ih hfront, List.length_append, List.length_singleton, Nat.pow_succ]
    constructor
    · exact mul_add_digit_lt hdigit
    · intro hlt
      exact lt_of_mul_lt_mul_right ((Nat.le_add_right _ digit).trans_lt hlt) (Nat.zero_le base)

theorem Spells.exists_digit (hspells : Spells base upper text number) :
    ∀ char ∈ text, ∃ digit < base, char = digitChar upper digit := by
  induction hspells with
  | nil => exact List.forall_mem_nil _
  | concat _ hdigit ih =>
    intro char hmem
    rcases List.mem_append.mp hmem with hfront | hlast
    · exact ih char hfront
    · exact ⟨_, hdigit, List.mem_singleton.mp hlast⟩

theorem Spells.not_mem {char : Char} (hspells : Spells base upper text number)
    (hchar : ∀ digit < base, char ≠ digitChar upper digit) : char ∉ text := by
  intro hmem
  obtain ⟨digit, hdigit, heq⟩ := hspells.exists_digit char hmem
  exact hchar digit hdigit heq

/-- Digits can spell no more than their count allows. -/
theorem Spells.lt_pow (hspells : Spells base upper text number) : number < base ^ text.length := by
  induction hspells with
  | nil => exact Nat.one_pos
  | concat _ hdigit ih =>
    rw [List.length_append, List.length_singleton, Nat.pow_succ]
    exact mul_add_digit_lt hdigit ih

theorem Spells.of_zero_cons (hbase : base ≤ 16) (hspells : Spells base upper ('0' :: text) number) :
    Spells base upper text number := by
  induction text using List.reverseRecOn generalizing number with
  | nil =>
    rw [← List.nil_append ['0']] at hspells
    obtain ⟨front, digit, hfront, hdigit, hchar, rfl⟩ := hspells.of_concat
    obtain rfl := eq_zero_of_digitChar (by omega) hchar.symm
    obtain rfl := hfront.eq_zero_of_nil
    rw [Nat.zero_mul]
    exact .nil
  | append_singleton rest last ih =>
    rw [← List.cons_append] at hspells
    obtain ⟨front, digit, hfront, hdigit, rfl, rfl⟩ := hspells.of_concat
    exact (ih hfront).concat hdigit

/-- From the first digit on that is not zero there are as many as the size of the number
tells. -/
theorem Spells.length_dropWhile (hbase : base ≤ 16) (hpositive : 1 < base)
    (hspells : Spells base upper text number) {count : Nat} (hlower : base ^ count ≤ number)
    (hupper : number < base ^ (count + 1)) : (text.dropWhile (· = '0')).length = count + 1 := by
  induction text with
  | nil =>
    have hnone : 0 < base ^ count := Nat.pow_pos (by omega)
    obtain rfl := hspells.eq_zero_of_nil
    omega
  | cons first rest ih =>
    by_cases hfirst : first = '0'
    · subst hfirst
      rw [List.dropWhile_cons_of_pos (by rfl)]
      exact ih (hspells.of_zero_cons hbase)
    · have hleast : base ^ rest.length ≤ number :=
        Nat.le_of_not_lt (mt (hspells.head_eq_zero_iff hbase).mpr hfirst)
      have hmost : number < base ^ (rest.length + 1) := hspells.lt_pow
      have habove : rest.length < count + 1 :=
        (Nat.pow_lt_pow_iff_right hpositive).mp (hleast.trans_lt hupper)
      have hbelow : count < rest.length + 1 :=
        (Nat.pow_lt_pow_iff_right hpositive).mp (hlower.trans_lt hmost)
      rw [List.dropWhile_cons_of_neg (by simpa using hfirst), List.length_cons]
      omega

theorem utf8Size_digitChar {digit : Nat} (hdigit : digit < 16) :
    (digitChar upper digit).utf8Size = 1 := by
  revert digit
  cases upper <;> decide

/-- Every digit is a byte. -/
theorem Spells.byteLength_eq (hspells : Spells base upper text number) (hbase : base ≤ 16) :
    byteLength text = text.length := by
  induction hspells with
  | nil => rfl
  | concat _ hdigit ih =>
    rw [byteLength_append, ih, byteLength_cons, utf8Size_digitChar (by omega), byteLength_nil,
      List.length_append, List.length_singleton]

/-! ## The digits of a number -/

theorem spells_toDigits (hbase : 1 < base) (hsmall : base ≤ 16) (number : Nat) :
    Spells base false (Nat.toDigits base number) number := by
  induction number using Nat.strong_induction_on with
  | _ number ih =>
    rcases Nat.lt_or_ge number base with hlt | hge
    · rw [Nat.toDigits_of_lt_base hlt, ← digitChar_false (by omega)]
      exact spells_singleton hlt
    · have hmod : number % base < base := Nat.mod_lt _ (by omega)
      have hfront := ih (number / base) (Nat.div_lt_self (by omega) hbase)
      have hconcat := hfront.concat hmod
      rwa [Nat.div_add_mod', digitChar_false (by omega), ← Nat.toDigits_of_base_le hbase hge]
        at hconcat

theorem head?_toDigits_ne (hbase : 1 < base) (hsmall : base ≤ 16) (hnumber : number ≠ 0) :
    (Nat.toDigits base number).head? ≠ some '0' := by
  induction number using Nat.strong_induction_on with
  | _ number ih =>
    rcases Nat.lt_or_ge number base with hlt | hge
    · rw [Nat.toDigits_of_lt_base hlt, List.head?_cons, ← digitChar_false (by omega)]
      exact fun heq => hnumber (eq_zero_of_digitChar (by omega) (Option.some.inj heq))
    · obtain ⟨first, rest, hfront⟩ := List.exists_cons_of_ne_nil
        (Nat.toDigits_ne_nil (n := number / base) (b := base))
      have hfirst := ih (number / base) (Nat.div_lt_self (by omega) hbase)
        (Nat.div_pos hge (by omega)).ne'
      rw [hfront, List.head?_cons] at hfirst
      rwa [Nat.toDigits_of_base_le hbase hge, hfront, List.cons_append, List.head?_cons]

theorem isNumeral_toDigits (hbase : 1 < base) (hsmall : base ≤ 16) (number : Nat) :
    IsNumeral base false (Nat.toDigits base number) number where
  spells := spells_toDigits hbase hsmall number
  ne_nil := Nat.toDigits_ne_nil
  eq_zero_of_head hhead := by
    by_cases hnumber : number = 0
    · rw [hnumber, Nat.toDigits_zero]
    · exact absurd hhead (head?_toDigits_ne hbase hsmall hnumber)

theorem Spells.toUpper (hspells : Spells base false text number) (hsmall : base ≤ 16) :
    Spells base true (text.map Char.toUpper) number := by
  induction hspells with
  | nil => exact .nil
  | concat _ hdigit ih =>
    rw [List.map_append, List.map_singleton, digitChar_false (by omega),
      ← digitChar_true (by omega)]
    exact ih.concat hdigit

/-- In upper case a text is a numeral of the same number. -/
theorem IsNumeral.toUpper (hnumeral : IsNumeral base false text number) (hsmall : base ≤ 16) :
    IsNumeral base true (text.map Char.toUpper) number where
  spells := hnumeral.spells.toUpper hsmall
  ne_nil heq := hnumeral.ne_nil (List.map_eq_nil_iff.mp heq)
  eq_zero_of_head hhead := by
    obtain ⟨first, rest, rfl⟩ := List.exists_cons_of_ne_nil hnumeral.ne_nil
    obtain ⟨digit, hdigit, rfl⟩ := hnumeral.spells.exists_digit first List.mem_cons_self
    rw [List.map_cons, List.head?_cons, digitChar_false (by omega), ← digitChar_true (by omega)]
      at hhead
    obtain rfl := eq_zero_of_digitChar (by omega) (Option.some.inj hhead)
    rw [digitChar_zero] at hnumeral ⊢
    rw [hnumeral.eq_zero_of_head rfl]
    rfl

end LogRelay.Text
