import Mathlib.Data.Option.Basic
import LogRelay.Proofs.Text.Bounded

/-!
# Partial operations

On a machine a subtraction can go below zero, a sum can outgrow a word, and a slice can
reach beyond its bytes or into the middle of a character; a program that gets there stops.
The operations of this module have no result in such a case.  A computation written with
them has a result exactly when none of its steps goes wrong.
-/

namespace LogRelay.Checked

open LogRelay.Text

/-! ## Words -/

/-- Where the numbers of a machine word end. -/
def wordLimit : Nat := Nat.pow 2 64

def sub? (left right : Nat) : Option Nat :=
  if right ≤ left then some (left - right) else none

def add? (left right : Nat) : Option Nat :=
  if left + right < wordLimit then some (left + right) else none

def mul? (left right : Nat) : Option Nat :=
  if left * right < wordLimit then some (left * right) else none

/-- A word shifted by less than its width. -/
def shiftLeft? (number amount : Nat) : Option Nat :=
  if amount < 64 then some (number * Nat.pow 2 amount % wordLimit) else none

def div? (left right : Nat) : Option Nat :=
  if right = 0 then none else some (left / right)

theorem sub?_of_le {left right : Nat} (hle : right ≤ left) :
    sub? left right = some (left - right) := if_pos hle

theorem add?_of_lt {left right : Nat} (hlt : left + right < wordLimit) :
    add? left right = some (left + right) := if_pos hlt

theorem mul?_of_lt {left right : Nat} (hlt : left * right < wordLimit) :
    mul? left right = some (left * right) := if_pos hlt

theorem shiftLeft?_of_lt {number amount : Nat} (hlt : amount < 64) :
    shiftLeft? number amount = some (number * Nat.pow 2 amount % wordLimit) := if_pos hlt

theorem div?_of_pos {left right : Nat} (hpos : 0 < right) :
    div? left right = some (left / right) := if_neg (Nat.ne_of_gt hpos)

@[simp]
theorem guard_of {condition : Prop} [Decidable condition] (hcondition : condition) :
    (guard condition : Option Unit) = some () := if_pos hcondition

/-! ## Bytes -/

/-- The size of the range from `start` to `stop` in `size` bytes. -/
def window? (size start stop : Nat) : Option Nat :=
  if start ≤ stop ∧ stop ≤ size then some (stop - start) else none

def take? (count : Nat) (bytes : List UInt8) : Option (List UInt8) :=
  if count ≤ bytes.length then some (bytes.take count) else none

/-- Bytes copied over `size` bytes, which takes exactly as many. -/
def copy? (size : Nat) (bytes : List UInt8) : Option (List UInt8) :=
  if bytes.length = size then some bytes else none

theorem window?_of_le {size start stop : Nat} (hstart : start ≤ stop) (hstop : stop ≤ size) :
    window? size start stop = some (stop - start) := if_pos ⟨hstart, hstop⟩

theorem take?_of_le {count : Nat} {bytes : List UInt8} (hle : count ≤ bytes.length) :
    take? count bytes = some (bytes.take count) := if_pos hle

theorem copy?_of_length {size : Nat} {bytes : List UInt8} (hlength : bytes.length = size) :
    copy? size bytes = some bytes := if_pos hlength

/-! ## Text -/

/-- A text divided at a byte position. -/
def splitAt? : Nat → List Char → Option (List Char × List Char)
  | 0, text => some ([], text)
  | _ + 1, [] => none
  | position + 1, char :: rest =>
    if char.utf8Size ≤ position + 1 then
      (splitAt? (position + 1 - char.utf8Size) rest).map fun (before, behind) =>
        (char :: before, behind)
    else none

/-- Whether a byte position lies between characters, or at an end of the text. -/
def isBoundary (text : List Char) (position : Nat) : Bool :=
  (splitAt? position text).isSome

def slice? (start stop : Nat) (text : List Char) : Option (List Char) := do
  let (before, _) ← splitAt? stop text
  let (_, part) ← splitAt? start before
  return part

def sliceFrom? (start : Nat) (text : List Char) : Option (List Char) := do
  let (_, part) ← splitAt? start text
  return part

/-- The last boundary up to a position, searched for backwards. -/
def boundary? (text : List Char) : Nat → Option Nat
  | 0 => if isBoundary text 0 then some 0 else none
  | position + 1 =>
    if isBoundary text (position + 1) then some (position + 1) else boundary? text position

/-- The text up to the last boundary that is within `limit` bytes. -/
def truncate? (limit : Nat) (text : List Char) : Option (List Char) :=
  if byteLength text ≤ limit then some text
  else do
    let stop ← boundary? text limit
    slice? 0 stop text

@[simp]
theorem splitAt?_zero (text : List Char) : splitAt? 0 text = some ([], text) := by
  rw [splitAt?]

theorem splitAt?_append (before behind : List Char) :
    splitAt? (byteLength before) (before ++ behind) = some (before, behind) := by
  induction before with
  | nil => exact splitAt?_zero behind
  | cons char rest ih =>
    have hpositive := char.utf8Size_pos
    obtain ⟨position, hposition⟩ : ∃ position, byteLength (char :: rest) = position + 1 :=
      Nat.exists_eq_add_one_of_ne_zero (by rw [byteLength_cons]; omega)
    have hrest : position + 1 - char.utf8Size = byteLength rest := by
      rw [← hposition, byteLength_cons, Nat.add_sub_cancel_left]
    have hfits : char.utf8Size ≤ position + 1 := by
      rw [← hposition, byteLength_cons]
      exact Nat.le_add_right _ _
    rw [hposition, List.cons_append, splitAt?, if_pos hfits, hrest, ih]
    rfl

/-- What a text is divided into makes it up. -/
theorem append_of_splitAt? {position : Nat} {text before behind : List Char}
    (heq : splitAt? position text = some (before, behind)) :
    text = before ++ behind ∧ byteLength before = position := by
  induction text generalizing position before with
  | nil =>
    cases position with
    | zero =>
      rw [splitAt?_zero] at heq
      obtain ⟨rfl, rfl⟩ := Prod.mk.inj (Option.some.inj heq)
      exact ⟨rfl, rfl⟩
    | succ position => exact absurd heq (by simp [splitAt?])
  | cons char rest ih =>
    cases position with
    | zero =>
      rw [splitAt?_zero] at heq
      obtain ⟨rfl, rfl⟩ := Prod.mk.inj (Option.some.inj heq)
      exact ⟨rfl, rfl⟩
    | succ position =>
      rw [splitAt?] at heq
      split at heq
      · next hfits =>
        obtain ⟨⟨inner, outer⟩, hsplit, hpair⟩ := Option.map_eq_some_iff.mp heq
        obtain ⟨rfl, rfl⟩ := Prod.mk.inj hpair
        obtain ⟨rfl, hlength⟩ := ih hsplit
        refine ⟨rfl, ?_⟩
        rw [byteLength_cons, hlength]
        omega
      · exact absurd heq (by simp)

/-- Cutting at the ends of a part of a text never splits a character. -/
theorem slice?_append (before part behind : List Char) :
    slice? (byteLength before) (byteLength before + byteLength part) (before ++ part ++ behind) =
      some part := by
  rw [← byteLength_append, slice?, splitAt?_append]
  change (splitAt? (byteLength before) (before ++ part) >>= _) = _
  rw [splitAt?_append]
  rfl

theorem sliceFrom?_append (before behind : List Char) :
    sliceFrom? (byteLength before) (before ++ behind) = some behind := by
  rw [sliceFrom?, splitAt?_append]
  rfl

/-! ## Cuts -/

/-- At a boundary nothing has to be given up. -/
theorem fit_of_isBoundary {text : List Char} {position : Nat}
    (hboundary : isBoundary text position = true) :
    byteLength (fit position text) = position := by
  obtain ⟨⟨before, behind⟩, hsplit⟩ := Option.isSome_iff_exists.mp hboundary
  obtain ⟨rfl, rfl⟩ := append_of_splitAt? hsplit
  apply Nat.le_antisymm (byteLength_fit_le _ _)
  obtain ⟨rest, hrest⟩ := isPrefix_fit (List.prefix_append before behind) (Nat.le_refl _)
  rw [← hrest, byteLength_append]
  exact Nat.le_add_right _ _

theorem isBoundary_fit (text : List Char) (room : Nat) :
    isBoundary text (byteLength (fit room text)) = true := by
  obtain ⟨rest, hrest⟩ := fit_isPrefix room text
  have hsplit := splitAt?_append (fit room text) rest
  rw [hrest] at hsplit
  rw [isBoundary, hsplit]
  rfl

/-- Without a boundary at its end a cut is no longer than the next shorter one. -/
theorem fit_of_not_isBoundary {text : List Char} {position : Nat}
    (hboundary : isBoundary text (position + 1) = false) :
    fit (position + 1) text = fit position text := by
  have hsize : byteLength (fit (position + 1) text) ≤ position := by
    have hle := byteLength_fit_le (position + 1) text
    have hne : byteLength (fit (position + 1) text) ≠ position + 1 := by
      intro heq
      have hfit := isBoundary_fit text (position + 1)
      rw [heq, hboundary] at hfit
      exact absurd hfit (by simp)
    omega
  have hlonger : byteLength (fit position text) ≤ position + 1 :=
    Nat.le_succ_of_le (byteLength_fit_le position text)
  have hshort := isPrefix_fit (fit_isPrefix (position + 1) text) hsize
  have hlong := isPrefix_fit (fit_isPrefix position text) hlonger
  exact hshort.eq_of_length (Nat.le_antisymm hshort.length_le hlong.length_le)

/-- The search never runs below the beginning of the text. -/
theorem boundary?_eq (text : List Char) (position : Nat) :
    boundary? text position = some (byteLength (fit position text)) := by
  induction position with
  | zero =>
    have hbegin : isBoundary text 0 = true := by rw [isBoundary, splitAt?_zero]; rfl
    rw [boundary?, if_pos hbegin, fit_of_isBoundary hbegin]
  | succ position ih =>
    rw [boundary?]
    split
    · next hboundary => rw [fit_of_isBoundary hboundary]
    · next hboundary => rw [ih, fit_of_not_isBoundary (Bool.eq_false_iff.mpr hboundary)]

/-- Searching backwards for a boundary finds the longest cut. -/
theorem truncate?_eq (limit : Nat) (text : List Char) :
    truncate? limit text = some (fit limit text) := by
  rw [truncate?]
  split
  · next hfits => rw [(fit_eq_self_iff limit text).mpr hfits]
  · rw [boundary?_eq]
    obtain ⟨rest, hrest⟩ := fit_isPrefix limit text
    have hslice := slice?_append [] (fit limit text) rest
    rw [List.nil_append, hrest, byteLength_nil, Nat.zero_add] at hslice
    exact hslice

end LogRelay.Checked
