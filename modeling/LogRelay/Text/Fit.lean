/-!
# Text measured in UTF-8 bytes

Widths, precisions and buffer sizes count bytes, while text is made of whole
characters.  `fit` is the cut that reconciles the two: the longest initial
stretch of characters whose bytes do not exceed a given room.
-/

namespace LogRelay.Text

def byteLength : List Char → Nat
  | [] => 0
  | char :: rest => char.utf8Size + byteLength rest

def utf8 (text : List Char) : List UInt8 :=
  text.flatMap String.utf8EncodeChar

/-- The characters of `text` up to the first one that does not fit into `room`
bytes. -/
def fit : Nat → List Char → List Char
  | _, [] => []
  | room, char :: rest =>
    if char.utf8Size ≤ room then char :: fit (room - char.utf8Size) rest else []

@[simp]
theorem byteLength_nil : byteLength [] = 0 := rfl

@[simp]
theorem byteLength_cons (char : Char) (text : List Char) :
    byteLength (char :: text) = char.utf8Size + byteLength text := rfl

@[simp]
theorem byteLength_append (left right : List Char) :
    byteLength (left ++ right) = byteLength left + byteLength right := by
  induction left with
  | nil => rw [List.nil_append, byteLength_nil, Nat.zero_add]
  | cons char rest ih =>
    rw [List.cons_append, byteLength_cons, ih, byteLength_cons, Nat.add_assoc]

@[simp]
theorem length_utf8 (text : List Char) : (utf8 text).length = byteLength text := by
  induction text with
  | nil => rfl
  | cons char rest ih => simp_all [utf8]

theorem fit_isPrefix (room : Nat) (text : List Char) : fit room text <+: text := by
  induction text generalizing room with
  | nil => exact List.prefix_rfl
  | cons char rest ih =>
    rw [fit]
    split
    · exact (List.prefix_cons_inj char).2 (ih _)
    · exact List.nil_prefix

theorem byteLength_fit_le (room : Nat) (text : List Char) : byteLength (fit room text) ≤ room := by
  induction text generalizing room with
  | nil => exact Nat.zero_le room
  | cons char rest ih =>
    rw [fit]
    split
    · have := ih (room - char.utf8Size)
      rw [byteLength_cons]
      omega
    · exact Nat.zero_le room

theorem fit_eq_self_iff (room : Nat) (text : List Char) :
    fit room text = text ↔ byteLength text ≤ room := by
  induction text generalizing room with
  | nil => simp [fit]
  | cons char rest ih =>
    rw [fit, byteLength_cons]
    split
    · rw [List.cons.injEq, ih]
      simp only [true_and]
      omega
    · simp only [reduceCtorEq, false_iff]
      omega

/-- A second text gets the room that the first one leaves, and nothing when the first
does not fit. -/
theorem fit_append (room : Nat) (left right : List Char) :
    fit room (left ++ right) =
      if byteLength left ≤ room then left ++ fit (room - byteLength left) right
      else fit room left := by
  induction left generalizing room with
  | nil => simp
  | cons char rest ih =>
    simp only [List.cons_append, fit, byteLength_cons, ih]
    by_cases hchar : char.utf8Size ≤ room
    · by_cases hrest : byteLength rest ≤ room - char.utf8Size
      · simp [hchar, hrest, Nat.sub_sub, show char.utf8Size + byteLength rest ≤ room by omega]
      · simp [hchar, hrest, show ¬ char.utf8Size + byteLength rest ≤ room by omega]
    · simp [hchar, show ¬ char.utf8Size + byteLength rest ≤ room by omega]

end LogRelay.Text
