/-!
# Blank characters and trimming

This module fixes which characters count as blank at the ends of a text and
removes them.  Texts are treated as lists of characters, so that positions are
counted in characters.

Main results:

- Theorem `isBlank_of_isWhitespace`: every ASCII blank is blank.
- Theorem `trim_of_no_blank`: a text without blanks is left as it is.
-/

namespace Formulary.Text

/-- The inclusive ranges of blank characters: the space separators of the
Unicode table, its line and paragraph separators, and the control characters
that separate lines or fields. -/
def blankRanges : List (Nat × Nat) :=
  [(0x09, 0x0D), (0x1C, 0x20), (0x85, 0x85), (0xA0, 0xA0), (0x1680, 0x1680),
    (0x2000, 0x200A), (0x2028, 0x2029), (0x202F, 0x202F), (0x205F, 0x205F),
    (0x3000, 0x3000)]

/-- A character is blank when one of the ranges holds its code point. -/
def isBlank (c : Char) : Bool :=
  blankRanges.any fun (low, high) => low ≤ c.toNat && c.toNat ≤ high

/-- Every ASCII blank is blank. -/
theorem isBlank_of_isWhitespace {c : Char} (h : c.isWhitespace = true) :
    isBlank c = true := by
  simp only [Char.isWhitespace, Bool.or_eq_true, decide_eq_true_eq] at h
  rcases h with ((h | h) | h) | h <;> subst h <;> decide

/-- Drop the blanks at the left end. -/
def trimLeft (text : List Char) : List Char :=
  text.dropWhile isBlank

/-- Drop the blanks at the right end. -/
def trimRight (text : List Char) : List Char :=
  (text.reverse.dropWhile isBlank).reverse

/-- Drop the blanks at both ends. -/
def trim (text : List Char) : List Char :=
  trimRight (trimLeft text)

@[simp]
theorem trim_nil : trim [] = [] :=
  rfl

/-- Nothing is dropped in front of a character that is not blank. -/
theorem trimLeft_of_head {text : List Char}
    (h : ∀ c, text.head? = some c → isBlank c = false) : trimLeft text = text := by
  cases text with
  | nil => rfl
  | cons c rest => simp [trimLeft, h c rfl]

/-- Nothing is dropped behind a character that is not blank. -/
theorem trimRight_of_last {text : List Char}
    (h : ∀ c, text.getLast? = some c → isBlank c = false) : trimRight text = text := by
  have same := @trimLeft_of_head text.reverse (by simpa using h)
  rw [trimLeft] at same
  rw [trimRight, same, List.reverse_reverse]

/-- A text that neither begins nor ends with a blank is left as it is. -/
theorem trim_of_ends {text : List Char}
    (first : ∀ c, text.head? = some c → isBlank c = false)
    (last : ∀ c, text.getLast? = some c → isBlank c = false) : trim text = text := by
  rw [trim, trimLeft_of_head first, trimRight_of_last last]

/-- A text without blanks is left as it is. -/
theorem trim_of_no_blank {text : List Char} (h : ∀ c ∈ text, isBlank c = false) :
    trim text = text :=
  trim_of_ends (fun c hc => h c (List.mem_of_head? hc))
    (fun c hc => h c (List.mem_of_getLast? hc))

end Formulary.Text
