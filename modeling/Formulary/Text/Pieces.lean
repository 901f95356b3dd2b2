/-!
# Cutting texts

This module cuts a text at every occurrence of a character, at its first
occurrence and at its last one, and lists texts in brackets.

Main results:

- Theorem `intercalate_pieces`: joining the pieces with the separator gives the
  text.
- Theorem `not_mem_of_mem_pieces`: no piece holds the separator.
- Theorem `listing_of_ne_nil`: texts are listed in their order, with nothing but quotes
  and commas between them.
-/

namespace Formulary.Text

/-! ## Cutting at every separator -/

/-- The pieces between the occurrences of `separator`, of which there is one
more than there are occurrences. -/
def pieces (separator : Char) : List Char → List (List Char)
  | [] => [[]]
  | c :: rest =>
    if c = separator then [] :: pieces separator rest
    else match pieces separator rest with
      | [] => [[c]]
      | piece :: more => (c :: piece) :: more

/-- There is always a first piece. -/
theorem pieces_ne_nil (separator : Char) (text : List Char) :
    pieces separator text ≠ [] := by
  cases text with
  | nil => simp [pieces]
  | cons c rest =>
    simp only [pieces]
    split
    · simp
    · split <;> simp

/-- Joining the pieces with the separator gives the text. -/
theorem intercalate_pieces (separator : Char) (text : List Char) :
    [separator].intercalate (pieces separator text) = text := by
  induction text with
  | nil => rfl
  | cons c rest ih =>
    simp only [pieces]
    cases hp : pieces separator rest with
    | nil => exact absurd hp (pieces_ne_nil separator rest)
    | cons piece more =>
      rw [hp] at ih
      split
      · next h => simpa [List.intercalate, h] using ih
      · cases more <;> simpa [List.intercalate] using ih

/-- No piece holds the separator. -/
theorem not_mem_of_mem_pieces {separator : Char} {text piece : List Char}
    (h : piece ∈ pieces separator text) : separator ∉ piece := by
  induction text generalizing piece with
  | nil => simp_all [pieces]
  | cons c rest ih =>
    simp only [pieces] at h
    split at h
    · rcases List.mem_cons.1 h with rfl | h
      · simp
      · exact ih h
    · next hc =>
      split at h
      · exact absurd ‹_› (pieces_ne_nil separator rest)
      · next first more hp =>
        rw [hp] at ih
        rcases List.mem_cons.1 h with rfl | h
        · have := ih List.mem_cons_self
          simp [this, Ne.symm hc]
        · exact ih (List.mem_cons_of_mem _ h)

/-! ## Cutting at one separator -/

/-- The part in front of the first `separator`, or the whole text. -/
def before (separator : Char) (text : List Char) : List Char :=
  text.takeWhile (· != separator)

/-- The part behind the first `separator`, or nothing. -/
def after (separator : Char) (text : List Char) : List Char :=
  (text.dropWhile (· != separator)).drop 1

/-- The part in front of the last `separator`, or nothing. -/
def beforeLast (separator : Char) (text : List Char) : List Char :=
  ((text.reverse.dropWhile (· != separator)).drop 1).reverse

/-- A text without the separator lies in front of it. -/
theorem before_of_not_mem {separator : Char} {text : List Char} (h : separator ∉ text) :
    before separator text = text := by
  induction text with
  | nil => rfl
  | cons c rest ih =>
    simp only [List.mem_cons, not_or] at h
    have hne : (c != separator) = true := by simpa using Ne.symm h.1
    simp only [before, List.takeWhile_cons, hne, if_true] at ih ⊢
    rw [ih h.2]

/-- The part in front of the first separator does not hold it. -/
theorem not_mem_before (separator : Char) (text : List Char) :
    separator ∉ before separator text := by
  induction text with
  | nil => simp [before]
  | cons c rest ih =>
    simp only [before, List.takeWhile_cons] at ih ⊢
    split
    · next h => simp only [bne_iff_ne] at h; simp [ih, Ne.symm h]
    · simp

/-- A text is its part in front of the first separator, the separator, and the
part behind it. -/
theorem eq_before_append_after {separator : Char} {text : List Char} (h : separator ∈ text) :
    text = before separator text ++ separator :: after separator text := by
  induction text with
  | nil => simp at h
  | cons c rest ih =>
    simp only [before, after, List.takeWhile_cons, List.dropWhile_cons] at ih ⊢
    by_cases hc : c = separator
    · simp [hc]
    · have := ih (by simpa [Ne.symm hc] using h)
      have hne : (c != separator) = true := by simpa using hc
      simp only [hne, if_true, List.cons_append]
      exact congrArg _ this

/-! ## Listing texts -/

/-- Texts in quotes and brackets, such as `['a', 'b']`.  The texts listed are
made of identifiers, parentheses and commas, so nothing in them needs a mark. -/
def listing (texts : List String) : String :=
  "[" ++ ", ".intercalate (texts.map fun text => "'" ++ text ++ "'") ++ "]"

/-- Between the first bracket with a quote and the last one, the texts stand in their
order, with the quotes and a comma between every two. -/
theorem listing_of_ne_nil {texts : List String} (some_text : texts ≠ []) :
    listing texts = "['" ++ "', '".intercalate texts ++ "']" := by
  have quoted : ", ".intercalate (texts.map fun text => "'" ++ text ++ "'") =
      "'" ++ "', '".intercalate texts ++ "'" := by
    induction texts with
    | nil => exact absurd rfl some_text
    | cons first rest ih =>
      cases rest with
      | nil => simp
      | cons second rest =>
        have between : "', '" = "'" ++ ", " ++ "'" := rfl
        have others := ih (List.cons_ne_nil second rest)
        rw [List.map_cons] at others
        rw [List.map_cons, List.map_cons, String.intercalate_cons_cons, others,
          String.intercalate_cons_cons, between]
        simp only [String.append_assoc]
  have opening : "['" = "[" ++ "'" := rfl
  have closing : "']" = "'" ++ "]" := rfl
  rw [listing, quoted, opening, closing]
  simp only [String.append_assoc]

end Formulary.Text
