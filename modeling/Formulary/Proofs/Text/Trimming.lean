import Formulary.Text.Blank

/-!
# What trimming leaves

Trimming takes blanks away at both ends and nothing else.  This module says what
a text is made of besides its trimmed part, and that nothing is left to trim.

Main results:

- Theorem `exists_blanks_append`: a text is its trimmed part between blanks.
- Theorem `trim_between_blanks`: blanks around a text without blanks at its ends
  are trimmed.
- Theorem `trim_append_blanks`: blanks around a text do not matter.
- Theorem `trim_trim`: what was trimmed has nothing to trim.
-/

namespace Formulary.Text

/-- All characters are blanks. -/
def AllBlank (text : List Char) : Prop :=
  ∀ c ∈ text, isBlank c = true

variable {text front back : List Char}

theorem AllBlank.append (first : AllBlank front) (second : AllBlank back) :
    AllBlank (front ++ back) := by
  intro c member
  rcases List.mem_append.1 member with here | there
  · exact first c here
  · exact second c there

theorem AllBlank.reverse (blanks : AllBlank text) : AllBlank text.reverse :=
  fun c member => blanks c (List.mem_reverse.1 member)

/-! ## Each end -/

theorem trimLeft_append (blanks : AllBlank front) (text : List Char) :
    trimLeft (front ++ text) = trimLeft text :=
  List.dropWhile_append_of_pos blanks

/-- The right end is the left end of the reversed text. -/
theorem trimRight_eq_reverse_trimLeft (text : List Char) :
    trimRight text = (trimLeft text.reverse).reverse :=
  rfl

theorem trimRight_append (blanks : AllBlank back) (text : List Char) :
    trimRight (text ++ back) = trimRight text := by
  rw [trimRight_eq_reverse_trimLeft, List.reverse_append, trimLeft_append blanks.reverse]
  rfl

/-- What is dropped at the left end are blanks. -/
theorem exists_trimLeft (text : List Char) :
    ∃ front, AllBlank front ∧ text = front ++ trimLeft text := by
  refine ⟨text.takeWhile isBlank, ?_, List.takeWhile_append_dropWhile.symm⟩
  intro c member
  exact (List.all_eq_true.1 List.all_takeWhile) c member

theorem exists_trimRight (text : List Char) :
    ∃ back, AllBlank back ∧ text = trimRight text ++ back := by
  obtain ⟨back, blanks, reversed⟩ := exists_trimLeft text.reverse
  refine ⟨back.reverse, blanks.reverse, ?_⟩
  rw [trimRight_eq_reverse_trimLeft, ← List.reverse_append, ← reversed, List.reverse_reverse]

theorem not_isBlank_of_head?_trimLeft {c : Char} (first : (trimLeft text).head? = some c) :
    isBlank c = false := by
  have stops := List.head?_dropWhile_not isBlank text
  rw [trimLeft] at first
  rw [first] at stops
  simpa using stops

/-! ## Both ends -/

/-- A text is its trimmed part between blanks. -/
theorem exists_blanks_append (text : List Char) :
    ∃ front back, AllBlank front ∧ AllBlank back ∧ text = front ++ (trim text ++ back) := by
  obtain ⟨front, blank_front, left⟩ := exists_trimLeft text
  obtain ⟨back, blank_back, right⟩ := exists_trimRight (trimLeft text)
  refine ⟨front, back, blank_front, blank_back, ?_⟩
  rw [trim, ← right, ← left]

/-- A trimmed text does not begin with a blank. -/
theorem not_isBlank_of_head?_trim {c : Char} (first : (trim text).head? = some c) :
    isBlank c = false := by
  obtain ⟨back, -, left⟩ := exists_trimRight (trimLeft text)
  have same : (trimLeft text).head? = some c := by
    rw [left, ← trim, List.head?_append, first, Option.some_or]
  exact not_isBlank_of_head?_trimLeft same

/-- Nor does it end with one. -/
theorem not_isBlank_of_getLast?_trim {c : Char} (last : (trim text).getLast? = some c) :
    isBlank c = false := by
  rw [trim, trimRight_eq_reverse_trimLeft, List.getLast?_reverse] at last
  exact not_isBlank_of_head?_trimLeft last

/-- What was trimmed has nothing to trim. -/
theorem trim_trim (text : List Char) : trim (trim text) = trim text :=
  trim_of_ends (fun _ => not_isBlank_of_head?_trim) (fun _ => not_isBlank_of_getLast?_trim)

/-- Nothing is left of blanks. -/
theorem trim_eq_nil_iff : trim text = [] ↔ AllBlank text := by
  constructor
  · intro nothing
    obtain ⟨front, back, blank_front, blank_back, whole⟩ := exists_blanks_append text
    rw [nothing, List.nil_append] at whole
    rw [whole]
    exact blank_front.append blank_back
  · intro blanks
    have nothing := trimLeft_append blanks []
    rw [List.append_nil] at nothing
    rw [trim, nothing]
    rfl

/-- Blanks around a text that neither begins nor ends with one are trimmed. -/
theorem trim_between_blanks (blank_front : AllBlank front) (blank_back : AllBlank back)
    (first : ∀ c, text.head? = some c → isBlank c = false)
    (last : ∀ c, text.getLast? = some c → isBlank c = false) :
    trim (front ++ (text ++ back)) = text := by
  rw [trim, trimLeft_append blank_front]
  cases text with
  | nil =>
    rw [List.nil_append]
    exact trim_eq_nil_iff.2 blank_back
  | cons c rest =>
    have kept : trimLeft (c :: rest ++ back) = c :: rest ++ back :=
      trimLeft_of_head fun d here => first d here
    rw [kept, trimRight_append blank_back, trimRight_of_last last]

/-- Blanks around a text do not change what trimming leaves of it. -/
theorem trim_append_blanks (blank_front : AllBlank front) (blank_back : AllBlank back)
    (text : List Char) : trim (front ++ (text ++ back)) = trim text := by
  obtain ⟨first, last, blank_first, blank_last, whole⟩ := exists_blanks_append text
  have regrouped : front ++ (text ++ back) = front ++ first ++ (trim text ++ (last ++ back)) :=
    calc front ++ (text ++ back)
      _ = front ++ (first ++ (trim text ++ last) ++ back) := by rw [← whole]
      _ = front ++ first ++ (trim text ++ (last ++ back)) := by simp only [List.append_assoc]
  rw [regrouped]
  exact trim_between_blanks (blank_front.append blank_first) (blank_last.append blank_back)
    (fun _ => not_isBlank_of_head?_trim) (fun _ => not_isBlank_of_getLast?_trim)

end Formulary.Text
