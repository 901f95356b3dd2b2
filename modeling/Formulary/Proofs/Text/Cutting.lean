import Formulary.Proofs.Text.Trimming
import Formulary.Text.Pieces

/-!
# Cutting what was joined

Texts that do not hold a separator can be joined with it and cut again.

Main results:

- Theorems `before_append`, `after_append` and `beforeLast_append`: the two sides
  of one separator.
- Theorem `append_inj_of_stops`: where a run of characters of one sort ends, the
  text behind it begins.
- Theorems `pieces_of_not_mem` and `pieces_append`: the first piece of a text ends
  at the first separator.
- Theorem `map_trim_pieces_trim`: blanks around a text do not matter for its trimmed
  pieces.
-/

namespace Formulary.Text

variable {separator : Char} {front rest : List Char}

/-! ## One separator -/

/-- Every character of a text without the separator is passed over. -/
theorem passed_of_not_mem (h : separator ∉ front) : ∀ c ∈ front, (c != separator) = true := by
  intro c member
  rw [bne_iff_ne]
  rintro rfl
  exact h member

theorem before_append (h : separator ∉ front) :
    before separator (front ++ separator :: rest) = front := by
  have stops : (separator :: rest).takeWhile (· != separator) = [] := by simp
  rw [before, List.takeWhile_append_of_pos (passed_of_not_mem h), stops, List.append_nil]

theorem after_append (h : separator ∉ front) :
    after separator (front ++ separator :: rest) = rest := by
  have stops : (separator :: rest).dropWhile (· != separator) = separator :: rest := by simp
  rw [after, List.dropWhile_append_of_pos (passed_of_not_mem h), stops, List.drop_one,
    List.tail_cons]

/-- Nothing lies behind a separator that is not there. -/
theorem after_of_not_mem (h : separator ∉ front) : after separator front = [] := by
  have passed : (front ++ []).dropWhile (· != separator) = [] :=
    List.dropWhile_append_of_pos (passed_of_not_mem h)
  rw [List.append_nil] at passed
  rw [after, passed]
  rfl

/-- The last separator is the first one from behind. -/
theorem beforeLast_eq_reverse_after (separator : Char) (text : List Char) :
    beforeLast separator text = (after separator text.reverse).reverse :=
  rfl

theorem beforeLast_append (h : separator ∉ rest) :
    beforeLast separator (front ++ separator :: rest) = front := by
  have reversed : (front ++ separator :: rest).reverse =
      rest.reverse ++ separator :: front.reverse := by
    rw [List.reverse_append, List.reverse_cons, List.append_assoc, List.singleton_append]
  rw [beforeLast_eq_reverse_after, reversed, after_append (mt List.mem_reverse.1 h),
    List.reverse_reverse]

/-! ## Runs of one sort -/

/-- A text does not go on with a character of a sort. -/
def Stops (sort : Char → Bool) (text : List Char) : Prop :=
  ∀ c, text.head? = some c → sort c = false

/-- A run of characters of one sort is all of that sort that a text begins with. -/
theorem takeWhile_append_of_stops {sort : Char → Bool} (run : ∀ c ∈ front, sort c = true)
    (stops : Stops sort rest) : (front ++ rest).takeWhile sort = front := by
  rw [List.takeWhile_append_of_pos run]
  cases rest with
  | nil => simp
  | cons c rest => rw [List.takeWhile_cons_of_neg (by simp [stops c rfl]), List.append_nil]

/-- Where a run of characters of one sort ends, the text behind it begins. -/
theorem append_inj_of_stops {sort : Char → Bool} {other behind : List Char}
    (run : ∀ c ∈ front, sort c = true) (stops : Stops sort rest)
    (other_run : ∀ c ∈ other, sort c = true) (other_stops : Stops sort behind)
    (same : front ++ rest = other ++ behind) : front = other ∧ rest = behind := by
  have runs := congrArg (List.takeWhile sort) same
  rw [takeWhile_append_of_stops run stops, takeWhile_append_of_stops other_run other_stops] at runs
  subst runs
  exact ⟨rfl, List.append_cancel_left same⟩

/-! ## Every separator -/

/-- A text without the separator is its only piece. -/
theorem pieces_of_not_mem (h : separator ∉ front) : pieces separator front = [front] := by
  induction front with
  | nil => rfl
  | cons c front ih =>
    obtain ⟨differs, h⟩ := not_or.1 (mt List.mem_cons.2 h)
    rw [pieces, if_neg (Ne.symm differs), ih h]

/-- A text without the separator is the first piece in front of one. -/
theorem pieces_append (h : separator ∉ front) :
    pieces separator (front ++ separator :: rest) = front :: pieces separator rest := by
  induction front with
  | nil => rw [List.nil_append, pieces, if_pos rfl]
  | cons c front ih =>
    obtain ⟨differs, h⟩ := not_or.1 (mt List.mem_cons.2 h)
    rw [List.cons_append, pieces, if_neg (Ne.symm differs), ih h]

/-- Blanks around a text go to its first and its last piece, and are trimmed there. -/
theorem map_trim_pieces_between (outside : isBlank separator = false) {back : List Char}
    (blank_front : AllBlank front) (blank_back : AllBlank back) (text : List Char) :
    (pieces separator (front ++ (text ++ back))).map trim = (pieces separator text).map trim := by
  have not_mem : ∀ {blanks : List Char}, AllBlank blanks → separator ∉ blanks := by
    intro blanks all_blank member
    rw [all_blank separator member] at outside
    cases outside
  have no_blanks : AllBlank [] := fun _ none => by cases none
  -- on the length of the text, since what lies behind a separator is shorter
  induction length : text.length using Nat.strongRecOn generalizing front text with
  | ind n ih =>
    by_cases cut : separator ∈ text
    · have halves := eq_before_append_after cut
      have first := not_mem_before separator text
      generalize before separator text = piece at halves first
      generalize after separator text = rest at halves
      subst halves
      have whole : front ++ (piece ++ separator :: rest ++ back) =
          front ++ piece ++ separator :: ([] ++ (rest ++ back)) := by simp
      have alone : separator ∉ front ++ piece := by
        rw [List.mem_append, not_or]
        exact ⟨not_mem blank_front, first⟩
      have trimmed : trim (front ++ piece) = trim piece := by
        simpa using trim_append_blanks blank_front no_blanks piece
      rw [whole, pieces_append alone, pieces_append first, List.map_cons, List.map_cons, trimmed,
        ih rest.length (by simp at length; omega) no_blanks rest rfl]
    · have alone : separator ∉ front ++ (text ++ back) := by
        rw [List.mem_append, List.mem_append, not_or, not_or]
        exact ⟨not_mem blank_front, cut, not_mem blank_back⟩
      rw [pieces_of_not_mem alone, pieces_of_not_mem cut, List.map_singleton, List.map_singleton,
        trim_append_blanks blank_front blank_back]

/-- A text has the same trimmed pieces before and after it is trimmed. -/
theorem map_trim_pieces_trim (outside : isBlank separator = false) (text : List Char) :
    (pieces separator (trim text)).map trim = (pieces separator text).map trim := by
  obtain ⟨first, last, blank_first, blank_last, whole⟩ := exists_blanks_append text
  have same := map_trim_pieces_between outside blank_first blank_last (trim text)
  rw [← whole] at same
  exact same.symm

end Formulary.Text
