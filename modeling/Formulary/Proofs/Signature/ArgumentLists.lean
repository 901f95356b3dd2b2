import Formulary.Proofs.Signature.Shape
import Formulary.Proofs.Text.Trimming

/-!
# Argument lists

Between the parentheses of a signature there are identifiers, with commas between
them and with blanks around all of these.  This module writes such a list down as
the tree of its parts and takes it apart again.

Main results:

- Definition `ArgumentList`: blanks alone, or arguments between blanks.
- Theorem `map_trim_pieces_listedText`: the pieces between the commas are the
  identifiers of a list.
- Theorem `exists_listedText`: pieces that are identifiers between blanks make a
  list.
- Theorem `ArgumentList.text_injective`: a list is written in one way.
-/

namespace Formulary

open Text

/-! ## Parts -/

/-- A run of blanks, which may be empty. -/
abbrev Gap := { text : List Char // AllBlank text }

/-- A text that is an identifier. -/
abbrev Identifier := { text : List Char // isIdentifier text = true }

variable {rest behind : List Char}

/-- Blanks are in no identifier. -/
theorem not_rest_of_isBlank {c : Char} (blank : isBlank c = true) : isIdentifierRest c = false := by
  cases inside : isIdentifierRest c with
  | false => rfl
  | true =>
    rw [not_isBlank_of_rest inside] at blank
    cases blank

/-- A mark does not go on a run of characters of another sort. -/
theorem stops_cons {sort : Char → Bool} {mark : Char} (differs : sort mark = false)
    (rest : List Char) : Stops sort (mark :: rest) := by
  intro c first
  rw [List.head?_cons, Option.some.injEq] at first
  rw [← first, differs]

namespace Identifier

theorem ne_nil (name : Identifier) : name.val ≠ [] := by
  obtain ⟨text, identifier⟩ := name
  rintro rfl
  cases identifier

theorem not_isBlank_of_mem {name : Identifier} {c : Char} (member : c ∈ name.val) :
    isBlank c = false :=
  not_isBlank_of_rest (isIdentifierRest_of_mem name.property member)

/-- An identifier begins with a character that is not blank. -/
theorem stops (name : Identifier) (rest : List Char) : Stops isBlank (name.val ++ rest) := by
  intro c first
  cases own : name.val.head? with
  | none => exact absurd (List.head?_eq_none_iff.1 own) name.ne_nil
  | some d =>
    rw [List.head?_append, own, Option.some_or] at first
    rw [first] at own
    exact not_isBlank_of_mem (List.mem_of_head? own)

/-- An identifier between blanks is what trimming leaves. -/
theorem trim_between (front back : Gap) (name : Identifier) :
    trim (front.val ++ (name.val ++ back.val)) = name.val :=
  trim_between_blanks front.property back.property
    (fun _ first => not_isBlank_of_mem (List.mem_of_head? first))
    (fun _ last => not_isBlank_of_mem (List.mem_of_getLast? last))

/-- Where an identifier ends, the text behind it begins. -/
theorem append_inj {name other : Identifier} (stops : Stops isIdentifierRest rest)
    (other_stops : Stops isIdentifierRest behind)
    (same : name.val ++ rest = other.val ++ behind) : name = other ∧ rest = behind := by
  obtain ⟨names, texts⟩ := append_inj_of_stops (fun _ => isIdentifierRest_of_mem name.property)
    stops (fun _ => isIdentifierRest_of_mem other.property) other_stops same
  exact ⟨Subtype.ext names, texts⟩

end Identifier

namespace Gap

/-- No blank at all. -/
def empty : Gap :=
  ⟨[], fun _ member => absurd member List.not_mem_nil⟩

theorem not_mem (gap : Gap) {c : Char} (nonblank : isBlank c = false) : c ∉ gap.val := by
  intro inside
  rw [gap.property c inside] at nonblank
  cases nonblank

/-- Blanks, and what does not go on with an identifier, do not go on with one. -/
theorem stops (gap : Gap) (stops : Stops isIdentifierRest rest) :
    Stops isIdentifierRest (gap.val ++ rest) := by
  obtain ⟨text, blanks⟩ := gap
  cases text with
  | nil => exact stops
  | cons d more =>
    intro c first
    rw [List.cons_append, List.head?_cons, Option.some.injEq] at first
    rw [← first]
    exact not_rest_of_isBlank (blanks d List.mem_cons_self)

/-- Blanks do not go on with an identifier, and neither does a comma behind them. -/
theorem stops_end (gap : Gap) : Stops isIdentifierRest gap.val := by
  have stops := @Gap.stops [] gap fun c first => by cases first
  rwa [List.append_nil] at stops

theorem stops_comma (gap : Gap) (rest : List Char) :
    Stops isIdentifierRest (gap.val ++ ',' :: rest) :=
  gap.stops (stops_cons (by decide) rest)

/-- A comma is not blank. -/
theorem ne_append_comma (gap front : Gap) (rest : List Char) :
    gap.val ≠ front.val ++ ',' :: rest := by
  intro ends
  refine gap.not_mem (c := ',') (by decide) ?_
  rw [ends]
  exact List.mem_append_right _ List.mem_cons_self

/-- Where blanks end, the text behind them begins. -/
theorem append_inj {gap other : Gap} (stops : Stops isBlank rest)
    (other_stops : Stops isBlank behind) (same : gap.val ++ rest = other.val ++ behind) :
    gap = other ∧ rest = behind := by
  obtain ⟨gaps, texts⟩ := append_inj_of_stops gap.property stops other.property other_stops same
  exact ⟨Subtype.ext gaps, texts⟩

end Gap

/-! ## Arguments one after another -/

/-- A further argument: a comma between blanks, and an identifier. -/
structure FurtherArgument where
  front : Gap
  back : Gap
  name : Identifier

/-- A further argument as it is written. -/
def FurtherArgument.text (argument : FurtherArgument) : List Char :=
  argument.front.val ++ ',' :: (argument.back.val ++ argument.name.val)

/-- Arguments as they are written, from the first to the last identifier. -/
def listedText (first : Identifier) (more : List FurtherArgument) : List Char :=
  first.val ++ more.flatMap FurtherArgument.text

/-- A second argument is the first of those behind a comma. -/
theorem listedText_cons (first : Identifier) (next : FurtherArgument)
    (more : List FurtherArgument) :
    listedText first (next :: more) =
      first.val ++ (next.front.val ++ ',' :: (next.back.val ++ listedText next.name more)) := by
  simp [listedText, FurtherArgument.text]

theorem listedText_nil (first : Identifier) : listedText first [] = first.val :=
  List.append_nil _

theorem listedText_ne_nil (first : Identifier) (more : List FurtherArgument) :
    listedText first more ≠ [] :=
  List.append_ne_nil_of_left_ne_nil first.ne_nil _

/-- A list of arguments begins with an identifier. -/
theorem stops_listedText (first : Identifier) (more : List FurtherArgument) (rest : List Char) :
    Stops isBlank (listedText first more ++ rest) := by
  rw [listedText, List.append_assoc]
  exact first.stops _

/-- It ends with one, too. -/
theorem not_isBlank_of_getLast?_listedText {first : Identifier} {more : List FurtherArgument}
    {c : Char} (last : (listedText first more).getLast? = some c) : isBlank c = false := by
  induction more generalizing first with
  | nil =>
    rw [listedText_nil] at last
    exact Identifier.not_isBlank_of_mem (List.mem_of_getLast? last)
  | cons next more ih =>
    have behind : (listedText next.name more).getLast? = some c := by
      cases own : (listedText next.name more).getLast? with
      | none => exact absurd (List.getLast?_eq_none_iff.1 own) (listedText_ne_nil _ _)
      | some d => simpa [listedText_cons, List.getLast?_append, List.getLast?_cons, own] using last
    exact ih behind

/-- Arguments are listed in one way: their identifiers and gaps are found again,
and what stands behind them. -/
theorem listedText_append_inj {first other : Identifier} {more others : List FurtherArgument}
    {back behind : Gap}
    (same : listedText first more ++ back.val = listedText other others ++ behind.val) :
    first = other ∧ more = others ∧ back = behind := by
  -- on the first list; the second one has to end where it ends
  induction more generalizing first other others with
  | nil =>
    rw [listedText_nil] at same
    cases others with
    | nil =>
      rw [listedText_nil] at same
      obtain ⟨names, gaps⟩ := Identifier.append_inj back.stops_end behind.stops_end same
      exact ⟨names, rfl, Subtype.ext gaps⟩
    | cons next others =>
      rw [listedText_cons, List.append_assoc, List.append_assoc, List.cons_append] at same
      have blanks := (Identifier.append_inj back.stops_end (Gap.stops_comma _ _) same).2
      exact absurd blanks (Gap.ne_append_comma _ _ _)
  | cons next more ih =>
    rw [listedText_cons, List.append_assoc, List.append_assoc, List.cons_append,
      List.append_assoc] at same
    cases others with
    | nil =>
      rw [listedText_nil] at same
      have blanks := (Identifier.append_inj (Gap.stops_comma _ _) behind.stops_end same).2
      exact absurd blanks.symm (Gap.ne_append_comma _ _ _)
    | cons another others =>
      rw [listedText_cons, List.append_assoc, List.append_assoc, List.cons_append,
        List.append_assoc] at same
      obtain ⟨names, tails⟩ := Identifier.append_inj (Gap.stops_comma _ _) (Gap.stops_comma _ _) same
      obtain ⟨fronts, commas⟩ := Gap.append_inj (stops_cons (by decide) _)
        (stops_cons (by decide) _) tails
      rw [List.cons.injEq] at commas
      obtain ⟨backs, lists⟩ := Gap.append_inj (stops_listedText _ _ _) (stops_listedText _ _ _)
        commas.2
      obtain ⟨inner, rests, gaps⟩ := ih lists
      obtain ⟨front, gap, name⟩ := next
      obtain ⟨front', gap', name'⟩ := another
      dsimp only at fronts backs inner
      subst fronts backs inner rests
      exact ⟨names, rfl, gaps⟩

/-- The pieces between the commas are the identifiers of the list, each between
blanks. -/
theorem map_trim_pieces_listedText (front : Gap) (first : Identifier)
    (more : List FurtherArgument) :
    (pieces ',' (front.val ++ listedText first more)).map trim =
      first.val :: more.map (·.name.val) := by
  have no_comma : ∀ gap : Gap, ',' ∉ gap.val := fun gap => gap.not_mem (by decide)
  have outside : ∀ name : Identifier, ',' ∉ name.val := fun name =>
    not_mem_of_isIdentifier name.property (by decide)
  induction more generalizing front first with
  | nil =>
    have alone : ',' ∉ front.val ++ first.val := by
      rw [List.mem_append, not_or]
      exact ⟨no_comma front, outside first⟩
    have trimmed : trim (front.val ++ (first.val ++ [])) = first.val :=
      first.trim_between front Gap.empty
    rw [List.append_nil] at trimmed
    rw [listedText_nil, pieces_of_not_mem alone, List.map_singleton, trimmed, List.map_nil]
  | cons next more ih =>
    have alone : ',' ∉ front.val ++ (first.val ++ next.front.val) := by
      rw [List.mem_append, List.mem_append, not_or, not_or]
      exact ⟨no_comma front, outside first, no_comma next.front⟩
    have assoc : front.val ++ listedText first (next :: more) =
        front.val ++ (first.val ++ next.front.val) ++
          ',' :: (next.back.val ++ listedText next.name more) := by
      rw [listedText_cons, List.append_assoc, List.append_assoc]
    rw [assoc, pieces_append alone, List.map_cons, first.trim_between front next.front, ih,
      List.map_cons]

/-- Pieces that are identifiers between blanks, joined by commas, are a list of these
identifiers between blanks. -/
theorem exists_listedText {piece : List Char} {others : List (List Char)}
    (identifiers : ∀ text ∈ piece :: others, isIdentifier (trim text) = true) :
    ∃ (front : Gap) (first : Identifier) (more : List FurtherArgument) (back : Gap),
      [','].intercalate (piece :: others) = front.val ++ (listedText first more ++ back.val) ∧
      first.val :: more.map (·.name.val) = (piece :: others).map trim := by
  induction others generalizing piece with
  | nil =>
    obtain ⟨front, back, blank_front, blank_back, whole⟩ := exists_blanks_append piece
    refine ⟨⟨front, blank_front⟩, ⟨trim piece, identifiers piece List.mem_cons_self⟩, [],
      ⟨back, blank_back⟩, ?_, rfl⟩
    rw [List.intercalate_singleton, listedText_nil]
    exact whole
  | cons next others ih =>
    obtain ⟨front, back, blank_front, blank_back, whole⟩ := exists_blanks_append piece
    obtain ⟨gap, second, more, last, joined, names⟩ :=
      ih fun text member => identifiers text (List.mem_cons_of_mem _ member)
    refine ⟨⟨front, blank_front⟩, ⟨trim piece, identifiers piece List.mem_cons_self⟩,
      ⟨⟨back, blank_back⟩, gap, second⟩ :: more, last, ?_, congrArg _ names⟩
    have regrouped : front ++ (trim piece ++ back) ++
          ',' :: (gap.val ++ (listedText second more ++ last.val)) =
        front ++ (trim piece ++ (back ++ ',' :: (gap.val ++ listedText second more)) ++
          last.val) := by
      simp only [List.append_assoc, List.cons_append]
    rw [List.intercalate_cons_cons, joined, listedText_cons, ← regrouped, ← whole,
      List.append_assoc, List.singleton_append]

/-! ## Argument lists -/

/-- What stands between the parentheses: blanks alone, or arguments between
blanks. -/
inductive ArgumentList
  | none (gap : Gap)
  | some (front : Gap) (first : Identifier) (more : List FurtherArgument) (back : Gap)

namespace ArgumentList

/-- An argument list as it is written. -/
def text : ArgumentList → List Char
  | none gap => gap.val
  | some front first more back => front.val ++ (listedText first more ++ back.val)

/-- The arguments of the list in order. -/
def names : ArgumentList → List (List Char)
  | none _ => []
  | some _ first more _ => first.val :: more.map (·.name.val)

/-- An argument list is made of blanks, commas and identifiers. -/
theorem mem_text {list : ArgumentList} {c : Char} (member : c ∈ list.text) :
    isBlank c = true ∨ c = ',' ∨ isIdentifierRest c = true := by
  have gap : ∀ {gap : Gap}, c ∈ gap.val → isBlank c = true := fun {gap} inside =>
    gap.property c inside
  have name : ∀ {name : Identifier}, c ∈ name.val → isIdentifierRest c = true :=
    fun {name} inside => isIdentifierRest_of_mem name.property inside
  cases list with
  | none blanks => exact .inl (gap member)
  | some front first more back =>
    simp only [text, listedText, FurtherArgument.text, List.mem_append, List.mem_flatMap,
      List.mem_cons] at member
    rcases member with here | (here | ⟨argument, -, here | here | here | here⟩) | here
    · exact .inl (gap here)
    · exact .inr (.inr (name here))
    · exact .inl (gap here)
    · exact .inr (.inl here)
    · exact .inl (gap here)
    · exact .inr (.inr (name here))
    · exact .inl (gap here)

/-- There are no parentheses in an argument list. -/
theorem not_mem_text (list : ArgumentList) {c : Char} (nonblank : isBlank c = false)
    (comma : c ≠ ',') (outside : isIdentifierRest c = false) : c ∉ list.text := by
  intro member
  rcases mem_text member with blank | same | inside
  · rw [nonblank] at blank
    cases blank
  · exact comma same
  · rw [outside] at inside
    cases inside

/-- An argument list is written in one way. -/
theorem text_injective {list other : ArgumentList} (same : list.text = other.text) :
    list = other := by
  -- blanks alone hold no identifier
  have no_name : ∀ {gap front back : Gap} {first : Identifier} {more : List FurtherArgument},
      gap.val ≠ front.val ++ (listedText first more ++ back.val) := by
    intro gap front back first more blanks
    obtain ⟨d, own⟩ := List.exists_mem_of_ne_nil _ first.ne_nil
    refine gap.not_mem (Identifier.not_isBlank_of_mem own) ?_
    rw [blanks, listedText, List.append_assoc]
    exact List.mem_append_right _ (List.mem_append_left _ own)
  cases list with
  | none gap =>
    cases other with
    | none gap' => exact congrArg none (Subtype.ext same)
    | some front first more back => exact absurd same no_name
  | some front first more back =>
    cases other with
    | none gap => exact absurd same.symm no_name
    | some front' first' more' back' =>
      obtain ⟨rfl, lists⟩ := Gap.append_inj (stops_listedText _ _ _) (stops_listedText _ _ _) same
      obtain ⟨rfl, rfl, rfl⟩ := listedText_append_inj lists
      rfl

end ArgumentList

end Formulary
