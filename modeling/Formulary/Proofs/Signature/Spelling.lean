import Formulary.Proofs.Signature.ArgumentLists

/-!
# Spellings of signatures

Blanks may stand between the parts of a signature.  This module writes down all
spellings of signatures, each as the tree of its parts.  The reader accepts exactly
these, apart from repeated arguments, and no text is spelled in two ways.

Main results:

- Definition `Signature.Spelling`: a name, and an argument list in parentheses if
  there is one.
- Theorem `Signature.Spelling.text_injective`: a text has one spelling at most.
- Theorems `Signature.nameIn_text_spelling` and
  `Signature.argumentsIn_text_spelling`: what is taken out of a spelling.
- Theorem `Signature.exists_spelling_of_read`: whatever is read is spelled.
- Theorem `Signature.read_spellings`: the reader accepts exactly the spellings of
  distinct arguments.
- Theorem `Signature.read_text`: a well-formed signature is read from its own
  spelling.
-/

namespace Formulary

open Text

/-! ## Spellings -/

namespace Signature

/-- A way to write a signature: a name alone, or a name and an argument list in
parentheses. -/
inductive Spelling
  | bare (name : Identifier)
  | call (name : Identifier) (gap : Gap) (list : ArgumentList)

namespace Spelling

/-- A spelling as a text. -/
def text : Spelling → List Char
  | bare name => name.val
  | call name gap list => name.val ++ gap.val ++ '(' :: (list.text ++ [')'])

/-- The name in front. -/
def name : Spelling → List Char
  | bare name => name.val
  | call name _ _ => name.val

/-- The arguments in order. -/
def arguments : Spelling → List (List Char)
  | bare _ => []
  | call _ _ list => list.names

/-- The signature that is spelled. -/
def signature (spelling : Spelling) : Signature :=
  ⟨String.ofList spelling.name, spelling.arguments.map String.ofList⟩

theorem isIdentifier_name (spelling : Spelling) : isIdentifier spelling.name = true := by
  cases spelling with
  | bare name => exact name.property
  | call name gap list => exact name.property

theorem isIdentifier_of_mem_arguments {spelling : Spelling} {argument : List Char}
    (listed : argument ∈ spelling.arguments) : isIdentifier argument = true := by
  rcases spelling with name | ⟨name, gap, blanks | ⟨front, first, more, back⟩⟩
  · cases listed
  · cases listed
  · rcases List.mem_cons.1 listed with rfl | later
    · exact first.property
    · obtain ⟨further, -, rfl⟩ := List.mem_map.1 later
      exact further.name.property

/-- There are no blanks at the ends of a spelling. -/
theorem trim_text (spelling : Spelling) : trim spelling.text = spelling.text := by
  cases spelling with
  | bare name => exact trim_of_isIdentifier name.property
  | call name gap list =>
    refine trim_of_ends ?_ ?_
    · rw [text, List.append_assoc]
      exact name.stops _
    · intro c last
      rw [text, ← List.cons_append, ← List.append_assoc, List.getLast?_concat] at last
      rw [← Option.some.inj last]
      decide

/-- A text has one spelling at most. -/
theorem text_injective {spelling other : Spelling} (same : spelling.text = other.text) :
    spelling = other := by
  have no_opening : ∀ {name other : Identifier} {gap : Gap} {list : ArgumentList},
      name.val ≠ (call other gap list).text := by
    intro name other gap list names
    have inside : '(' ∈ name.val := by
      rw [names]
      exact List.mem_append_right _ List.mem_cons_self
    exact not_mem_of_isIdentifier name.property (by decide) inside
  cases spelling with
  | bare name =>
    cases other with
    | bare name' => exact congrArg bare (Subtype.ext same)
    | call name' gap list => exact absurd same no_opening
  | call name gap list =>
    cases other with
    | bare name' => exact absurd same.symm no_opening
    | call name' gap' list' =>
      rw [text, text, List.append_assoc, List.append_assoc] at same
      obtain ⟨rfl, gaps⟩ := Identifier.append_inj (gap.stops (stops_cons (by decide) _))
        (gap'.stops (stops_cons (by decide) _)) same
      obtain ⟨rfl, lists⟩ := Gap.append_inj (stops_cons (by decide) _)
        (stops_cons (by decide) _) gaps
      rw [List.cons.injEq] at lists
      rw [ArgumentList.text_injective (List.append_cancel_right lists.2)]

end Spelling

/-! ## Taking a spelling apart -/

section

variable {source : List Char} {spelling : Spelling}

/-- There are no parentheses in front of those around the argument list. -/
theorem not_mem_name_and_gap (name : Identifier) (gap : Gap) {c : Char}
    (nonblank : isBlank c = false) (outside : isIdentifierRest c = false) :
    c ∉ name.val ++ gap.val := by
  rw [List.mem_append, not_or]
  exact ⟨not_mem_of_isIdentifier name.property outside, gap.not_mem nonblank⟩

/-- The name that is taken out of a spelling is its name. -/
theorem nameIn_text_spelling (spelled : spelling.text = trim source) :
    nameIn source = spelling.name := by
  rw [nameIn, ← spelled]
  cases spelling with
  | bare name =>
    have opening : '(' ∉ name.val := not_mem_of_isIdentifier name.property (by decide)
    rw [Spelling.text, before_of_not_mem opening]
    exact trim_of_isIdentifier name.property
  | call name gap list =>
    rw [Spelling.text, before_append (not_mem_name_and_gap name gap (by decide) (by decide))]
    exact name.trim_between Gap.empty gap

/-- What stands between the parentheses is taken apart at its commas. -/
theorem argumentsIn_of_parenthesized {list : ArgumentList}
    (inside : parenthesized (trim source) = list.text) : argumentsIn source = list.names := by
  rw [argumentsIn, inside]
  cases list with
  | none gap =>
    have nothing : trim (ArgumentList.none gap).text = [] := trim_eq_nil_iff.2 gap.property
    rw [nothing]
    rfl
  | some front first more back =>
    have first_stops := stops_listedText first more []
    rw [List.append_nil] at first_stops
    have trimmed : trim (ArgumentList.some front first more back).text = listedText first more :=
      trim_between_blanks front.property back.property first_stops
        fun _ => not_isBlank_of_getLast?_listedText
    have pieces := map_trim_pieces_listedText Gap.empty first more
    rw [trimmed]
    split
    · next nothing => exact absurd nothing (listedText_ne_nil first more)
    · exact pieces

/-- The arguments that are taken out of a spelling are its arguments. -/
theorem argumentsIn_text_spelling (spelled : spelling.text = trim source) :
    argumentsIn source = spelling.arguments := by
  cases spelling with
  | bare name =>
    have opening : '(' ∉ name.val := not_mem_of_isIdentifier name.property (by decide)
    have nothing : parenthesized (trim source) = (ArgumentList.none Gap.empty).text := by
      rw [← spelled]
      exact parenthesized_of_not_mem opening
    exact argumentsIn_of_parenthesized nothing
  | call name gap list =>
    refine argumentsIn_of_parenthesized ?_
    rw [← spelled]
    exact parenthesized_of_shape (not_mem_name_and_gap name gap (by decide) (by decide))

/-! ## Finding a spelling -/

/-- The name in front of the parentheses is followed by blanks alone. -/
theorem exists_gap {front rest : List Char} (shape : trim source = front ++ rest) :
    ∃ gap : Gap, front = trim front ++ gap.val := by
  obtain ⟨blanks, back, blank_front, blank_back, whole⟩ := exists_blanks_append front
  refine ⟨⟨back, blank_back⟩, ?_⟩
  cases blanks with
  | nil => exact whole
  | cons c more =>
    -- the whole text was trimmed and does not begin with a blank
    have first : (trim source).head? = some c := by
      rw [shape, whole]
      rfl
    have blank := blank_front c List.mem_cons_self
    rw [not_isBlank_of_head?_trim first] at blank
    cases blank

/-- What stands between the parentheses is an argument list if all that is taken
out of it are identifiers. -/
theorem exists_argumentList
    (identifiers : ∀ argument ∈ argumentsIn source, isIdentifier argument = true) :
    ∃ list : ArgumentList, list.text = parenthesized (trim source) := by
  rw [argumentsIn] at identifiers
  generalize parenthesized (trim source) = inside at identifiers ⊢
  by_cases nothing : trim inside = []
  · exact ⟨.none ⟨inside, trim_eq_nil_iff.1 nothing⟩, rfl⟩
  · obtain ⟨front, back, blank_front, blank_back, whole⟩ := exists_blanks_append inside
    obtain ⟨piece, others, cut⟩ := List.exists_cons_of_ne_nil (pieces_ne_nil ',' (trim inside))
    have trimmed : ∀ text ∈ piece :: others, isIdentifier (trim text) = true := by
      intro text member
      rw [← cut] at member
      refine identifiers (trim text) ?_
      split
      · next empty => exact absurd empty nothing
      · exact List.mem_map_of_mem member
    obtain ⟨gap, first, more, last, joined, -⟩ := exists_listedText trimmed
    rw [← cut, intercalate_pieces] at joined
    refine ⟨.some ⟨front ++ gap.val, blank_front.append gap.property⟩ first more
      ⟨last.val ++ back, last.property.append blank_back⟩, ?_⟩
    rw [whole, joined]
    simp only [ArgumentList.text, List.append_assoc]

end

/-! ## The reader and the grammar -/

section

variable {source : String} {signature : Signature}

/-- Spellings of distinct arguments are read. -/
theorem read_of_spelling {spelling : Spelling} (spelled : spelling.text = trim source.toList)
    (distinct : spelling.arguments.Nodup) : read (some source) = .ok spelling.signature := by
  have name := nameIn_text_spelling spelled
  have arguments := argumentsIn_text_spelling spelled
  cases spelling with
  | bare identifier =>
    have named : isIdentifier (trim source.toList) = true := by
      rw [← spelled]
      exact identifier.property
    rw [read_of_isIdentifier named, ← spelled]
    rfl
  | call identifier gap list =>
    have no_parenthesis : ∀ c, isBlank c = false → c ≠ ',' → isIdentifierRest c = false →
        c ∉ identifier.val ++ gap.val ++ list.text := by
      intro c nonblank comma outside
      rw [List.mem_append, not_or]
      exact ⟨not_mem_name_and_gap identifier gap nonblank outside,
        list.not_mem_text nonblank comma outside⟩
    have accepted := read_of_shape spelled.symm
      (no_parenthesis '(' (by decide) (by decide) (by decide))
      (no_parenthesis ')' (by decide) (by decide) (by decide))
      (by rw [name]; exact Spelling.isIdentifier_name _)
      (by rw [arguments]; exact fun _ => Spelling.isIdentifier_of_mem_arguments)
      (by rw [arguments]; exact distinct)
    rw [accepted, name, arguments]
    rfl

/-- Whatever is read is spelled. -/
theorem exists_spelling_of_read (accepted : read (some source) = .ok signature) :
    ∃ spelling : Spelling, spelling.text = trim source.toList ∧ spelling.arguments.Nodup := by
  obtain ⟨named, ⟨opening, -⟩ | ⟨shaped, identifiers, distinct, -⟩⟩ := read_cases accepted
  · rw [nameIn, before_of_not_mem opening, trim_trim] at named
    exact ⟨.bare ⟨_, named⟩, rfl, List.nodup_nil⟩
  · obtain ⟨front, inside, shape, no_opening, -⟩ := exists_shape_of_isCallShaped shaped
    have no_opening := (not_or.1 (mt List.mem_append.2 no_opening)).1
    rw [nameIn, shape, before_append no_opening] at named
    obtain ⟨gap, name_and_gap⟩ := exists_gap shape
    obtain ⟨list, listed⟩ := exists_argumentList identifiers
    rw [shape, parenthesized_of_shape no_opening] at listed
    have spelled : (Spelling.call ⟨_, named⟩ gap list).text = trim source.toList := by
      rw [Spelling.text, ← name_and_gap, listed, shape]
    refine ⟨_, spelled, ?_⟩
    rw [← argumentsIn_text_spelling spelled]
    exact distinct

/-- A text is read exactly if it is, between blanks, a spelling of distinct
arguments.  It has one spelling then, and the signature that is read is the one
spelled: its name and its arguments are those that are taken out of the text.  All
other texts are refused. -/
theorem read_spellings (source : String) :
    (∀ signature, read (some source) = .ok signature ↔
      ∃ spelling : Spelling, spelling.text = trim source.toList ∧ spelling.arguments.Nodup ∧
        spelling.signature = signature) ∧
    (∀ spelling other : Spelling, spelling.text = trim source.toList →
      other.text = trim source.toList → spelling = other) ∧
    (∀ signature, read (some source) = .ok signature →
      String.ofList (nameIn source.toList) = signature.name ∧
      (argumentsIn source.toList).map String.ofList = signature.arguments) ∧
    ((¬ ∃ spelling : Spelling, spelling.text = trim source.toList ∧ spelling.arguments.Nodup) ↔
      ∃ error, read (some source) = .error error) := by
  have spelled : ∀ signature, read (some source) = .ok signature ↔
      ∃ spelling : Spelling, spelling.text = trim source.toList ∧ spelling.arguments.Nodup ∧
        spelling.signature = signature := by
    intro signature
    constructor
    · intro accepted
      obtain ⟨spelling, same, distinct⟩ := exists_spelling_of_read accepted
      have again := read_of_spelling same distinct
      exact ⟨spelling, same, distinct, Except.ok.inj (again.symm.trans accepted)⟩
    · rintro ⟨spelling, same, distinct, rfl⟩
      exact read_of_spelling same distinct
  refine ⟨spelled, ?_, ?_, ?_⟩
  · intro spelling other same same_other
    exact Spelling.text_injective (same.trans same_other.symm)
  · intro signature accepted
    obtain ⟨spelling, same, -, rfl⟩ := (spelled signature).1 accepted
    rw [nameIn_text_spelling same, argumentsIn_text_spelling same]
    exact ⟨rfl, rfl⟩
  · cases decided : read (some source) with
    | error error =>
      refine ⟨fun _ => ⟨error, rfl⟩, ?_⟩
      rintro - ⟨spelling, same, distinct⟩
      rw [read_of_spelling same distinct] at decided
      cases decided
    | ok signature =>
      obtain ⟨spelling, same, distinct, -⟩ := (spelled signature).1 decided
      constructor
      · intro unspelled
        exact absurd ⟨spelling, same, distinct⟩ unspelled
      · rintro ⟨error, refused⟩
        cases refused

/-- Blanks around all parts of `f(x,y)` change nothing. -/
theorem read_spellings_padded :
    read (some " f\t( x\n,y )") = .ok ⟨"f", ["x", "y"]⟩ ∧
      String.ofList (nameIn " f\t( x\n,y )".toList) = "f" ∧
      (argumentsIn " f\t( x\n,y )".toList).map String.ofList = ["x", "y"] := by
  have accepted : read (some " f\t( x\n,y )") = .ok ⟨"f", ["x", "y"]⟩ := by decide +kernel
  exact ⟨accepted, (read_spellings _).2.2.1 _ accepted⟩

end

/-! ## The written form -/

section

variable {name : String} {arguments : List String}

/-- The arguments as they are written between the parentheses. -/
def written (arguments : List String) : List Char :=
  [','].intercalate (arguments.map String.toList)

theorem toList_text (nonempty : arguments ≠ []) :
    (text ⟨name, arguments⟩).toList = name.toList ++ '(' :: (written arguments ++ [')']) := by
  cases arguments with
  | nil => exact absurd rfl nonempty
  | cons argument more => simp [text_of_arguments_cons, written]

/-- Identifiers are written as an argument list. -/
theorem exists_argumentList_written (nonempty : arguments ≠ [])
    (identifiers : ∀ argument ∈ arguments, isIdentifier argument.toList = true) :
    ∃ list : ArgumentList, list.text = written arguments ∧
      list.names = arguments.map String.toList := by
  have trimmed : (arguments.map String.toList).map trim = arguments.map String.toList := by
    rw [List.map_map]
    refine List.map_congr_left ?_
    intro argument listed
    exact trim_of_isIdentifier (identifiers argument listed)
  obtain ⟨argument, more, rfl⟩ := List.exists_cons_of_ne_nil nonempty
  rw [List.map_cons] at trimmed
  have all : ∀ text ∈ argument.toList :: more.map String.toList,
      isIdentifier (trim text) = true := by
    intro text member
    obtain ⟨given, listed, rfl⟩ : ∃ given ∈ argument :: more, given.toList = text :=
      List.mem_map.1 member
    rw [trim_of_isIdentifier (identifiers given listed)]
    exact identifiers given listed
  obtain ⟨front, first, further, back, joined, names⟩ := exists_listedText all
  exact ⟨.some front first further back, joined.symm, names.trans trimmed⟩

end

/-- The written form is a spelling. -/
theorem exists_spelling_written {signature : Signature} (wellformed : signature.Wellformed) :
    ∃ spelling : Spelling, spelling.text = signature.text.toList ∧
      spelling.signature = signature := by
  obtain ⟨name, arguments⟩ := signature
  obtain ⟨named, identifiers, -⟩ := wellformed
  dsimp only at named identifiers
  by_cases constant : arguments = []
  · subst constant
    refine ⟨.bare ⟨name.toList, named⟩, rfl, ?_⟩
    simp [Spelling.signature, Spelling.name, Spelling.arguments]
  · obtain ⟨list, same, names⟩ := exists_argumentList_written constant identifiers
    refine ⟨.call ⟨name.toList, named⟩ Gap.empty list, ?_, ?_⟩
    · rw [toList_text constant, ← same]
      simp [Spelling.text, Gap.empty]
    · simp [Spelling.signature, Spelling.name, Spelling.arguments, names, Function.comp_def]

/-- A well-formed signature is read from its own spelling. -/
theorem read_text {signature : Signature} (wellformed : signature.Wellformed) :
    read (some signature.text) = .ok signature := by
  obtain ⟨spelling, same, rfl⟩ := exists_spelling_written wellformed
  have spelled : spelling.text = trim spelling.signature.text.toList := by
    rw [← same, spelling.trim_text]
  exact read_of_spelling spelled wellformed.distinct.of_map

end Signature

end Formulary
