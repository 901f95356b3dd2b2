import Formulary.Proofs.Signature.Spelling

/-!
# Normal forms of signatures

Whatever spelling a signature was read from, it is written in one way.  This module
shows that the written form is a normal form of the spellings: it has no blanks, is
read as the same signature, is written as itself, and is shared by the spellings of
that signature and by no others.

Main results:

- Definition `Signature.normalForm?`: the written form of the signature that is read
  from a text.
- Theorem `Signature.not_isBlank_of_mem_text`: there are no blanks in it.
- Theorem `Signature.normalForm?_eq_self_iff`: a text that is read is its own normal
  form exactly if it has no blanks and does not end in empty parentheses.
- Theorem `Signature.normalForm_of_read`: what is read from a normal form, and which
  texts share one.
-/

namespace Formulary.Signature

open Text

/-- The written form of the signature that is read from a text, if one is. -/
def normalForm? (source : String) : Option String :=
  match read (some source) with
  | .error _ => none
  | .ok signature => some signature.text

variable {source : String} {signature : Signature}

theorem normalForm?_of_read (accepted : read (some source) = .ok signature) :
    normalForm? source = some signature.text := by
  rw [normalForm?, accepted]

theorem normalForm?_eq_some_iff {text : String} :
    normalForm? source = some text ↔
      ∃ signature, read (some source) = .ok signature ∧ signature.text = text := by
  unfold normalForm?
  cases read (some source) with
  | error error => simp
  | ok signature => simp

/-! ## The characters of a written form -/

theorem written_singleton (argument : String) : written [argument] = argument.toList := by
  simp [written]

theorem written_cons_cons (argument next : String) (more : List String) :
    written (argument :: next :: more) = argument.toList ++ ',' :: written (next :: more) := by
  simp [written, List.intercalate_cons_cons]

/-- Between the parentheses there are commas and the characters of arguments. -/
theorem mem_written {arguments : List String} {c : Char} (member : c ∈ written arguments) :
    c = ',' ∨ ∃ argument ∈ arguments, c ∈ argument.toList := by
  induction arguments with
  | nil => simp [written] at member
  | cons argument more ih =>
    cases more with
    | nil =>
      rw [written_singleton] at member
      exact .inr ⟨argument, List.mem_singleton_self _, member⟩
    | cons next more =>
      rw [written_cons_cons, List.mem_append, List.mem_cons] at member
      rcases member with own | comma | later
      · exact .inr ⟨argument, List.mem_cons_self, own⟩
      · exact .inl comma
      · rcases ih later with comma | ⟨other, listed, inside⟩
        · exact .inl comma
        · exact .inr ⟨other, List.mem_cons_of_mem _ listed, inside⟩

/-- A written form is made of identifiers, commas and parentheses. -/
theorem mem_text_cases (wellformed : signature.Wellformed) {c : Char}
    (member : c ∈ signature.text.toList) :
    isIdentifierRest c = true ∨ c = ',' ∨ c = '(' ∨ c = ')' := by
  obtain ⟨name, arguments⟩ := signature
  by_cases constant : arguments = []
  · subst constant
    exact .inl (isIdentifierRest_of_mem wellformed.name member)
  · rw [toList_text constant] at member
    simp only [List.mem_append, List.mem_cons, List.not_mem_nil, or_false] at member
    rcases member with named | opening | between | closing
    · exact .inl (isIdentifierRest_of_mem wellformed.name named)
    · exact .inr (.inr (.inl opening))
    · rcases mem_written between with comma | ⟨argument, listed, inside⟩
      · exact .inr (.inl comma)
      · exact .inl (isIdentifierRest_of_mem (wellformed.arguments argument listed) inside)
    · exact .inr (.inr (.inr closing))

/-- There are no blanks in a written form. -/
theorem not_isBlank_of_mem_text (wellformed : signature.Wellformed) {c : Char}
    (member : c ∈ signature.text.toList) : isBlank c = false := by
  rcases mem_text_cases wellformed member with inside | rfl | rfl | rfl
  · exact not_isBlank_of_rest inside
  all_goals decide

/-- An argument is written between the parentheses. -/
theorem written_ne_nil {arguments : List String} (nonempty : arguments ≠ [])
    (identifiers : ∀ argument ∈ arguments, isIdentifier argument.toList = true) :
    written arguments ≠ [] := by
  obtain ⟨argument, more, rfl⟩ := List.exists_cons_of_ne_nil nonempty
  intro nothing
  cases more with
  | nil =>
    have named := identifiers argument List.mem_cons_self
    rw [written_singleton] at nothing
    rw [nothing] at named
    cases named
  | cons next more => simp [written_cons_cons] at nothing

/-- A written form does not end in empty parentheses. -/
theorem not_empty_parentheses_text (wellformed : signature.Wellformed) :
    ¬ ['(', ')'] <:+ signature.text.toList := by
  obtain ⟨name, arguments⟩ := signature
  rintro ⟨front, same⟩
  by_cases constant : arguments = []
  · subst constant
    have closing : ')' ∈ name.toList := by
      rw [text_of_arguments_nil] at same
      simp [← same]
    exact not_mem_of_isIdentifier wellformed.name (by decide) closing
  · rw [toList_text constant] at same
    have closed :
        (front ++ ['(']) ++ [')'] = (name.toList ++ '(' :: written arguments) ++ [')'] := by
      simpa using same
    have last := congrArg List.getLast? (List.append_cancel_right closed)
    rw [List.getLast?_concat, List.getLast?_append, List.getLast?_cons, Option.some_or,
      List.getLast?_eq_some_getLast (written_ne_nil constant wellformed.arguments),
      Option.getD_some, Option.some.injEq] at last
    -- the last character of the arguments would be a parenthesis
    have opening : '(' ∈ written arguments := last ▸ List.getLast_mem _
    obtain ⟨list, written_as, -⟩ := exists_argumentList_written constant wellformed.arguments
    rw [← written_as] at opening
    exact list.not_mem_text (by decide) (by decide) (by decide) opening

/-! ## Spellings without blanks -/

/-- A gap in a text without blanks is empty. -/
theorem gap_eq_nil {gap : Gap} {text : List Char} (inside : gap.val ⊆ text)
    (no_blank : ∀ c ∈ text, isBlank c = false) : gap.val = [] := by
  refine List.eq_nil_iff_forall_not_mem.2 ?_
  intro c member
  have blank := gap.property c member
  rw [no_blank c (inside member)] at blank
  cases blank

/-- Without blanks, arguments are joined by commas alone. -/
theorem listedText_of_no_blank {first : Identifier} {more : List FurtherArgument}
    (no_blank : ∀ c ∈ listedText first more, isBlank c = false) :
    listedText first more = [','].intercalate (first.val :: more.map (·.name.val)) := by
  induction more generalizing first with
  | nil => rw [listedText_nil, List.map_nil, List.intercalate_singleton]
  | cons next more ih =>
    rw [listedText_cons] at no_blank ⊢
    have front : next.front.val = [] := gap_eq_nil (fun c member => by simp [member]) no_blank
    have back : next.back.val = [] := gap_eq_nil (fun c member => by simp [member]) no_blank
    have behind := @ih next.name fun c member => no_blank c (by simp [member])
    rw [front, back, behind, List.map_cons, List.intercalate_cons_cons]
    simp

/-- An argument list without blanks is the written one. -/
theorem argumentList_text_eq_written {list : ArgumentList}
    (no_blank : ∀ c ∈ list.text, isBlank c = false) :
    list.text = written (list.names.map String.ofList) := by
  cases list with
  | none blanks => exact gap_eq_nil (List.Subset.refl _) no_blank
  | some front first more back =>
    have front_nil : front.val = [] :=
      gap_eq_nil (fun c member => by simp [ArgumentList.text, member]) no_blank
    have back_nil : back.val = [] :=
      gap_eq_nil (fun c member => by simp [ArgumentList.text, member]) no_blank
    have listed := @listedText_of_no_blank first more fun c member =>
      no_blank c (by simp [ArgumentList.text, member])
    have names : ((ArgumentList.some front first more back).names.map String.ofList).map
        String.toList = first.val :: more.map (·.name.val) := by
      simp [ArgumentList.names, Function.comp_def]
    rw [ArgumentList.text, written, names, front_nil, back_nil, listed, List.nil_append,
      List.append_nil]

/-- A spelling without blanks and without empty parentheses is the written form. -/
theorem Spelling.text_eq_written {spelling : Spelling}
    (no_blank : ∀ c ∈ spelling.text, isBlank c = false)
    (nonempty : ¬ ['(', ')'] <:+ spelling.text) :
    spelling.signature.text.toList = spelling.text := by
  cases spelling with
  | bare name => exact String.toList_ofList
  | call name gap list =>
    have gap_nil : gap.val = [] :=
      gap_eq_nil (fun c member => by simp [Spelling.text, member]) no_blank
    have listed := @argumentList_text_eq_written list fun c member =>
      no_blank c (by simp [Spelling.text, member])
    rw [Spelling.text, gap_nil, List.append_nil, listed] at nonempty ⊢
    rw [Spelling.signature, toList_text, Spelling.name, String.toList_ofList, Spelling.arguments]
    -- without arguments the parentheses would be empty
    intro constant
    rw [Spelling.arguments] at constant
    rw [constant] at nonempty
    exact nonempty ⟨name.val, rfl⟩

/-- A text is its own normal form exactly if it is read, has no blanks and does not end
in empty parentheses. -/
theorem normalForm?_eq_self_iff {text : String} :
    normalForm? text = some text ↔
      (∃ signature, read (some text) = .ok signature) ∧
      (∀ c ∈ text.toList, isBlank c = false) ∧ ¬ ['(', ')'] <:+ text.toList := by
  rw [normalForm?_eq_some_iff]
  constructor
  · rintro ⟨signature, accepted, same⟩
    have wellformed := wellformed_of_read accepted
    subst same
    exact ⟨⟨signature, accepted⟩, fun c => not_isBlank_of_mem_text wellformed,
      not_empty_parentheses_text wellformed⟩
  · rintro ⟨⟨signature, accepted⟩, no_blank, nonempty⟩
    obtain ⟨spelling, spelled, distinct⟩ := exists_spelling_of_read accepted
    have again := read_of_spelling spelled distinct
    rw [trim_of_no_blank no_blank] at spelled
    rw [← spelled] at no_blank nonempty
    refine ⟨_, again, String.toList_injective ?_⟩
    rw [Spelling.text_eq_written no_blank nonempty, spelled]

/-! ## Normal forms -/

/-- A text that is read has a normal form: it has no blanks, is read as the same
signature, and is its own normal form, as is every text that is read, has no blanks and
does not end in empty parentheses.  Two texts that are read have the same normal form
exactly if they are read as the same name with the same arguments. -/
theorem normalForm_of_read {source other : String} {signature another : Signature}
    (accepted : read (some source) = .ok signature)
    (accepted_other : read (some other) = .ok another) :
    normalForm? source = some signature.text ∧
    (∀ c ∈ signature.text.toList, isBlank c = false) ∧
    read (some signature.text) = .ok signature ∧
    normalForm? signature.text = some signature.text ∧
    (normalForm? source = some source ↔
      (∀ c ∈ source.toList, isBlank c = false) ∧ ¬ ['(', ')'] <:+ source.toList) ∧
    (normalForm? source = normalForm? other ↔
      signature.name = another.name ∧ signature.arguments = another.arguments) := by
  have wellformed := wellformed_of_read accepted
  have again := read_text wellformed
  have again_other := read_text (wellformed_of_read accepted_other)
  refine ⟨normalForm?_of_read accepted, fun c => not_isBlank_of_mem_text wellformed, again,
    normalForm?_of_read again, ?_, ?_⟩
  · rw [normalForm?_eq_self_iff]
    exact and_iff_right ⟨signature, accepted⟩
  · rw [normalForm?_of_read accepted, normalForm?_of_read accepted_other]
    constructor
    · intro same
      -- both signatures are read from the one written form
      rw [Option.some.inj same, again_other] at again
      cases again
      exact ⟨rfl, rfl⟩
    · rintro ⟨names, arguments⟩
      obtain ⟨name, listed⟩ := signature
      dsimp only at names arguments
      rw [names, arguments]

/-- The spellings `f( )` and `f` share the normal form `f`, and `f(x)` has another. -/
theorem normalForm_of_read_constant :
    normalForm? "\tf( )" = some "f" ∧ normalForm? "f" = some "f" ∧
      normalForm? "\tf( )" ≠ normalForm? "f(x)" := by
  have blank : read (some "\tf( )") = .ok ⟨"f", []⟩ := by decide +kernel
  have unary : read (some "f(x)") = .ok ⟨"f", ["x"]⟩ := by decide +kernel
  obtain ⟨form, -, -, again, -, same⟩ := normalForm_of_read blank unary
  refine ⟨form, again, ?_⟩
  rw [Ne, same]
  decide

end Formulary.Signature
