import Formulary.Proofs.Signature.Shape
import Formulary.Proofs.Text.Trimming

/-!
# Faults of signatures

A text that is not a signature can be wrong in several places.  This module says
which fault is reported for which text, without looking at the reader: by cutting the
trimmed text at its first parenthesis and what stands between the parentheses at its
commas.

Main results:

- Definition `Signature.Fault`: what is said of a text, under which name, and where it
  points.
- Theorem `Signature.fault_of_read`: a refusal reports a fault.
- Theorem `Signature.exists_error_of_fault`: a text with a fault is refused for it.
- Theorem `Signature.read_faults`: the texts that are refused are those with a fault,
  and the fault is what is reported.
-/

namespace Formulary

open Text

/-! ## The first repetition -/

theorem firstRepeat_go_eq_some_iff {α : Type} [DecidableEq α] {entries seen : List α} {a : α} :
    firstRepeat.go seen entries = some a ↔
      ∃ earlier later, entries = earlier ++ a :: later ∧ (a ∈ earlier ∨ a ∈ seen) ∧
        earlier.Nodup ∧ ∀ b ∈ earlier, b ∉ seen := by
  induction entries generalizing seen with
  | nil => simp [firstRepeat.go]
  | cons c rest ih =>
    unfold firstRepeat.go
    split
    · next known =>
      constructor
      · intro found
        cases found
        exact ⟨[], rest, rfl, .inr known, List.nodup_nil, fun b none => by cases none⟩
      · rintro ⟨earlier, later, cut, -, -, fresh⟩
        cases earlier with
        | nil => exact congrArg some (List.cons.inj cut).1
        | cons d earlier =>
          rw [(List.cons.inj cut).1] at known
          exact absurd known (fresh d List.mem_cons_self)
    · next new =>
      rw [ih]
      constructor
      · rintro ⟨earlier, later, rfl, again, distinct, fresh⟩
        refine ⟨c :: earlier, later, rfl, ?_, ?_, ?_⟩
        · simp only [List.mem_cons] at again ⊢
          tauto
        · exact List.nodup_cons.2 ⟨fun inside => fresh c inside List.mem_cons_self, distinct⟩
        · intro b inside
          rcases List.mem_cons.1 inside with rfl | inside
          · exact new
          · exact fun known => fresh b inside (List.mem_cons_of_mem _ known)
      · rintro ⟨earlier, later, cut, again, distinct, fresh⟩
        cases earlier with
        | nil =>
          rw [(List.cons.inj cut).1] at new
          simp [new] at again
        | cons d earlier =>
          obtain ⟨rfl, rfl⟩ := List.cons.inj cut
          obtain ⟨other, distinct⟩ := List.nodup_cons.1 distinct
          refine ⟨earlier, later, rfl, ?_, distinct, ?_⟩
          · simp only [List.mem_cons] at again ⊢
            tauto
          · intro b inside known
            rcases List.mem_cons.1 known with rfl | known
            · exact other inside
            · exact fresh b (List.mem_cons_of_mem _ inside) known

/-- The entry that is found is the first that is equal to an earlier one. -/
theorem firstRepeat_eq_some_iff {α : Type} [DecidableEq α] {entries : List α} {a : α} :
    firstRepeat entries = some a ↔
      ∃ earlier later, entries = earlier ++ a :: later ∧ a ∈ earlier ∧ earlier.Nodup := by
  simp [firstRepeat, firstRepeat_go_eq_some_iff]

namespace Signature

variable {source front rest inside : List Char}

/-! ## Cutting a text -/

/-- The name is what stands in front of the first parenthesis. -/
theorem nameIn_of_cut (cut : trim source = front ++ rest) (unopened : '(' ∉ front)
    (opens : ∀ c, rest.head? = some c → c = '(') : nameIn source = trim front := by
  rw [nameIn, cut]
  cases rest with
  | nil => rw [List.append_nil, before_of_not_mem unopened]
  | cons c rest => rw [opens c rfl, before_append unopened]

/-- Every text has a name in front. -/
theorem exists_cut (source : List Char) :
    ∃ front rest, trim source = front ++ rest ∧ '(' ∉ front ∧
      ∀ c, rest.head? = some c → c = '(' := by
  by_cases opened : '(' ∈ trim source
  · exact ⟨_, _, eq_before_append_after opened, not_mem_before '(' _, by simp⟩
  · exact ⟨trim source, [], (List.append_nil _).symm, opened, by simp⟩

/-- The first parenthesis stands where the text in front of it ends. -/
theorem idxOf_of_cut (cut : trim source = front ++ '(' :: rest) (unopened : '(' ∉ front) :
    (trim source).idxOf '(' = front.length := by
  rw [cut, List.idxOf_append_of_notMem unopened, List.idxOf_cons_self, Nat.add_zero]

/-- One pair of parentheses that closes at the end. -/
def OnePair (text : List Char) : Prop :=
  text.count '(' = 1 ∧ text.count ')' = 1 ∧ text.getLast? = some ')'

theorem isCallShaped_iff {text : List Char} : isCallShaped text = true ↔ OnePair text := by
  simp [isCallShaped, OnePair, and_assoc]

/-- A text with one pair of parentheses that closes at the end, what stands in front of
it and what stands inside. -/
structure Encloses (source front inside : List Char) : Prop where
  cut : trim source = front ++ '(' :: (inside ++ [')'])
  unopened : '(' ∉ front ++ inside
  unclosed : ')' ∉ front ++ inside

theorem exists_encloses (shaped : isCallShaped (trim source) = true) :
    ∃ front inside, Encloses source front inside := by
  obtain ⟨front, inside, cut, unopened, unclosed⟩ := exists_shape_of_isCallShaped shaped
  exact ⟨front, inside, cut, unopened, unclosed⟩

theorem Encloses.isCallShaped (encloses : Encloses source front inside) :
    isCallShaped (trim source) = true := by
  rw [encloses.cut]
  exact isCallShaped_of_shape encloses.unopened encloses.unclosed

theorem Encloses.not_mem_front (encloses : Encloses source front inside) : '(' ∉ front :=
  fun member => encloses.unopened (List.mem_append_left _ member)

theorem Encloses.nameIn_eq (encloses : Encloses source front inside) :
    nameIn source = trim front :=
  nameIn_of_cut encloses.cut encloses.not_mem_front (by simp)

/-- There are no arguments between blanks. -/
theorem Encloses.argumentsIn_of_allBlank (encloses : Encloses source front inside)
    (blanks : AllBlank inside) : argumentsIn source = [] := by
  rw [argumentsIn, encloses.cut, parenthesized_of_shape encloses.not_mem_front,
    trim_eq_nil_iff.2 blanks]

/-- Otherwise the arguments are the trimmed pieces of what stands inside. -/
theorem Encloses.argumentsIn_eq (encloses : Encloses source front inside)
    (nonblank : ¬ AllBlank inside) : argumentsIn source = (pieces ',' inside).map trim := by
  rw [argumentsIn, encloses.cut, parenthesized_of_shape encloses.not_mem_front]
  split
  · next nothing => exact absurd (trim_eq_nil_iff.1 nothing) nonblank
  · exact map_trim_pieces_trim (by decide) inside

/-- Blanks are no identifiers. -/
theorem not_allBlank_of_identifiers
    (identifiers : ∀ text ∈ (pieces ',' inside).map trim, isIdentifier text = true) :
    ¬ AllBlank inside := by
  intro blanks
  have empty : [] ∈ (pieces ',' inside).map trim := by
    rw [← map_trim_pieces_trim (by decide) inside, trim_eq_nil_iff.2 blanks]
    exact List.mem_singleton_self _
  exact absurd (identifiers [] empty) (by decide)

/-! ## Faults -/

/-- A part of a text as it is shown, without the blanks around it. -/
abbrev shown (text : List Char) : String :=
  String.ofList (trim text)

/-- A fault of a text: what is said of it, the name under which it is reported and the
position in the trimmed text to which the report points.  The name is what stands in
front of the first opening parenthesis, and a fault is looked for in it, in the
parentheses and in the pieces between the commas, in this order. -/
inductive Fault (source : List Char) : (message symbol : String) → (offset : Nat) → Prop
  /-- The name is not an identifier. -/
  | name {front rest : List Char} (cut : trim source = front ++ rest) (unopened : '(' ∉ front)
      (opens : ∀ c, rest.head? = some c → c = '(') (unnamed : isIdentifier (trim front) = false) :
      Fault source
        s!"'{shown front}' is not a valid symbol name in signature '{shown source}'"
        (shown front) 0
  /-- The parentheses are not one pair that closes at the end. -/
  | parentheses {front rest : List Char} (cut : trim source = front ++ '(' :: rest)
      (unopened : '(' ∉ front) (named : isIdentifier (trim front) = true)
      (unpaired : ¬ OnePair (trim source)) :
      Fault source s!"malformed argument list in signature '{shown source}'"
        (shown front) front.length
  /-- A piece is not an identifier, and those in front of it are. -/
  | argument {front inside piece : List Char} {earlier later : List (List Char)}
      (encloses : Encloses source front inside) (named : isIdentifier (trim front) = true)
      (nonblank : ¬ AllBlank inside)
      (listed : (pieces ',' inside).map trim = earlier ++ piece :: later)
      (identifiers : ∀ text ∈ earlier, isIdentifier text = true)
      (invalid : isIdentifier piece = false) :
      Fault source
        s!"{shown front} has an invalid argument name '{String.ofList piece}'"
        (shown front) 0
  /-- All pieces are identifiers, and one is equal to one of those in front of it, which
  are distinct. -/
  | repetition {front inside piece : List Char} {earlier later : List (List Char)}
      (encloses : Encloses source front inside) (named : isIdentifier (trim front) = true)
      (identifiers : ∀ text ∈ (pieces ',' inside).map trim, isIdentifier text = true)
      (listed : (pieces ',' inside).map trim = earlier ++ piece :: later)
      (distinct : earlier.Nodup) (again : piece ∈ earlier) :
      Fault source
        s!"{shown front} repeats the argument '{String.ofList piece}'"
        (shown front) 0

/-! ## The checks of the reader -/

section

variable {source : String} {piece : List Char}

/-- A text is refused for its name before anything else is looked at. -/
theorem read_of_not_named (unnamed : isIdentifier (nameIn source.toList) = false) :
    read (some source) = .error (.invalidName (String.ofList (nameIn source.toList))
      (String.ofList (trim source.toList))) := by
  rw [read]
  simp only [unnamed, Bool.not_false, if_true]

/-- Then it is refused for its parentheses. -/
theorem read_of_not_shaped (named : isIdentifier (nameIn source.toList) = true)
    (opened : '(' ∈ trim source.toList) (misshapen : isCallShaped (trim source.toList) = false) :
    read (some source) = .error (.malformedArguments (String.ofList (nameIn source.toList))
      (String.ofList (trim source.toList)) ((trim source.toList).idxOf '(')) := by
  rw [read]
  simp only [named, opened, misshapen, Bool.not_true, Bool.not_false, Bool.false_eq_true,
    not_true_eq_false, if_false, if_true]

/-- One pair of parentheses has an opening one. -/
theorem opened_of_isCallShaped (shaped : isCallShaped (trim source.toList) = true) :
    '(' ∈ trim source.toList := by
  obtain ⟨front, inside, encloses⟩ := exists_encloses shaped
  simp [encloses.cut]

/-- Then it is refused for the first argument that is not an identifier. -/
theorem read_of_invalid (named : isIdentifier (nameIn source.toList) = true)
    (shaped : isCallShaped (trim source.toList) = true)
    (invalid : (argumentsIn source.toList).find? (!isIdentifier ·) = some piece) :
    read (some source) = .error (.invalidArgument (String.ofList (nameIn source.toList))
      (String.ofList piece)) := by
  rw [read]
  simp only [named, opened_of_isCallShaped shaped, shaped, invalid, Bool.not_true,
    Bool.false_eq_true, not_true_eq_false, if_false]

/-- And last for the first argument that is repeated. -/
theorem read_of_repeated (named : isIdentifier (nameIn source.toList) = true)
    (shaped : isCallShaped (trim source.toList) = true)
    (valid : (argumentsIn source.toList).find? (!isIdentifier ·) = none)
    (again : firstRepeat (argumentsIn source.toList) = some piece) :
    read (some source) = .error (.repeatedArgument (String.ofList (nameIn source.toList))
      (String.ofList piece)) := by
  rw [read]
  simp only [named, opened_of_isCallShaped shaped, shaped, valid, again, Bool.not_true,
    Bool.false_eq_true, not_true_eq_false, if_false]

/-- There is no other refusal: a text without an opening parenthesis whose name is an
identifier is that identifier, and what passes all checks is read. -/
theorem read_error_cases {error : SignatureError} (refused : read (some source) = .error error) :
    isIdentifier (nameIn source.toList) = false ∨
    isIdentifier (nameIn source.toList) = true ∧ '(' ∈ trim source.toList ∧
      (isCallShaped (trim source.toList) = false ∨
        isCallShaped (trim source.toList) = true ∧
          ((∃ piece, (argumentsIn source.toList).find? (!isIdentifier ·) = some piece) ∨
            (argumentsIn source.toList).find? (!isIdentifier ·) = none ∧
              ∃ piece, firstRepeat (argumentsIn source.toList) = some piece)) := by
  cases named : isIdentifier (nameIn source.toList) with
  | false => exact .inl rfl
  | true =>
    refine .inr ⟨rfl, ?_⟩
    by_cases opened : '(' ∈ trim source.toList
    swap
    · rw [nameIn, before_of_not_mem opened, trim_trim] at named
      rw [read_of_isIdentifier named] at refused
      cases refused
    refine ⟨opened, ?_⟩
    cases shaped : isCallShaped (trim source.toList) with
    | false => exact .inl rfl
    | true =>
      refine .inr ⟨rfl, ?_⟩
      cases valid : (argumentsIn source.toList).find? (!isIdentifier ·) with
      | some piece => exact .inl ⟨piece, rfl⟩
      | none =>
        refine .inr ⟨rfl, ?_⟩
        cases again : firstRepeat (argumentsIn source.toList) with
        | some piece => exact ⟨piece, rfl⟩
        | none =>
          obtain ⟨front, inside, encloses⟩ := exists_encloses shaped
          rw [read_of_shape encloses.cut encloses.unopened encloses.unclosed named
            (by simpa using valid) (firstRepeat_eq_none_iff.1 again)] at refused
          cases refused

/-! ## Refusals and faults -/

/-- A refusal reports a fault under the name in front; if that is an identifier, there is
an opening parenthesis, so that the refusal is not for a closing one without it. -/
theorem fault_of_read {error : SignatureError} (refused : read (some source) = .error error) :
    Fault source.toList error.message (String.ofList (nameIn source.toList)) error.offset ∧
      error.name? = some (String.ofList (nameIn source.toList)) ∧
      ∀ name text, error ≠ .strayClosing name text := by
  rcases read_error_cases refused with unnamed | ⟨named, opened, misshapen | ⟨shaped, checked⟩⟩
  · obtain ⟨front, rest, cut, unopened, opens⟩ := exists_cut source.toList
    rw [read_of_not_named unnamed] at refused
    cases refused
    rw [nameIn_of_cut cut unopened opens] at unnamed ⊢
    exact ⟨.name cut unopened opens unnamed, rfl, fun _ _ => SignatureError.noConfusion⟩
  · have cut := eq_before_append_after opened
    have unopened := not_mem_before '(' (trim source.toList)
    rw [read_of_not_shaped named opened misshapen] at refused
    cases refused
    rw [nameIn_of_cut cut unopened (by simp)] at named ⊢
    rw [idxOf_of_cut cut unopened]
    refine ⟨.parentheses cut unopened named ?_, rfl, fun _ _ => SignatureError.noConfusion⟩
    rw [← isCallShaped_iff, misshapen]
    exact Bool.noConfusion
  obtain ⟨front, inside, encloses⟩ := exists_encloses shaped
  have nonblank : ¬ AllBlank inside := by
    intro blanks
    simp [encloses.argumentsIn_of_allBlank blanks, firstRepeat, firstRepeat.go] at checked
  rcases checked with ⟨piece, invalid⟩ | ⟨valid, piece, again⟩
  · rw [read_of_invalid named shaped invalid] at refused
    cases refused
    rw [encloses.argumentsIn_eq nonblank, List.find?_eq_some_iff_append] at invalid
    obtain ⟨invalid, earlier, later, listed, identifiers⟩ := invalid
    rw [encloses.nameIn_eq] at named ⊢
    exact ⟨.argument encloses named nonblank listed (by simpa using identifiers)
      (by simpa using invalid), rfl, fun _ _ => SignatureError.noConfusion⟩
  · rw [read_of_repeated named shaped valid again] at refused
    cases refused
    rw [encloses.argumentsIn_eq nonblank] at valid again
    obtain ⟨earlier, later, listed, member, distinct⟩ := firstRepeat_eq_some_iff.1 again
    rw [encloses.nameIn_eq] at named ⊢
    exact ⟨.repetition encloses named (by simpa using valid) listed distinct member, rfl,
      fun _ _ => SignatureError.noConfusion⟩

/-- A text with a fault is refused for it. -/
theorem exists_error_of_fault {message symbol : String} {offset : Nat}
    (fault : Fault source.toList message symbol offset) :
    ∃ error, read (some source) = .error error ∧ error.message = message ∧
      error.name? = some symbol ∧ error.offset = offset := by
  cases fault with
  | name cut unopened opens unnamed =>
    unfold shown
    rw [← nameIn_of_cut cut unopened opens] at unnamed ⊢
    exact ⟨_, read_of_not_named unnamed, rfl, rfl, rfl⟩
  | parentheses cut unopened named unpaired =>
    have opened : '(' ∈ trim source.toList := by simp [cut]
    have misshapen : isCallShaped (trim source.toList) = false :=
      Bool.eq_false_iff.2 (mt isCallShaped_iff.1 unpaired)
    have offset := idxOf_of_cut cut unopened
    unfold shown
    rw [← nameIn_of_cut cut unopened (by simp)] at named ⊢
    exact ⟨_, read_of_not_shaped named opened misshapen, rfl, rfl, offset⟩
  | argument encloses named nonblank listed identifiers invalid =>
    unfold shown
    rw [← encloses.nameIn_eq] at named ⊢
    refine ⟨_, read_of_invalid named encloses.isCallShaped ?_, rfl, rfl, rfl⟩
    rw [encloses.argumentsIn_eq nonblank, List.find?_eq_some_iff_append]
    exact ⟨by simpa using invalid, _, _, listed, by simpa using identifiers⟩
  | repetition encloses named identifiers listed distinct again =>
    have arguments := encloses.argumentsIn_eq (not_allBlank_of_identifiers identifiers)
    rw [← arguments] at identifiers listed
    unfold shown
    rw [← encloses.nameIn_eq] at named ⊢
    exact ⟨_, read_of_repeated named encloses.isCallShaped (by simpa using identifiers)
      (firstRepeat_eq_some_iff.2 ⟨_, _, listed, again, distinct⟩), rfl, rfl, rfl⟩

end

/-- The texts that are refused are those with a fault, and the fault is what is reported:
what is said, under which name and at which position.  The name is always the one in
front of the first parenthesis.  If it is an identifier, there is such a parenthesis, and
a refusal for a closing one alone is never met. -/
theorem read_faults (source : String) :
    (∀ message symbol offset,
      (∃ error, read (some source) = .error error ∧ error.message = message ∧
        error.name? = some symbol ∧ error.offset = offset) ↔
      Fault source.toList message symbol offset) ∧
    ∀ error, read (some source) = .error error →
      error.name? = some (String.ofList (nameIn source.toList)) ∧
      (isIdentifier (nameIn source.toList) = true → '(' ∈ trim source.toList) ∧
      ∀ name text, error ≠ .strayClosing name text := by
  refine ⟨?_, ?_⟩
  · intro message symbol offset
    refine ⟨?_, exists_error_of_fault⟩
    rintro ⟨error, refused, rfl, named, rfl⟩
    obtain ⟨fault, name, -⟩ := fault_of_read refused
    rw [Option.some.inj (named.symm.trans name)]
    exact fault
  · intro error refused
    obtain ⟨-, name, no_stray⟩ := fault_of_read refused
    refine ⟨name, ?_, no_stray⟩
    intro named
    rcases read_error_cases refused with unnamed | ⟨-, opened, -⟩
    · rw [unnamed] at named
      cases named
    · exact opened

/-- Of two faults the one that is looked for first is reported: `2y` is not an identifier,
and `x` is repeated. -/
theorem read_faults_twice :
    ∃ error, read (some " f( x, 2y, x)") = .error error ∧ error.name? = some "f" ∧
      Fault " f( x, 2y, x)".toList "f has an invalid argument name '2y'" "f" 0 := by
  have refused : read (some " f( x, 2y, x)") = .error (.invalidArgument "f" "2y") := by
    decide +kernel
  have name : String.ofList (nameIn " f( x, 2y, x)".toList) = "f" := by decide +kernel
  obtain ⟨reports, names⟩ := read_faults " f( x, 2y, x)"
  refine ⟨_, refused, ?_, (reports _ _ _).1 ⟨_, refused, by decide +kernel, rfl, rfl⟩⟩
  rw [(names _ refused).1, name]

end Signature

end Formulary
