import Formulary.Proofs.Bindings.Sorting
import Formulary.Proofs.Evaluation.Resampling

/-!
# Built samples

Samples are built of what is given for the variables and of a number of samples.  The
number may be left open, and then the rows decide; without rows the number decides; without
either there are no samples.  This module says when samples are built, with what fault it
fails otherwise, and what evaluation finds of them at a leaf.

Main results:

- Definition `Samples.assemble`: samples are built with a number that is whole already.
- Theorem `Samples.distinctLengths_eq_iff`: the lengths that are listed, told without
  sorting.
- Theorem `Samples.assemble_eq_notARow_iff`: the first variable is named that is not given
  a row.
- Theorem `Samples.assemble_eq_differentLengths_iff`: rows and a number that disagree.
- Theorem `Samples.represents_of_assemble`: samples that are built represent what is given.
- Theorem `Expr.servesLeaves_of_represents`: they are found at the leaves.
- Theorem `Samples.built_from_rows`: when samples are built, and all that they then keep.
-/

namespace Formulary

variable {α : Type}

/-! ## Rows among nested lists -/

namespace Nested

/-- A row has a single length. -/
def IsRow (given : Nested α) : Prop :=
  ∃ length, given.shape? = some [length]

/-- Rectangular lists have a shape, and are not nested too deeply. -/
def IsRectangular (given : Nested α) : Prop :=
  ∃ shape, given.shape? = some shape ∧ shape.length ≤ deepest

end Nested

namespace Samples

theorem rowOf_of_isRow {given : Nested α} (row : given.IsRow) (name : String) :
    rowOf name given = .ok (name, given.row) := by
  obtain ⟨length, shape⟩ := row
  rw [rowOf, shape]

/-- Rectangular lists that are no row are refused with their shape. -/
theorem rowOf_of_not_isRow {given : Nested α} (other : ¬ given.IsRow) {shape : List Nat}
    (shaped : given.shape? = some shape) (shallow : shape.length ≤ Nested.deepest)
    (name : String) : rowOf name given = .error (.notARow name shape) := by
  rw [rowOf, shaped]
  match shape, shaped, shallow with
  | [], _, _ => rfl
  | [length], shaped, _ => exact absurd ⟨length, shaped⟩ other
  | _ :: _ :: _, _, shallow => exact if_pos shallow

/-- The rows that are given for variables one after another, up to the first fault. -/
def readRows (bindings : Bindings (Nested α)) : Except SamplesError (Bindings (List α)) :=
  bindings.mapM fun (name, given) => rowOf name given

/-- The rows given for variables, if rows are given. -/
def givenRows (bindings : Bindings (Nested α)) : Bindings (List α) :=
  bindings.map fun (name, given) => (name, given.row)

/-- The first variable that is not given a row, and the shape of what it is given. -/
def FirstNotARow (bindings : Bindings (Nested α)) (name : String) (shape : List Nat) : Prop :=
  ∃ front given back, bindings = front ++ (name, given) :: back ∧
    (∀ pair ∈ front, pair.2.IsRow) ∧ ¬ given.IsRow ∧ given.shape? = some shape

/-- The rows are read if there are only rows. -/
theorem readRows_of_isRow {bindings : Bindings (Nested α)}
    (rows : ∀ pair ∈ bindings, pair.2.IsRow) :
    readRows bindings = .ok (givenRows bindings) := by
  induction bindings with
  | nil => rfl
  | cons pair rest ih =>
    obtain ⟨name, given⟩ := pair
    have later := ih fun other member => rows other (List.mem_cons_of_mem _ member)
    rw [readRows] at later
    rw [readRows, List.mapM_cons, later]
    simp only [rowOf_of_isRow (rows _ List.mem_cons_self)]
    rfl

/-- The first that is not a row is refused. -/
theorem readRows_of_firstNotARow {bindings : Bindings (Nested α)} {name : String}
    {shape : List Nat} (first : FirstNotARow bindings name shape)
    (shallow : shape.length ≤ Nested.deepest) :
    readRows bindings = .error (.notARow name shape) := by
  obtain ⟨front, given, back, rfl, rows, other, shaped⟩ := first
  have before := readRows_of_isRow rows
  rw [readRows] at before
  rw [readRows, List.mapM_append, before, List.mapM_cons]
  simp only [rowOf_of_not_isRow other shaped shallow]
  rfl

/-- Of rectangular lists either all are rows or there is a first that is not. -/
theorem isRow_or_firstNotARow {bindings : Bindings (Nested α)}
    (rectangular : ∀ pair ∈ bindings, pair.2.IsRectangular) :
    (∀ pair ∈ bindings, pair.2.IsRow) ∨
      ∃ name shape, FirstNotARow bindings name shape ∧ shape.length ≤ Nested.deepest := by
  induction bindings with
  | nil => exact .inl fun _ member => by cases member
  | cons pair rest ih =>
    obtain ⟨name, given⟩ := pair
    by_cases row : given.IsRow
    · rcases ih fun other member => rectangular other (List.mem_cons_of_mem _ member) with
        rows | ⟨later, shape, ⟨front, values, back, rfl, rows, other, shaped⟩, shallow⟩
      · exact .inl (List.forall_mem_cons.2 ⟨row, rows⟩)
      · exact .inr ⟨later, shape, ⟨(name, given) :: front, values, back, rfl,
          List.forall_mem_cons.2 ⟨row, rows⟩, other, shaped⟩, shallow⟩
    · obtain ⟨shape, shaped, shallow⟩ := rectangular _ List.mem_cons_self
      have none_before : ∀ pair ∈ ([] : Bindings (Nested α)), pair.2.IsRow :=
        fun _ member => by cases member
      exact .inr ⟨name, shape, ⟨[], given, rest, rfl, none_before, row, shaped⟩, shallow⟩

/-! ## Lengths that are listed -/

theorem mem_distinctLengths {lengths : List Int} {length : Int} :
    length ∈ distinctLengths lengths ↔ length ∈ lengths := by
  rw [distinctLengths, List.mem_mergeSort, List.mem_eraseDups]

theorem pairwise_distinctLengths (lengths : List Int) :
    (distinctLengths lengths).Pairwise (· < ·) := by
  have sorted : (distinctLengths lengths).Pairwise (fun a b => decide (a ≤ b) = true) :=
    List.pairwise_mergeSort
      (fun a b c first second => by
        simp only [decide_eq_true_eq] at first second ⊢
        omega)
      (fun a b => by simpa using Int.le_total a b) _
  have distinct : (distinctLengths lengths).Nodup :=
    (List.mergeSort_perm _ _).nodup_iff.2 (nodup_eraseDups lengths)
  refine (sorted.and distinct).imp ?_
  rintro a b ⟨le, ne⟩
  have := of_decide_eq_true le
  omega

/-- The distinct lengths are the only increasing list of the same lengths. -/
theorem distinctLengths_eq_iff {lengths listed : List Int} :
    listed = distinctLengths lengths ↔
      listed.Pairwise (· < ·) ∧ ∀ length, length ∈ listed ↔ length ∈ lengths := by
  constructor
  · rintro rfl
    exact ⟨pairwise_distinctLengths lengths, fun _ => mem_distinctLengths⟩
  · rintro ⟨increasing, same⟩
    have nodup : ∀ {items : List Int}, items.Pairwise (· < ·) → items.Nodup :=
      fun increasing => increasing.imp fun less => by omega
    have permuted : listed.Perm (distinctLengths lengths) := by
      rw [List.perm_ext_iff_of_nodup (nodup increasing) (nodup (pairwise_distinctLengths _))]
      intro length
      rw [same, mem_distinctLengths]
    exact permuted.eq_of_pairwise (fun a b _ _ less greater => by omega) increasing
      (pairwise_distinctLengths _)

/-! ## Building -/

/-- The lengths that have to agree: those of the rows, and the number if there is one. -/
def lengths (rows : Bindings (List α)) (size : Option Int) : List Int :=
  rows.map (fun (_, row) => (row.length : Int)) ++ size.toList

/-- Some two lengths differ. -/
def Disagree (lengths : List Int) : Prop :=
  ∃ first ∈ lengths, ∃ second ∈ lengths, first ≠ second

/-- Builds samples of nested lists for each variable and a whole number of samples. -/
def assemble (bindings : Bindings (Nested α)) (size : Option Int) :
    Except SamplesError (Samples α) := do
  let rows ← readRows bindings
  ofRows rows size

theorem build_of_truncate (given : List (String × Nested α)) {number : Float} {whole : Int}
    (truncated : Binary64.truncate number = .ok whole) :
    build given (some number) = assemble (Bindings.ofPairs given) (some whole) := by
  unfold build assemble
  rw [Option.mapM_some, truncated]
  rfl

/-- Samples are built with what a finite number leaves when the places behind the point are
dropped. -/
theorem build_eq_assemble (given : List (String × Nested α)) {count : Option Float}
    (finite : ∀ number ∈ count, Binary64.isFinite number = true) :
    ∃ size : Option Int, count.map Binary64.truncate = size.map Except.ok ∧
      build given count = assemble (Bindings.ofPairs given) size := by
  cases count with
  | none => exact ⟨none, rfl, rfl⟩
  | some number =>
    have number_finite := finite number rfl
    have truncated : ∃ whole, Binary64.truncate number = .ok whole := by
      unfold Binary64.isFinite at number_finite
      unfold Binary64.truncate
      cases decoded : Binary64.decode number with
      | finite negative units => exact ⟨_, rfl⟩
      | notANumber => rw [decoded] at number_finite; cases number_finite
      | infinite negative => rw [decoded] at number_finite; cases number_finite
    obtain ⟨whole, truncated⟩ := truncated
    exact ⟨some whole, congrArg some truncated, build_of_truncate given truncated⟩

/-- Rows and a number of which some two lengths differ are refused, and the lengths are
listed. -/
theorem ofRows_of_disagree {rows : Bindings (List α)} {size : Option Int}
    (disagree : Disagree (lengths rows size)) :
    ofRows rows size = .error (.differentLengths (distinctLengths (lengths rows size))) := by
  obtain ⟨first, first_member, second, second_member, differ⟩ := disagree
  rw [← mem_distinctLengths] at first_member second_member
  rw [ofRows, ← lengths]
  generalize distinctLengths (lengths rows size) = distinct at *
  cases distinct with
  | nil => cases first_member
  | cons least rest =>
    cases rest with
    | nil =>
      rw [List.mem_singleton] at first_member second_member
      exact absurd (first_member.trans second_member.symm) differ
    | cons next rest => rfl

/-- Rows and a number of one length are samples, as many as the length says. -/
theorem ofRows_of_agree {rows : Bindings (List α)} {size : Option Int}
    (agree : ¬ Disagree (lengths rows size)) :
    ofRows rows size = .ok ⟨rows, (lengths rows size).headD 0⟩ := by
  rw [ofRows, ← lengths]
  cases all : lengths rows size with
  | nil =>
    have none_listed : distinctLengths [] = [] := by
      rw [distinctLengths, List.eraseDups_nil, List.mergeSort_nil]
    rw [none_listed]
    rfl
  | cons length rest =>
    have same : ∀ other ∈ rest, other = length := by
      intro other member
      refine Decidable.byContradiction fun differ => agree ?_
      rw [all]
      exact ⟨other, List.mem_cons_of_mem _ member, length, List.mem_cons_self, differ⟩
    rw [distinctLengths_of_same same]
    rfl

theorem ofRows_eq_error_iff {rows : Bindings (List α)} {size : Option Int}
    {error : SamplesError} :
    ofRows rows size = .error error ↔
      Disagree (lengths rows size) ∧
        error = .differentLengths (distinctLengths (lengths rows size)) := by
  by_cases disagree : Disagree (lengths rows size)
  · rw [ofRows_of_disagree disagree]
    simp [disagree, eq_comm]
  · rw [ofRows_of_agree disagree]
    simp [disagree]

/-- Rows and a number that make samples are all as long as these are many.  There are no
samples if there is no length. -/
theorem ofRows_eq_ok {rows : Bindings (List α)} {size : Option Int} {samples : Samples α}
    (made : ofRows rows size = .ok samples) :
    samples.rows = rows ∧ (∀ length ∈ lengths rows size, length = samples.count) ∧
      (lengths rows size = [] → samples.count = 0) := by
  by_cases disagree : Disagree (lengths rows size)
  · rw [ofRows_of_disagree disagree] at made
    cases made
  · rw [ofRows_of_agree disagree] at made
    cases made
    refine ⟨rfl, ?_, fun none_given => by rw [none_given]; rfl⟩
    intro length member
    refine Decidable.byContradiction fun differ => disagree ⟨length, member, _, ?_, differ⟩
    cases all : lengths rows size with
    | nil =>
      rw [all] at member
      cases member
    | cons first rest => exact List.mem_cons_self

/-! ## What is built -/

variable {bindings : Bindings (Nested α)} {size : Option Int}

theorem assemble_of_isRow (rows : ∀ pair ∈ bindings, pair.2.IsRow) :
    assemble bindings size = ofRows (givenRows bindings) size := by
  rw [assemble, readRows_of_isRow rows]
  rfl

theorem assemble_of_firstNotARow {name : String} {shape : List Nat}
    (first : FirstNotARow bindings name shape)
    (shallow : shape.length ≤ Nested.deepest) :
    assemble bindings size = .error (.notARow name shape) := by
  rw [assemble, readRows_of_firstNotARow first shallow]
  rfl

section

variable (rectangular : ∀ pair ∈ bindings, pair.2.IsRectangular)

include rectangular

/-- Building fails at the first variable that is not given a row, and names it. -/
theorem assemble_eq_notARow_iff {name : String} {shape : List Nat} :
    assemble bindings size = .error (.notARow name shape) ↔
      FirstNotARow bindings name shape := by
  constructor
  · intro refused
    rcases isRow_or_firstNotARow rectangular with rows | ⟨first_name, first_shape, first, shallow⟩
    · rw [assemble_of_isRow rows] at refused
      cases (ofRows_eq_error_iff.1 refused).2
    · rw [assemble_of_firstNotARow first shallow] at refused
      cases refused
      exact first
  · intro first
    refine assemble_of_firstNotARow first ?_
    obtain ⟨front, values, back, parts, -, -, shaped⟩ := first
    obtain ⟨own, own_shaped, shallow⟩ := rectangular (name, values) (by rw [parts]; simp)
    rw [shaped] at own_shaped
    cases own_shaped
    exact shallow

/-- Otherwise it fails if some two lengths differ, and lists all lengths once, the least
one first. -/
theorem assemble_eq_differentLengths_iff {listed : List Int} :
    assemble bindings size = .error (.differentLengths listed) ↔
      (∀ pair ∈ bindings, pair.2.IsRow) ∧
      Disagree (lengths (givenRows bindings) size) ∧
      listed.Pairwise (· < ·) ∧
      ∀ length, length ∈ listed ↔ length ∈ lengths (givenRows bindings) size := by
  rw [← distinctLengths_eq_iff]
  constructor
  · intro refused
    rcases isRow_or_firstNotARow rectangular with rows | ⟨name, shape, first, shallow⟩
    · rw [assemble_of_isRow rows, ofRows_eq_error_iff, SamplesError.differentLengths.injEq]
        at refused
      exact ⟨rows, refused⟩
    · rw [assemble_of_firstNotARow first shallow] at refused
      cases refused
  · rintro ⟨rows, disagree, rfl⟩
    rw [assemble_of_isRow rows]
    exact ofRows_eq_error_iff.2 ⟨disagree, rfl⟩

/-- There are no other failures. -/
theorem assemble_eq_error {error : SamplesError} (refused : assemble bindings size = .error error) :
    (∃ name shape, error = .notARow name shape) ∨ ∃ listed, error = .differentLengths listed := by
  rcases isRow_or_firstNotARow rectangular with rows | ⟨name, shape, first, shallow⟩
  · rw [assemble_of_isRow rows] at refused
    exact .inr ⟨_, (ofRows_eq_error_iff.1 refused).2⟩
  · rw [assemble_of_firstNotARow first shallow] at refused
    cases refused
    exact .inl ⟨name, shape, rfl⟩

/-- Samples represent what is given: their rows are the given ones, each with as many samples
as there are.  There are as many as the number says, and none without rows and number.  A
number below zero is possible only without rows. -/
structure Represents (samples : Samples α) (bindings : Bindings (Nested α))
    (size : Option Int) : Prop where
  rows : samples.rows = givenRows bindings
  level : ∀ pair ∈ bindings, ∃ length : Nat, pair.2.shape? = some [length] ∧
    (length : Int) = samples.count
  sized : ∀ number, size = some number → samples.count = number
  none_given : bindings = [] → size = none → samples.count = 0
  natural : 0 ≤ samples.count ∨ bindings = [] ∧ ∃ number, size = some number ∧ number < 0

/-- Samples that are built represent what they are built of. -/
theorem represents_of_assemble {samples : Samples α}
    (built : assemble bindings size = .ok samples) : samples.Represents bindings size := by
  rcases isRow_or_firstNotARow rectangular with rows | ⟨name, shape, first, shallow⟩
  · rw [assemble_of_isRow rows] at built
    obtain ⟨same, level, none⟩ := ofRows_eq_ok built
    have level_given : ∀ pair ∈ bindings, ∃ length : Nat, pair.2.shape? = some [length] ∧
        (length : Int) = samples.count := by
      intro pair member
      obtain ⟨length, shape⟩ := rows pair member
      refine ⟨length, shape, level length ?_⟩
      refine List.mem_append_left _ (List.mem_map.2 ⟨(pair.1, pair.2.row), ?_, ?_⟩)
      · exact List.mem_map.2 ⟨pair, member, rfl⟩
      · exact congrArg Int.ofNat (Nested.length_row shape)
    have sized : ∀ number, size = some number → samples.count = number := by
      rintro number rfl
      exact (level number (List.mem_append_right _ (by simp))).symm
    have none_given : bindings = [] → size = .none → samples.count = 0 := by
      rintro rfl rfl
      exact none rfl
    refine ⟨same, level_given, sized, none_given, ?_⟩
    match bindings, size with
    | pair :: rest, _ =>
      obtain ⟨length, -, long⟩ := level_given pair List.mem_cons_self
      exact .inl (by omega)
    | [], .none =>
      have count := none_given rfl rfl
      exact .inl (by omega)
    | [], some number =>
      have count := sized number rfl
      by_cases negative : number < 0
      · exact .inr ⟨rfl, number, rfl, negative⟩
      · exact .inl (by omega)
  · rw [assemble_of_firstNotARow first shallow] at built
    cases built

end

end Samples

/-! ## Leaves -/

namespace Expr

variable [Scalar α]

/-- Evaluation over samples finds a row of all of them at every leaf: at the variables of
the given names, and at constants if there are such rows. -/
structure ServesLeaves (samples : Samples α) (names : List String) : Prop where
  variable_row : ∀ (store : Store α) (name : String) (id : Option NodeId)
    (children : List (Expr α)), name ∈ names →
      ∃ row, rowOver samples store (Tree.node ⟨.var name, id⟩ children) = .ok row ∧
        (row.length : Int) = samples.count
  constant_row : 0 ≤ samples.count → samples.count < rowLimit →
    ∀ (store : Store α) (value : α) (id : Option NodeId) (children : List (Expr α)),
      ∃ row, rowOver samples store (Tree.node ⟨.const value, id⟩ children) = .ok row ∧
        (row.length : Int) = samples.count
  constant_failure : ¬ (0 ≤ samples.count ∧ samples.count < rowLimit) →
    ∀ (store : Store α) (value : α) (id : Option NodeId) (children : List (Expr α)),
      rowOver samples store (Tree.node ⟨.const value, id⟩ children) =
        .error (.notALength samples.count)

theorem rowOver_const (samples : Samples α) (store : Store α) (value : α)
    (id : Option NodeId) (children : List (Expr α)) :
    rowOver samples store (Tree.node ⟨.const value, id⟩ children) =
      constantRow samples.count value := by
  rw [rowOver_eq_valueOn, valueOn, value?_const rfl]

/-- A variable that is given a row has that row, as long as all rows. -/
theorem exists_rowOver_var {samples : Samples α} {bindings : Bindings (Nested α)}
    {size : Option Int} (represents : samples.Represents bindings size) (store : Store α)
    {name : String} (bound : name ∈ bindings.names) (id : Option NodeId)
    (children : List (Expr α)) :
    ∃ row, rowOver samples store (Tree.node ⟨.var name, id⟩ children) = .ok row ∧
      (row.length : Int) = samples.count := by
  have found : samples.rows.find? name = (bindings.find? name).map Nested.row := by
    rw [represents.rows]
    exact Bindings.find?_map (fun _ => Nested.row) bindings name
  cases here : bindings.find? name with
  | none => exact absurd bound (Bindings.find?_eq_none_iff.1 here)
  | some given =>
    obtain ⟨front, back, parts, -⟩ := List.lookup_eq_some_iff.1 here
    have member : (name, given) ∈ bindings := by
      rw [parts]
      exact List.mem_append_right front List.mem_cons_self
    obtain ⟨length, shape, long⟩ := represents.level _ member
    refine ⟨given.row, ?_, ?_⟩
    · rw [rowOver_eq_valueOn, valueOn, value?_var rfl, found, here]
      rfl
    · rw [Nested.length_row shape, long]

/-- Samples that represent what is given serve its variables and constants. -/
theorem servesLeaves_of_represents {samples : Samples α} {bindings : Bindings (Nested α)}
    {size : Option Int} (represents : samples.Represents bindings size) :
    ServesLeaves samples bindings.names where
  variable_row := fun store _ id children bound =>
    exists_rowOver_var represents store bound id children
  constant_row := by
    intro natural short store value id children
    have long : rowLength? samples.count = some samples.count.toNat :=
      rowLength?_eq_some_iff.2 ⟨by omega, by omega⟩
    refine ⟨List.replicate samples.count.toNat value, ?_, ?_⟩
    · rw [rowOver_const, constantRow, long]
    · rw [List.length_replicate, Int.toNat_of_nonneg natural]
  constant_failure := by
    intro other store value id children
    have no_length : rowLength? samples.count = none := if_neg other
    rw [rowOver_const, constantRow, no_length]

end Expr

namespace Samples

/-- When samples are built.  A finite number counts for what is left of it when the places
behind the point are dropped.  Of rectangular lists and a whole number samples are built
unless some lists are no row, and then the first variable with such lists is named, or there
are only rows and some two lengths differ, and then all lengths are listed.  Otherwise the
samples represent what is given, and evaluation finds them at the leaves. -/
theorem built_from_rows [Scalar α] :
    (∀ (given : List (String × Nested α)) (count : Option Float),
      (∀ number ∈ count, Binary64.isFinite number = true) →
      ∃ size : Option Int, count.map Binary64.truncate = size.map Except.ok ∧
        build given count = assemble (Bindings.ofPairs given) size) ∧
    ∀ (bindings : Bindings (Nested α)) (size : Option Int),
      (∀ pair ∈ bindings, pair.2.IsRectangular) →
      (∀ name shape, assemble bindings size = .error (.notARow name shape) ↔
        FirstNotARow bindings name shape) ∧
      (∀ listed, assemble bindings size = .error (.differentLengths listed) ↔
        (∀ pair ∈ bindings, pair.2.IsRow) ∧ Disagree (lengths (givenRows bindings) size) ∧
        listed.Pairwise (· < ·) ∧
        ∀ length, length ∈ listed ↔ length ∈ lengths (givenRows bindings) size) ∧
      (∀ error, assemble bindings size = .error error →
        (∃ name shape, error = .notARow name shape) ∨
          ∃ listed, error = .differentLengths listed) ∧
      ∀ samples, assemble bindings size = .ok samples →
        samples.Represents bindings size ∧ Expr.ServesLeaves samples bindings.names := by
  refine ⟨fun given _ => build_eq_assemble given, ?_⟩
  intro bindings size rectangular
  refine ⟨fun _ _ => assemble_eq_notARow_iff rectangular,
    fun _ => assemble_eq_differentLengths_iff rectangular,
    fun _ => assemble_eq_error rectangular, ?_⟩
  intro samples built
  have represents := represents_of_assemble rectangular built
  exact ⟨represents, Expr.servesLeaves_of_represents represents⟩

/-- Two samples for `x`, three for `y`. -/
def twoAndThree : List (String × Nested Float) :=
  [("x", .list [.sample 1, .sample 2]), ("y", .list [.sample 3, .sample 4, .sample 5])]

/-- The lengths of two and three samples are listed, the less one first.  With the number
two and rows of two samples, there are two samples, and they are found at `x`. -/
theorem built_from_rows_two :
    assemble twoAndThree none = .error (.differentLengths [2, 3]) ∧
    (∃ size, (some 2.5).map Binary64.truncate = size.map Except.ok ∧
      build (twoAndThree.take 1) (some 2.5) = assemble (twoAndThree.take 1) size) ∧
    ∃ samples, assemble (twoAndThree.take 1) (some 2) = .ok samples ∧
      samples.Represents (twoAndThree.take 1) (some 2) ∧
      ∃ row, Expr.rowOver samples Store.empty (Tree.node ⟨.var "x", none⟩ []) = .ok row ∧
        row.length = 2 := by
  have rows : ∀ pair ∈ twoAndThree, pair.2.IsRow :=
    List.forall_mem_cons.2 ⟨⟨2, rfl⟩, List.forall_mem_cons.2 ⟨⟨3, rfl⟩, fun _ member => by
      cases member⟩⟩
  have rectangular : ∀ pair ∈ twoAndThree, pair.2.IsRectangular := by
    intro pair member
    obtain ⟨length, shape⟩ := rows pair member
    exact ⟨[length], shape, by simp [Nested.deepest]⟩
  refine ⟨?_, ?_, ?_⟩
  · refine ((built_from_rows.2 twoAndThree none rectangular).2.1 [2, 3]).2
      ⟨rows, ⟨2, by decide, 3, by decide, by decide⟩, by decide, ?_⟩
    intro length
    simp [lengths, givenRows, twoAndThree, Nested.row]
  · refine built_from_rows.1 (twoAndThree.take 1) (some 2.5) ?_
    rintro number same
    cases same
    decide +kernel
  · have built : assemble (twoAndThree.take 1) (some 2) = .ok ⟨[("x", [1, 2])], 2⟩ := by
      have long : ∀ name row, (name, row) ∈ givenRows (twoAndThree.take 1) →
          row.length = 2 := by
        rintro name row (_ | ⟨_, later⟩)
        · rfl
        · cases later
      rw [assemble_of_isRow fun pair member => rows pair (List.mem_of_mem_take member)]
      exact ofRows_of_length long
    obtain ⟨represents, serves⟩ := (built_from_rows.2 _ _ (fun pair member =>
      rectangular pair (List.mem_of_mem_take member))).2.2.2 _ built
    obtain ⟨row, found, long⟩ := serves.variable_row Store.empty "x" none [] (by decide)
    exact ⟨_, built, represents, row, found, Int.ofNat.inj long⟩

/-- One sample in a number of lists. -/
def boxed (value : α) : Nat → Nested α
  | 0 => .sample value
  | levels + 1 => .list [boxed value levels]

/-- Without rows there may be fewer samples than none, and more than a row can hold; no
constant has a value over them.  Lists that are nested too deeply are not refused for their
shape. -/
theorem build_without_rows :
    (∃ samples : Samples Float, build [] (some (-1)) = .ok samples ∧ samples.count = -1 ∧
      Expr.rowOver samples Store.empty (Tree.node ⟨.const 1, none⟩ []) =
        .error (.notALength (-1))) ∧
    (∃ samples : Samples Float, build [] (some 1.5e18) = .ok samples ∧
      samples.count = 1500000000000000000 ∧
      Expr.rowOver samples Store.empty (Tree.node ⟨.const 1, none⟩ []) =
        .error (.notALength 1500000000000000000)) ∧
    (boxed (1 : Float) 65).shape? = some (List.replicate 65 1) ∧
      (build [("x", boxed (1 : Float) 65)] none = .error (.tooDeep "x")) := by
  have negative : Binary64.truncate (-1) = .ok (-1) := by decide +kernel
  have great : Binary64.truncate 1.5e18 = .ok 1500000000000000000 := by decide +kernel
  refine ⟨⟨⟨[], -1⟩, ?_, rfl, ?_⟩, ⟨⟨[], 1500000000000000000⟩, ?_, rfl, ?_⟩, rfl, rfl⟩
  · rw [build_of_truncate _ negative]
    exact ofRows_nil (-1)
  · rw [Expr.rowOver_const]
    rfl
  · rw [build_of_truncate _ great]
    exact ofRows_nil 1500000000000000000
  · rw [Expr.rowOver_const]
    rfl

end Samples

end Formulary
