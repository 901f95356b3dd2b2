import Formulary.Proofs.Domain.Resampling
import Formulary.Proofs.Evaluation.Outcomes
import Formulary.Proofs.Evaluation.Samplewise

/-!
# Evaluation over samples taken anew

Evaluation treats every sample by itself.  Over samples that are taken at some
places of others it gives what is at these places of the value over the others, or
fails in the same way.  The same holds of slices and of joined samples.  The only
thing that counts how many samples there are is a constant, for which there may be no
row that is long enough.

Main results:

- Definition `Expr.rowOver`: the value over samples, wherever they are placed.
- Definition `Expr.LacksRows`: there are no rows to hold a constant.
- Theorem `Expr.firstFaultOver?_number`: faults do not depend on the number of samples
  unless there are no rows.
- Theorem `Expr.rowOver_samplewise`: evaluation over samples taken at some places, over
  slices and over joined samples.
-/

namespace Formulary.Expr

variable {α : Type}

/-! ## Failures over other samples -/

section

variable {bound : String → Bool} {count number : Int}

/-- There are no rows of a number of samples that is not below the limit. -/
theorem rowLength?_eq_none_iff (natural : 0 ≤ count) :
    rowLength? count = none ↔ (rowLimit : Int) ≤ count := by
  simp only [rowLength?, natural, true_and, ite_eq_right_iff, reduceCtorEq, imp_false, Int.not_lt]

/-- What is wrong with a node does not depend on the number of samples unless it is a
constant for which there are no rows. -/
theorem faultOver?_number (natural : 0 ≤ count) (natural_number : 0 ≤ number) (node : Expr α) :
    ((rowLimit : Int) ≤ count ∧ faultOver? bound count node = some (.notALength count)) ∨
    ((rowLimit : Int) ≤ number ∧ faultOver? bound number node = some (.notALength number)) ∨
    faultOver? bound number node = faultOver? bound count node := by
  obtain ⟨mark, children⟩ := node
  cases label : mark.label with
  | const value =>
    simp only [faultOver?_const label]
    cases long : rowLength? count with
    | none => exact .inl ⟨(rowLength?_eq_none_iff natural).1 long, rfl⟩
    | some length =>
      cases long_number : rowLength? number with
      | none => exact .inr (.inl ⟨(rowLength?_eq_none_iff natural_number).1 long_number, rfl⟩)
      | some other => exact .inr (.inr rfl)
  | var name => exact .inr (.inr (by rw [faultOver?_var label, faultOver?_var label]))
  | op operation => exact .inr (.inr (by rw [faultOver?_op label, faultOver?_op label]))

/-- Nor does the first fault. -/
theorem firstFaultOver?_number (natural : 0 ≤ count) (natural_number : 0 ≤ number)
    (expr : Expr α) :
    ((rowLimit : Int) ≤ count ∧ expr.firstFaultOver? bound count = some (.notALength count)) ∨
    ((rowLimit : Int) ≤ number ∧
      expr.firstFaultOver? bound number = some (.notALength number)) ∨
    expr.firstFaultOver? bound number = expr.firstFaultOver? bound count := by
  unfold firstFaultOver?
  induction expr.evaluatedPart.preorder with
  | nil => exact .inr (.inr rfl)
  | cons node rest ih =>
    simp only [List.findSome?_cons]
    rcases @faultOver?_number _ bound _ _ natural natural_number node with
      ⟨long, fault⟩ | ⟨long, fault⟩ | same
    · exact .inl ⟨long, by rw [fault]⟩
    · exact .inr (.inl ⟨long, by rw [fault]⟩)
    · rw [same]
      cases faultOver? bound count node with
      | some error => exact .inr (.inr rfl)
      | none => exact ih

end

variable [Scalar α]

/-! ## Values over samples -/

/-- The value of an expression over samples that are placed in a store, or the failure
to which evaluation comes. -/
def rowOver (samples : Samples α) (store : Store α) (expr : Expr α) :
    Except EvalError (List α) :=
  (expr.evaluate (Domain.copyingOf samples store).1).row (Domain.copyingOf samples store).2

/-- Evaluation comes to a constant for which there are no rows. -/
def LacksRows (samples : Samples α) (store : Store α) (expr : Expr α) : Prop :=
  (rowLimit : Int) ≤ samples.count ∧
    expr.rowOver samples store = .error (.notALength samples.count)

theorem rowOver_eq_valueOn (samples : Samples α) (store : Store α) (expr : Expr α) :
    expr.rowOver samples store = expr.valueOn samples :=
  row_evaluate_copyingOf samples store expr

section

variable {rows : Bindings (List α)} {size : Option Int} {samples : Samples α}
  {store other : Store α} {expr : Expr α}

/-- The value over samples is as long as their number says. -/
theorem length_rowOver (made : Samples.ofRows rows size = .ok samples) {row : List α}
    (found : expr.rowOver samples store = .ok row) : (row.length : Int) = samples.count := by
  have inferred := length_evaluate_copyingOf samples store expr
  rw [rowOver] at found
  rw [found] at inferred
  exact length?_eq_count (Samples.level made) inferred.symm

/-! ## Samples taken at some places -/

variable {places : List Nat}

/-- Where there is a value before and after, the new samples of it are taken at the
same places. -/
theorem rowOver_resample_of_ok (made : Samples.ofRows rows size = .ok samples)
    (inside : ∀ place ∈ places, (place : Int) < samples.count) (several : expr.ReducesSeveral)
    {row taken : List α} (before : expr.rowOver samples store = .ok row)
    (after : expr.rowOver (samples.resample places) other = .ok taken) :
    taken = resample places row := by
  have long := length_rowOver made before
  have long_taken : taken.length = places.length :=
    Int.ofNat.inj (length_rowOver (Samples.ofRows_resample made inside) after)
  have row_inside := Samples.lt_length_of_mem inside long
  rw [rowOver_eq_valueOn] at before after
  apply List.ext_getElem?
  intro index
  rw [getElem?_resample row_inside]
  cases here : places[index]? with
  | none =>
    rw [List.getElem?_eq_none_iff] at here
    rw [List.getElem?_eq_none (by omega)]
    rfl
  | some place =>
    obtain ⟨short, -⟩ := List.getElem?_eq_some_iff.1 here
    have place_inside := row_inside place (List.mem_of_getElem? here)
    rw [Option.bind_some, getElem?_value several before place_inside,
      getElem?_value several after (by omega), Samples.samplesAt_resample made inside here]

/-- Evaluation over samples taken at some places fails as it does over all, and
otherwise gives the samples at these places. -/
theorem rowOver_resample (made : Samples.ofRows rows size = .ok samples)
    (natural : 0 ≤ samples.count) (inside : ∀ place ∈ places, (place : Int) < samples.count) :
    expr.LacksRows samples store ∨ expr.LacksRows (samples.resample places) other ∨
      (∀ error, expr.rowOver (samples.resample places) other = .error error ↔
        expr.rowOver samples store = .error error) ∧
      (expr.ReducesSeveral → expr.rowOver (samples.resample places) other =
        (expr.rowOver samples store).map (resample places)) := by
  have made_taken := Samples.ofRows_resample made inside
  have fails := evaluate_copyingOf_eq_error_iff made store expr
  have fails_taken := evaluate_copyingOf_eq_error_iff made_taken other expr
  simp only [Samples.find?_resample, Option.isSome_map] at fails_taken
  rcases @firstFaultOver?_number _ (fun name => (samples.rows.find? name).isSome) _ _ natural
      (Int.natCast_nonneg places.length) expr with ⟨long, first⟩ | ⟨long, first⟩ | same
  · exact .inl ⟨long, (fails _).2 first⟩
  · exact .inr (.inl ⟨long, (fails_taken _).2 first⟩)
  · have same_failures : ∀ error, expr.rowOver (samples.resample places) other = .error error ↔
        expr.rowOver samples store = .error error := by
      intro error
      rw [rowOver, rowOver, fails, fails_taken, ← same]
      rfl
    refine .inr (.inr ⟨same_failures, ?_⟩)
    intro several
    cases before : expr.rowOver samples store with
    | error error =>
      rw [(same_failures error).2 before]
      rfl
    | ok row =>
      cases after : expr.rowOver (samples.resample places) other with
      | error error =>
        rw [(same_failures error).1 after] at before
        cases before
      | ok taken =>
        rw [rowOver_resample_of_ok made inside several before after]
        rfl

/-- Evaluation over a slice gives the slice of the value. -/
theorem rowOver_slice (made : Samples.ofRows rows size = .ok samples)
    (natural : 0 ≤ samples.count) (several : expr.ReducesSeveral) {start length : Nat}
    (inside : ((start + length : Nat) : Int) ≤ samples.count) :
    expr.LacksRows samples store ∨ expr.LacksRows (samples.slice start length) other ∨
      expr.rowOver (samples.slice start length) other =
        (expr.rowOver samples store).map fun row => (row.drop start).take length := by
  have places_inside : ∀ place ∈ List.range' start length, (place : Int) < samples.count := by
    intro place member
    have := (List.mem_range'_1.1 member).2
    omega
  have taken := @rowOver_resample _ _ _ _ _ store other expr _ made natural places_inside
  rw [← Samples.slice_eq_resample made inside] at taken
  refine taken.imp_right (Or.imp_right ?_)
  rintro ⟨-, values⟩
  rw [values several]
  cases found : expr.rowOver samples store with
  | error error => rfl
  | ok row =>
    have long := length_rowOver made found
    have row_inside : start + length ≤ row.length := by omega
    exact congrArg Except.ok (resample_range' row_inside)

/-! ## Joined samples -/

/-- Evaluation depends on the rows that are found, and on the number of samples. -/
theorem rowOver_congr {others : Samples α}
    (found : ∀ name, samples.rows.find? name = others.rows.find? name)
    (count : samples.count = others.count) :
    expr.rowOver samples store = expr.rowOver others other := by
  rw [rowOver_eq_valueOn, rowOver_eq_valueOn, valueOn, valueOn, count, funext found]

/-- Evaluation over joined samples joins the values, or fails as it does over both. -/
theorem rowOver_join {more : Bindings (List α)} {number : Option Int} {back : Samples α}
    {joined : Store α} (made : Samples.ofRows rows size = .ok samples)
    (natural : 0 ≤ samples.count) (made_back : Samples.ofRows more number = .ok back)
    (natural_back : 0 ≤ back.count)
    (same : ∀ name, name ∈ samples.rows.names ↔ name ∈ back.rows.names)
    (several : expr.ReducesSeveral) :
    expr.LacksRows (samples.join back) joined ∨ expr.LacksRows samples store ∨
      expr.LacksRows back other ∨
      expr.rowOver (samples.join back) joined = do
        let front_row ← expr.rowOver samples store
        let back_row ← expr.rowOver back other
        return front_row ++ back_row := by
  have made_whole := Samples.ofRows_join made natural made_back natural_back same
  have total : (samples.join back).count = samples.count + back.count := rfl
  have front := @rowOver_slice _ _ _ _ _ joined store expr made_whole (by omega) several 0
    samples.count.toNat (by omega)
  have rest := @rowOver_slice _ _ _ _ _ joined other expr made_whole (by omega) several
    samples.count.toNat back.count.toNat (by omega)
  have rest_is_back : expr.rowOver
      ((samples.join back).slice samples.count.toNat back.count.toNat) other =
        expr.rowOver back other :=
    rowOver_congr (Samples.find?_slice_join_back made made_back same)
      (Int.toNat_of_nonneg natural_back)
  have rest_count :
      ((samples.join back).slice samples.count.toNat back.count.toNat).count = back.count :=
    Int.toNat_of_nonneg natural_back
  rw [Samples.slice_join_front made natural] at front
  rw [LacksRows, LacksRows, rest_is_back, rest_count] at rest
  rcases front with lacking | lacking | front
  · exact .inl lacking
  · exact .inr (.inl lacking)
  rcases rest with lacking | lacking | rest
  · exact .inl lacking
  · exact .inr (.inr (.inl lacking))
  refine .inr (.inr (.inr ?_))
  rw [front, rest]
  cases whole : expr.rowOver (samples.join back) joined with
  | error error => rfl
  | ok row =>
    have long := length_rowOver made_whole whole
    have back_whole : (row.drop samples.count.toNat).length ≤ back.count.toNat := by
      rw [List.length_drop]
      omega
    show Except.ok row = Except.ok ((row.drop 0).take samples.count.toNat ++
      (row.drop samples.count.toNat).take back.count.toNat)
    rw [List.drop_zero, List.take_of_length_le back_whole, List.take_append_drop]

/-! ## Sample by sample -/

/-- Evaluation goes sample by sample.  Over samples taken at any places of others it
fails as it does over these, and if no reduction has a single argument, it otherwise
gives what is at these places of the value.  Then evaluation over a slice gives the
slice of the value, and evaluation over joined samples joins the values.  The only
exception is a constant for which there are no rows of one of the lengths. -/
theorem rowOver_samplewise (made : Samples.ofRows rows size = .ok samples)
    (natural : 0 ≤ samples.count) (expr : Expr α) (store other : Store α) :
    (∀ places : List Nat, (∀ place ∈ places, (place : Int) < samples.count) →
      Samples.ofRows (samples.resample places).rows (some (places.length : Int)) =
        .ok (samples.resample places) ∧
      (expr.LacksRows samples store ∨ expr.LacksRows (samples.resample places) other ∨
        (∀ error, expr.rowOver (samples.resample places) other = .error error ↔
          expr.rowOver samples store = .error error) ∧
        (expr.ReducesSeveral → expr.rowOver (samples.resample places) other =
          (expr.rowOver samples store).map (resample places)))) ∧
    (expr.ReducesSeveral → ∀ start length : Nat,
      ((start + length : Nat) : Int) ≤ samples.count →
      expr.LacksRows samples store ∨ expr.LacksRows (samples.slice start length) other ∨
        expr.rowOver (samples.slice start length) other =
          (expr.rowOver samples store).map fun row => (row.drop start).take length) ∧
    (expr.ReducesSeveral → ∀ more number back joined,
      Samples.ofRows more number = .ok back → 0 ≤ back.count →
      (∀ name, name ∈ samples.rows.names ↔ name ∈ back.rows.names) →
      expr.LacksRows (samples.join back) joined ∨ expr.LacksRows samples store ∨
        expr.LacksRows back other ∨
        expr.rowOver (samples.join back) joined = do
          let front_row ← expr.rowOver samples store
          let back_row ← expr.rowOver back other
          return front_row ++ back_row) := by
  refine ⟨?_, ?_, ?_⟩
  · intro places inside
    exact ⟨Samples.ofRows_resample made inside, rowOver_resample made natural inside⟩
  · intro several start length inside
    exact rowOver_slice made natural several inside
  · intro several more number back joined made_back natural_back same
    exact rowOver_join made natural made_back natural_back same several

end

/-- The least of one and of a variable has two arguments. -/
theorem reducesSeveral_leastOfOne (name : String) : (leastOfOne name).ReducesSeveral := by
  have nodes : (leastOfOne name).evaluatedNodes =
      [leastOfOne name, .node ⟨.const 1, none⟩ [], .node ⟨.var name, none⟩ []] := rfl
  intro node member op label
  simp only [nodes, List.mem_cons, List.not_mem_nil, or_false] at member
  rcases member with rfl | rfl | rfl
  · exact Nat.succ_ne_self 1
  · cases label
  · cases label

/-- Two samples are taken in turn. -/
theorem rowOver_samplewise_leastOfOne :
    Samples.ofRows [("x", [3, (1 : Float)])] none = .ok ⟨[("x", [3, 1])], 2⟩ ∧
      rowOver ⟨[("x", [1, 3, 1])], 3⟩ Store.empty (leastOfOne "x") =
        (rowOver ⟨[("x", [3, 1])], 2⟩ Store.empty (leastOfOne "x")).map (resample [1, 0, 1]) := by
  have made : Samples.ofRows [("x", [3, (1 : Float)])] none = .ok ⟨[("x", [3, 1])], 2⟩ :=
    Samples.ofRows_singleton "x" [3, 1]
  have judged := (rowOver_samplewise made (by decide) (leastOfOne "x") Store.empty Store.empty).1
    [1, 0, 1] (by decide)
  refine ⟨made, ?_⟩
  rcases judged.2 with ⟨long, -⟩ | ⟨long, -⟩ | ⟨-, values⟩
  · exact absurd long (by decide)
  · exact absurd long (by decide)
  · exact values (reducesSeveral_leastOfOne "x")

/-- A sample that is taken more often than a row can hold changes the failure: the
constant fails, and not the variable that is not bound. -/
theorem rowOver_repeated_without_rows :
    ∃ (samples : Samples Float) (places : List Nat),
      Samples.ofRows [] (some 1) = .ok samples ∧
      (∀ place ∈ places, (place : Int) < samples.count) ∧
      Samples.ofRows (samples.resample places).rows (some (places.length : Int)) =
        .ok (samples.resample places) ∧
      (leastOfOne "q").ReducesSeveral ∧
      rowOver samples Store.empty (leastOfOne "q") = .error (.unbound "q") ∧
      rowOver (samples.resample places) Store.empty (leastOfOne "q") =
        .error (.notALength 1500000000000000000) := by
  have made : Samples.ofRows ([] : Bindings (List Float)) (some 1) = .ok ⟨[], 1⟩ :=
    Samples.ofRows_nil 1
  have inside : ∀ place ∈ List.replicate 1500000000000000000 (0 : Nat), (place : Int) < 1 := by
    intro place member
    rw [List.eq_of_mem_replicate member]
    exact Int.one_pos
  have repeated : Samples.resample (⟨[], 1⟩ : Samples Float)
      (List.replicate 1500000000000000000 0) = ⟨[], 1500000000000000000⟩ := by
    rw [Samples.resample, List.length_replicate]
    rfl
  refine ⟨⟨[], 1⟩, List.replicate 1500000000000000000 0, made, inside,
    Samples.ofRows_resample made inside, reducesSeveral_leastOfOne "q", rfl, ?_⟩
  rw [repeated]
  rfl

end Formulary.Expr
