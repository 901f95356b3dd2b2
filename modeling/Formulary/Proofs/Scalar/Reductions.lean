import Formulary.Scalar
import Mathlib.Data.List.Forall2

/-!
# Reductions of samples

A reduction goes through its samples from left to right.  This module says which laws of a
single step make the order and the grouping of the samples irrelevant, up to a relation
under which samples count as the same.

Main results:

- Definition `Reduction.Laws`: the laws of a step.
- Theorem `Reduction.Laws.combined_flatten`: samples may be reduced in groups.
- Theorem `Reduction.Laws.combined_perm`: samples may be reduced in any order.
- Theorem `Reduction.Laws.isNaN_combined`: what is not a number stays.
-/

namespace Formulary.Reduction

variable {α : Type} [Scalar α]

/-- The reduction of several samples, one after another. -/
def combined (op : Reduction) (samples : List α) : α :=
  samples.foldl (Scalar.reduce op) (Scalar.start op)

/-- What the steps of a reduction do up to `alike`.  `isNaN` tells the samples that are not
numbers. -/
structure Laws (op : Reduction) (alike : α → α → Prop) (isNaN : α → Prop) : Prop where
  equivalence : Equivalence alike
  congr : ∀ {x x' y y'}, alike x x' → alike y y' →
    alike (Scalar.reduce op x y) (Scalar.reduce op x' y')
  assoc : ∀ x y z, alike (Scalar.reduce op (Scalar.reduce op x y) z)
    (Scalar.reduce op x (Scalar.reduce op y z))
  comm : ∀ x y, alike (Scalar.reduce op x y) (Scalar.reduce op y x)
  neutral : ∀ x, alike (Scalar.reduce op (Scalar.start op) x) x
  isNaN_congr : ∀ {x y}, alike x y → (isNaN x ↔ isNaN y)
  isNaN_reduce : ∀ x y, isNaN (Scalar.reduce op x y) ↔ isNaN x ∨ isNaN y
  isNumber_start : ¬isNaN (Scalar.start op)

namespace Laws

variable {op : Reduction} {alike : α → α → Prop} {isNaN : α → Prop}

theorem refl (laws : op.Laws alike isNaN) (x : α) : alike x x := laws.equivalence.refl x

theorem symm (laws : op.Laws alike isNaN) {x y : α} (same : alike x y) : alike y x :=
  laws.equivalence.symm same

theorem trans (laws : op.Laws alike isNaN) {x y z : α} (first : alike x y)
    (second : alike y z) : alike x z :=
  laws.equivalence.trans first second

/-! ## One sample after another -/

/-- Reducing on from alike samples gives alike ones. -/
theorem foldl_congr (laws : op.Laws alike isNaN) {x y : α} (same : alike x y)
    (samples : List α) :
    alike (samples.foldl (Scalar.reduce op) x) (samples.foldl (Scalar.reduce op) y) := by
  induction samples generalizing x y with
  | nil => exact same
  | cons sample rest ih => exact ih (laws.congr same (laws.refl sample))

/-- To reduce on from a sample is to reduce it with the reduction of the others. -/
theorem foldl_reduce (laws : op.Laws alike isNaN) (x : α) (samples : List α) :
    alike (samples.foldl (Scalar.reduce op) x) (Scalar.reduce op x (op.combined samples)) := by
  induction samples generalizing x with
  | nil =>
    have neutral : alike (Scalar.reduce op x (Scalar.start op)) x :=
      laws.trans (laws.comm _ _) (laws.neutral x)
    exact laws.symm neutral
  | cons sample rest ih =>
    -- What was reduced so far is `x`; the law of association moves `sample` to the rest.
    have inner : alike (op.combined (sample :: rest))
        (Scalar.reduce op sample (op.combined rest)) :=
      laws.trans (laws.foldl_congr (laws.neutral sample) rest) (ih sample)
    have regrouped : alike (rest.foldl (Scalar.reduce op) (Scalar.reduce op x sample))
        (Scalar.reduce op x (Scalar.reduce op sample (op.combined rest))) :=
      laws.trans (ih (Scalar.reduce op x sample)) (laws.assoc x sample (op.combined rest))
    exact laws.trans regrouped (laws.congr (laws.refl x) (laws.symm inner))

theorem combined_cons (laws : op.Laws alike isNaN) (sample : α) (rest : List α) :
    alike (op.combined (sample :: rest)) (Scalar.reduce op sample (op.combined rest)) :=
  laws.trans (laws.foldl_congr (laws.neutral sample) rest) (laws.foldl_reduce sample rest)

/-- What is alike for one sample and for the reduction of the others is alike for the
reduction of them all. -/
theorem alike_combined_cons (laws : op.Laws alike isNaN) {sample reduced x : α}
    {rest : List α} (head : alike x sample) (tail : alike reduced (op.combined rest)) :
    alike (Scalar.reduce op x reduced) (op.combined (sample :: rest)) :=
  laws.trans (laws.congr head tail) (laws.symm (laws.combined_cons sample rest))

theorem combined_append (laws : op.Laws alike isNaN) (front back : List α) :
    alike (op.combined (front ++ back))
      (Scalar.reduce op (op.combined front) (op.combined back)) := by
  rw [combined, List.foldl_append]
  exact laws.foldl_reduce (op.combined front) back

/-! ## Groups and order -/

/-- Alike samples have alike reductions. -/
theorem combined_congr (laws : op.Laws alike isNaN) {samples others : List α}
    (same : List.Forall₂ alike samples others) :
    alike (op.combined samples) (op.combined others) := by
  induction same with
  | nil => exact laws.refl _
  | cons head _ ih =>
    exact laws.trans (laws.combined_cons _ _) (laws.alike_combined_cons head ih)

/-- One sample may be replaced by one that is alike. -/
theorem combined_replace (laws : op.Laws alike isNaN) {x y : α} (same : alike x y)
    (front back : List α) :
    alike (op.combined (front ++ x :: back)) (op.combined (front ++ y :: back)) := by
  have others : ∀ samples : List α, List.Forall₂ alike samples samples :=
    fun samples => List.forall₂_same.2 fun sample _ => laws.refl sample
  exact laws.combined_congr (List.rel_append (others front) (.cons same (others back)))

/-- Samples may be reduced group by group. -/
theorem combined_flatten (laws : op.Laws alike isNaN) (groups : List (List α)) :
    alike (op.combined groups.flatten) (op.combined (groups.map op.combined)) := by
  induction groups with
  | nil => exact laws.refl _
  | cons group rest ih =>
    rw [List.flatten_cons, List.map_cons]
    exact laws.trans (laws.combined_append group rest.flatten)
      (laws.alike_combined_cons (laws.refl (op.combined group)) ih)

/-- Samples may be reduced in any order. -/
theorem combined_perm (laws : op.Laws alike isNaN) {samples others : List α}
    (perm : samples.Perm others) : alike (op.combined samples) (op.combined others) := by
  induction perm with
  | nil => exact laws.refl _
  | cons sample _ ih =>
    exact laws.trans (laws.combined_cons _ _) (laws.alike_combined_cons (laws.refl sample) ih)
  | swap first second rest =>
    have swapped : alike (Scalar.reduce op (Scalar.reduce op (Scalar.start op) second) first)
        (Scalar.reduce op (Scalar.reduce op (Scalar.start op) first) second) :=
      laws.trans (laws.assoc _ second first)
        (laws.trans (laws.congr (laws.refl _) (laws.comm second first))
          (laws.symm (laws.assoc _ first second)))
    exact laws.foldl_congr swapped rest
  | trans _ _ first second => exact laws.trans first second

/-! ## What is not a number -/

/-- A reduction is not a number exactly when one of its samples is not. -/
theorem isNaN_combined (laws : op.Laws alike isNaN) (samples : List α) :
    isNaN (op.combined samples) ↔ ∃ sample ∈ samples, isNaN sample := by
  induction samples with
  | nil =>
    constructor
    · intro startless
      exact absurd startless laws.isNumber_start
    · rintro ⟨sample, member, -⟩
      cases member
  | cons sample rest ih =>
    rw [laws.isNaN_congr (laws.combined_cons sample rest), laws.isNaN_reduce, ih]
    simp only [List.mem_cons, or_and_right, exists_or, exists_eq_left]

end Laws

end Formulary.Reduction
