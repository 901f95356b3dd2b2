import Formulary.Proofs.Registry.Separation

/-!
# Requests made again

What became of a request may be asked of a registry again after any others.  A
refusal without notes is final, since formulas and arguments only become more.  A
request that was carried out is ignored ever after, since its formula stays apart
from whatever follows.

Main results:

- Definition `Registry.CarriedOut`: a request was carried out on the way to a
  registry.
- Theorem `Registry.refused_iff`: a request without notes is refused exactly when
  its signature cannot be read or collides.
- Theorem `Registry.outcome_of_mem`: a request for a formula that is there is
  ignored.
- Theorem `Registry.retries`: refusals without notes stay, and what was carried out
  is ignored.
-/

namespace Formulary.Registry

/-! ## Refusals -/

/-- A request without notes is refused exactly when its signature cannot be read or
collides. -/
theorem refused_iff {registry : Registry} {signature definition : Option String} :
    (∃ error, registry.outcome (plainRequest signature definition) = .refused error) ↔
      ∀ own, Signature.read signature = .ok own → registry.collision? own ≠ none := by
  simp only [outcome, plainRequest, Option.isSome_none, Bool.false_and, Bool.false_eq_true,
    if_false]
  cases Signature.read signature with
  | error error => simp
  | ok own =>
    simp only [Except.ok.injEq, forall_eq']
    cases registry.collision? own with
    | some cause => simp
    | none =>
      simp only [ne_eq, not_true_eq_false, iff_false, not_exists]
      intro error
      split <;> exact Outcome.noConfusion

/-- A refusal without notes is final. -/
theorem refused_addAll {registry : Registry} {signature definition : Option String}
    (refused : ∃ error, registry.outcome (plainRequest signature definition) = .refused error)
    (requests : List Request) :
    ∃ error, (registry.addAll requests).outcome (plainRequest signature definition) =
      .refused error := by
  rw [refused_iff] at refused ⊢
  intro own accepted free
  exact refused own accepted (collision?_eq_none_mono (registry.names_subset_addAll requests)
    (registry.arguments_subset_addAll requests) free)

/-! ## Requests that were carried out -/

/-- A request was carried out on the way to a registry: it made an entry in an
earlier one, and further requests led on from there. -/
def CarriedOut (registry : Registry) (request : Request) : Prop :=
  ∃ (earlier : Registry) (entry : Entry) (further : List Request), earlier.Reachable ∧
    earlier.outcome request = .registered entry ∧
    registry = (earlier.add request).addAll further

/-- What was carried out stays carried out. -/
theorem CarriedOut.addAll {registry : Registry} {request : Request}
    (carried_out : registry.CarriedOut request) (requests : List Request) :
    (registry.addAll requests).CarriedOut request := by
  obtain ⟨earlier, entry, further, reachable, registered, rfl⟩ := carried_out
  exact ⟨earlier, entry, further ++ requests, reachable, registered, List.foldl_append.symm⟩

/-- The entry of a request that was carried out is still there, apart from all
others. -/
theorem CarriedOut.exists_entry {registry : Registry} {request : Request}
    (carried_out : registry.CarriedOut request) :
    registry.Separated ∧ ∃ entry ∈ registry.entries,
      Signature.read request.signature = .ok entry.signature := by
  obtain ⟨earlier, entry, further, reachable, registered, rfl⟩ := carried_out
  refine ⟨(reachable.add request).separated.addAll further, entry, ?_, ?_⟩
  · refine (entries_prefix_addAll _ further).subset ?_
    rw [add, registered]
    exact List.mem_append_right _ List.mem_cons_self
  · obtain ⟨signature, accepted, -, -, rfl⟩ := outcome_eq_registered_iff.1 registered
    exact accepted

/-- A request for a formula that is there, apart from all others, is ignored. -/
theorem outcome_of_mem {registry : Registry} (separated : registry.Separated) {entry : Entry}
    (member : entry ∈ registry.entries) {request : Request}
    (accepted : Signature.read request.signature = .ok entry.signature) :
    registry.outcome request = .ignored entry.signature.name request.trimmedSignature := by
  have known : registry.contains entry.signature.name = true :=
    contains_iff.2 (List.mem_map.2 ⟨entry, member, rfl⟩)
  have free := separated.collision?_eq_none member
  rw [outcome, accepted]
  simp only [known, free, if_true, ite_self]

/-! ## Retries -/

/-- A request without notes that is refused is refused again after any further
requests.  A request with or without notes that was carried out on the way to a
registry is ignored there and after any further requests, and changes nothing. -/
theorem retries (registry : Registry) :
    (∀ signature definition,
      (∃ error, registry.outcome (plainRequest signature definition) = .refused error) →
        ∀ requests, ∃ error,
          (registry.addAll requests).outcome (plainRequest signature definition) =
            .refused error) ∧
    ∀ request, registry.CarriedOut request → ∀ requests,
      (∃ name text, (registry.addAll requests).outcome request = .ignored name text) ∧
      (registry.addAll requests).add request = registry.addAll requests := by
  refine ⟨fun signature definition => refused_addAll, ?_⟩
  intro request carried_out requests
  obtain ⟨separated, entry, member, accepted⟩ := (carried_out.addAll requests).exists_entry
  have ignored := outcome_of_mem separated member accepted
  refine ⟨⟨_, _, ignored⟩, ?_⟩
  rw [add, ignored, after]

/-- With `f(x)` registered, `x` stays refused, and `f(x)` is ignored from then on. -/
theorem retries_first_formula :
    let registry := empty.add ⟨some "f(x)", some "x+1", none⟩
    ∀ requests,
      (∃ error, (registry.addAll requests).outcome (plainRequest (some "x") (some "1")) =
        .refused error) ∧
      (registry.addAll requests).add ⟨some "f(x)", some "x+1", none⟩ =
        registry.addAll requests := by
  intro registry requests
  have refused : registry.outcome (plainRequest (some "x") (some "1")) =
      .refused (.collision "x" .domainVariable) := by decide +kernel
  have registered : empty.outcome ⟨some "f(x)", some "x+1", none⟩ =
      .registered ⟨⟨"f", ["x"]⟩, some "x+1", []⟩ := by decide +kernel
  have carried_out : registry.CarriedOut ⟨some "f(x)", some "x+1", none⟩ :=
    ⟨empty, _, [], .empty, registered, rfl⟩
  exact ⟨(retries registry).1 _ _ ⟨_, refused⟩ requests,
    ((retries registry).2 _ carried_out requests).2⟩

/-- A refusal with notes is not final: `g(f)` is ignored once there is another formula
`g`. -/
example :
    let registry := empty.add ⟨some "f(x)", some "x+1", none⟩
    let noted : Request := ⟨some "g(f)", some "f", some []⟩
    registry.outcome noted = .refused (.collision "g" (.definedArguments ["f"])) ∧
      (registry.add ⟨some "g(y)", some "y", none⟩).outcome noted = .ignored "g" "g(f)" := by
  decide +kernel

end Formulary.Registry
