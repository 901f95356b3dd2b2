import Mathlib.Data.List.Perm.Basic
import Formulary.Proofs.Bindings.Sorting
import Formulary.Proofs.Registry.Separation

/-!
# Batches of requests

Several formulas with new names may be requested one after another.  Each request is
looked at with those before it only, but in the end formulas and arguments have to
be apart, and this does not depend on the order.

Main results:

- Definition `Request.formula?`: the entry that is made of a request, whatever the
  registry.
- Theorem `Registry.Separated.perm`: entries are kept apart in any order.
- Theorem `Registry.addUntilRefused_of_separated`: requests are carried out if
  their entries are kept apart.
- Theorem `Registry.addUntilRefused_perm`: a batch with new names is carried out in
  every order or in none, and the order makes a difference to nothing but the order
  of the formulas.
-/

namespace Formulary

/-! ## What is made of a request -/

/-- The entry that is made of a request if its signature can be read. -/
def Request.formula? (request : Request) : Option Entry :=
  (Signature.read request.signature).toOption.map fun signature =>
    ⟨signature, request.definition, request.entryNotes signature⟩

/-- The name in the signature of a request if that can be read. -/
def Request.name? (request : Request) : Option String :=
  (Signature.read request.signature).toOption.map (·.name)

theorem Request.formula?_eq_some_iff {request : Request} {entry : Entry} :
    request.formula? = some entry ↔
      Signature.read request.signature = .ok entry.signature ∧
        entry.definition = request.definition ∧
        entry.notes = request.entryNotes entry.signature := by
  obtain ⟨signature, definition, notes⟩ := entry
  rw [formula?]
  cases Signature.read request.signature with
  | error error => simp [Except.toOption]
  | ok own =>
    simp only [Except.toOption, Option.map_some, Option.some.injEq, Entry.mk.injEq,
      Except.ok.injEq]
    constructor
    · rintro ⟨rfl, rfl, rfl⟩
      exact ⟨rfl, rfl, rfl⟩
    · rintro ⟨rfl, rfl, rfl⟩
      exact ⟨rfl, rfl, rfl⟩

/-- The entry made of a request bears its name. -/
theorem Request.name?_eq_map_formula? (request : Request) :
    request.name? = request.formula?.map (·.signature.name) := by
  rw [name?, formula?, Option.map_map]
  rfl

namespace Registry

/-! ## Entries in any order -/

section

variable {entries others : List Entry} (permuted : entries.Perm others)
include permuted

theorem names_perm : (names ⟨entries⟩).Perm (names ⟨others⟩) :=
  permuted.map _

theorem arguments_perm : (arguments ⟨entries⟩).Perm (arguments ⟨others⟩) :=
  permuted.flatMap_right _

/-- Entries are kept apart in any order. -/
theorem Separated.perm (separated : Separated ⟨entries⟩) : Separated ⟨others⟩ where
  signatures := fun entry member => separated.signatures entry (permuted.mem_iff.2 member)
  names := (names_perm permuted).nodup_iff.1 separated.names
  apart := by
    intro name registered listed
    exact separated.apart name ((names_perm permuted).mem_iff.2 registered)
      ((arguments_perm permuted).mem_iff.2 listed)

/-- The formulas found under their names do not depend on the order. -/
theorem find?_perm (distinct : (names ⟨entries⟩).Nodup) (name : String) :
    find? ⟨others⟩ name = find? ⟨entries⟩ name := by
  have distinct_others := (names_perm permuted).nodup_iff.1 distinct
  cases found : find? ⟨entries⟩ name with
  | none =>
    rw [find?_eq_none_iff] at found ⊢
    exact fun registered => found ((names_perm permuted).mem_iff.2 registered)
  | some entry =>
    obtain ⟨rfl, member⟩ := find?_some found
    exact find?_of_mem distinct_others (permuted.mem_iff.1 member)

/-- Nor do the names of the arguments. -/
theorem argumentNames_perm : argumentNames ⟨entries⟩ = argumentNames ⟨others⟩ :=
  sortedNames_congr fun _ => (arguments_perm permuted).mem_iff

end

/-! ## Batches that are carried out -/

section

variable {front rest : List Entry}

/-- A request is carried out after some of the entries from which its entry is kept
apart. -/
theorem outcome_of_separated {request : Request} {entry : Entry}
    (separated : Separated ⟨front ++ entry :: rest⟩) (made : request.formula? = some entry) :
    outcome ⟨front⟩ request = .registered entry := by
  obtain ⟨accepted, definition, notes⟩ := Request.formula?_eq_some_iff.1 made
  have new : entry.signature.name ∉ names ⟨front⟩ := by
    have distinct := separated.names
    rw [names, List.map_append, List.map_cons, List.nodup_append] at distinct
    intro registered
    exact distinct.2.2 _ registered _ List.mem_cons_self rfl
  have free : collision? ⟨front⟩ entry.signature = none := by
    refine collision?_eq_none_mono ?_ ?_
      (separated.collision?_eq_none (List.mem_append_right _ List.mem_cons_self))
    · rw [names, names, List.map_append]
      exact List.subset_append_left _ _
    · rw [arguments, arguments, List.flatMap_append]
      exact List.subset_append_left _ _
  refine outcome_eq_registered_iff.2 ⟨_, accepted, new, free, ?_⟩
  rw [← definition, ← notes]

/-- Requests are carried out one after another if their entries are kept apart from
each other and from those in front. -/
theorem addUntilRefused_of_separated {requests : List Request}
    (made : requests.map Request.formula? = rest.map some) (separated : Separated ⟨front ++ rest⟩) :
    (addUntilRefused ⟨front⟩ requests).2 = .ok ⟨front ++ rest⟩ := by
  induction requests generalizing front rest with
  | nil =>
    have none_left : rest = [] := List.map_eq_nil_iff.1 made.symm
    rw [none_left, List.append_nil]
    rfl
  | cons request requests ih =>
    cases rest with
    | nil => cases made
    | cons entry rest =>
      obtain ⟨first, others⟩ := List.cons.inj made
      have carried_out := outcome_of_separated separated first
      have assoc : front ++ entry :: rest = front ++ [entry] ++ rest := by
        rw [List.append_assoc, List.singleton_append]
      rw [assoc] at separated ⊢
      rw [addUntilRefused]
      simp only [carried_out, after]
      exact ih others separated

end

/-- A request for a formula of a new name that is not refused is carried out. -/
theorem outcome_of_not_refused {registry : Registry} {request : Request} {name : String}
    (named : request.name? = some name) (new : name ∉ registry.names)
    (accepted : ∀ error, registry.outcome request ≠ .refused error) :
    ∃ entry, request.formula? = some entry ∧ entry.signature.name = name ∧
      registry.outcome request = .registered entry := by
  rw [Request.name?] at named
  cases read : Signature.read request.signature with
  | error error =>
    rw [read] at named
    cases named
  | ok signature =>
    rw [read] at named
    obtain rfl : signature.name = name := Option.some.inj named
    cases free : registry.collision? signature with
    | some cause =>
      have unknown : registry.contains signature.name = false :=
        Bool.eq_false_iff.2 fun known => new (contains_iff.1 known)
      refine absurd ?_ (accepted (.collision signature.name cause))
      rw [outcome, read]
      simp only [unknown, free, Bool.and_false, Bool.false_eq_true, if_false]
    | none =>
      refine ⟨⟨signature, request.definition, request.entryNotes signature⟩, ?_, rfl, ?_⟩
      · exact Request.formula?_eq_some_iff.2 ⟨read, rfl, rfl⟩
      · exact outcome_eq_registered_iff.2 ⟨signature, read, new, free, rfl⟩

/-- Requests for formulas of new names of which none is refused append their
entries. -/
theorem entries_of_addUntilRefused {registry after : Registry} {requests : List Request}
    {given : List String} (named : requests.map Request.name? = given.map some)
    (distinct : given.Nodup) (new : ∀ name ∈ given, name ∉ registry.names)
    (accepted : (registry.addUntilRefused requests).2 = .ok after) :
    ∃ entries, requests.map Request.formula? = entries.map some ∧
      after = ⟨registry.entries ++ entries⟩ := by
  induction requests generalizing registry given with
  | nil => exact ⟨[], rfl, by rw [List.append_nil]; exact (Except.ok.inj accepted).symm⟩
  | cons request requests ih =>
    cases given with
    | nil => cases named
    | cons name given =>
      obtain ⟨first, others⟩ := List.cons.inj named
      obtain ⟨absent, rest_distinct⟩ := List.nodup_cons.1 distinct
      have not_refused : ∀ error, registry.outcome request ≠ .refused error := by
        intro error refused
        rw [addUntilRefused] at accepted
        simp only [refused] at accepted
        cases accepted
      obtain ⟨entry, made, rfl, carried_out⟩ :=
        outcome_of_not_refused first (new name List.mem_cons_self) not_refused
      rw [addUntilRefused] at accepted
      simp only [carried_out, Registry.after] at accepted
      have still_new : ∀ other ∈ given, other ∉ names ⟨registry.entries ++ [entry]⟩ := by
        intro other member registered
        rw [names_append, List.mem_append, List.mem_singleton] at registered
        rcases registered with before | rfl
        · exact new other (List.mem_cons_of_mem _ member) before
        · exact absent member
      obtain ⟨entries, rest_made, rfl⟩ := ih others rest_distinct still_new accepted
      refine ⟨entry :: entries, ?_, ?_⟩
      · rw [List.map_cons, List.map_cons, made, rest_made]
      · rw [List.append_assoc, List.singleton_append]

/-! ## Batches in any order -/

/-- Requests in another order have their entries in that order. -/
theorem exists_entries_perm {requests permuted : List Request} {entries : List Entry}
    (made : requests.map Request.formula? = entries.map some) (order : requests.Perm permuted) :
    ∃ others : List Entry, permuted.map Request.formula? = others.map some ∧
      others.Perm entries := by
  have reordered : (permuted.map Request.formula?).Perm (entries.map some) := by
    rw [← made]
    exact (order.map _).symm
  have composed := congrFun (congrFun (List.eq_map_comp_perm (some : Entry → Option Entry))
    (permuted.map Request.formula?)) entries
  exact composed.mpr reordered

/-- A batch of requests for formulas of distinct new names that is carried out in one
order is carried out in every order.  What is found under a name is the same, and so
are the arguments; the formulas that were there come first, and those of the batch
follow in the order in which they were requested. -/
theorem addUntilRefused_perm {registry after : Registry} (reachable : registry.Reachable)
    {requests permuted : List Request} {given : List String}
    (named : requests.map Request.name? = given.map some) (distinct : given.Nodup)
    (new : ∀ name ∈ given, name ∉ registry.names)
    (accepted : (registry.addUntilRefused requests).2 = .ok after)
    (order : requests.Perm permuted) :
    ∃ other, (registry.addUntilRefused permuted).2 = .ok other ∧
      (∀ name, other.arguments? name = after.arguments? name ∧
        other.definition? name = after.definition? name ∧
        other.notes name = after.notes name) ∧
      other.argumentNames = after.argumentNames ∧
      registry.entries <+: other.entries ∧
      other.names.map some = registry.names.map some ++ permuted.map Request.name? := by
  obtain ⟨entries, made, rfl⟩ := entries_of_addUntilRefused named distinct new accepted
  obtain ⟨others, permuted_made, reordered⟩ := exists_entries_perm made order
  have separated : Separated ⟨registry.entries ++ entries⟩ := by
    rw [eq_addAll_of_addUntilRefused accepted]
    exact reachable.separated.addAll requests
  have all_reordered : (registry.entries ++ entries).Perm (registry.entries ++ others) :=
    reordered.symm.append_left _
  refine ⟨⟨registry.entries ++ others⟩, ?_, ?_, ?_, List.prefix_append _ _, ?_⟩
  · exact addUntilRefused_of_separated permuted_made (separated.perm all_reordered)
  · intro name
    have found := find?_perm all_reordered separated.names name
    simp only [arguments?, definition?, notes, found, and_self]
  · exact (argumentNames_perm all_reordered).symm
  · have named_others := congrArg (List.map (Option.map (·.signature.name))) permuted_made
    simp only [List.map_map, Function.comp_def, ← Request.name?_eq_map_formula?,
      Option.map_some] at named_others
    rw [named_others, names, List.map_append, List.map_append, names, List.map_map, List.map_map]
    rfl

/-- After `f(x)`, what is carried out as `g(x,y)` and `[y]` is carried out the other
way round as well. -/
theorem addUntilRefused_perm_two :
    let registry := empty.add ⟨some "f(x)", some "x+1", none⟩
    let plain : Request := ⟨some "g(x,y)", some "x*y", none⟩
    let noted : Request := ⟨some "h(y)", some "[y]", some []⟩
    ∃ other, (registry.addUntilRefused [noted, plain]).2 = .ok other ∧
      other.arguments? "g" = some ["x", "y"] ∧
      other.notes "h" = [(independentVariable, "y")] ∧
      other.names.map some = [some "f", some "h", some "g"] := by
  intro registry plain noted
  have reachable : registry.Reachable := Reachable.empty.add _
  obtain ⟨after, accepted, g, h⟩ : ∃ after, (registry.addUntilRefused [plain, noted]).2 = .ok after ∧
      after.arguments? "g" = some ["x", "y"] ∧
      after.notes "h" = [(independentVariable, "y")] :=
    ⟨registry.addAll [plain, noted], by decide +kernel, by decide +kernel, by decide +kernel⟩
  obtain ⟨other, carried_out, views, -, -, listed⟩ :=
    @addUntilRefused_perm _ _ reachable _ [noted, plain] ["g", "h"] (by decide +kernel)
      (by decide +kernel) (by decide +kernel) accepted (.swap _ _ _)
  refine ⟨other, carried_out, ?_, ?_, ?_⟩
  · rw [(views "g").1, g]
  · rw [(views "h").2.2, h]
  · rw [listed]
    decide +kernel

/-- The order matters for names that are registered already: a formula that is there
is ignored, unless one of its arguments has become a formula. -/
example :
    let registry := empty.add ⟨some "f(x)", some "x+1", none⟩
    let again : Request := ⟨some "f(y)", some "y", none⟩
    let formula : Request := ⟨some "y", some "1", none⟩
    (registry.addUntilRefused [again, formula]).2.isOk = true ∧
      (registry.addUntilRefused [formula, again]).2.isOk = false := by decide +kernel

end Registry

end Formulary
