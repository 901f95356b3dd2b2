import Formulary.Proofs.Domain.Agreement

/-!
# Samples taken anew

Samples may be selected, repeated, reordered and dropped by a list of places, which
are then the places of new samples.  Samples of the same variables may also be
joined.  What comes out are samples again.

Main results:

- Definition `resample`: the samples of a row at some places.
- Theorem `Samples.ofRows_resample`: samples taken at places that exist are samples.
- Theorem `Samples.ofRows_join`: so are joined samples of the same variables.
- Theorems `Samples.slice_join_front` and `Samples.find?_slice_join_back`: both parts
  are found in joined samples again.
-/

namespace Formulary

variable {α : Type}

/-! ## Rows -/

/-- The samples of a row at some places, in the order of the places. -/
def resample (places : List Nat) (row : List α) : List α :=
  places.filterMap (row[·]?)

section

variable {places : List Nat} {row : List α}

theorem length_resample (inside : ∀ place ∈ places, place < row.length) :
    (resample places row).length = places.length := by
  rw [resample, List.filterMap_length_eq_length]
  intro place member
  rw [List.getElem?_eq_getElem (inside place member)]
  rfl

/-- The sample at a new place is the one at the place from which it was taken. -/
theorem getElem?_resample (inside : ∀ place ∈ places, place < row.length) (index : Nat) :
    (resample places row)[index]? = places[index]?.bind (row[·]?) := by
  induction places generalizing index with
  | nil => rfl
  | cons place rest ih =>
    have here := List.getElem?_eq_getElem (inside place List.mem_cons_self)
    have later := ih fun other member => inside other (List.mem_cons_of_mem _ member)
    rw [resample, List.filterMap_cons, here]
    cases index with
    | zero => exact here.symm
    | succ index => exact later index

/-- Samples at places one after another are those from the first place on. -/
theorem resample_range' {start length : Nat} (inside : start + length ≤ row.length) :
    resample (List.range' start length) row = (row.drop start).take length := by
  have places_inside : ∀ place ∈ List.range' start length, place < row.length := by
    intro place member
    have := (List.mem_range'_1.1 member).2
    omega
  apply List.ext_getElem?
  intro index
  rw [getElem?_resample places_inside]
  by_cases short : index < length
  · rw [List.getElem?_range' short, List.getElem?_take_of_lt short, List.getElem?_drop]
    simp
  · rw [List.getElem?_eq_none (by simpa using short),
      List.getElem?_eq_none (by simp; omega)]
    rfl

end

namespace Samples

/-- The rows of samples are as long as their number says. -/
theorem length_of_mem {rows : Bindings (List α)} {size : Option Int} {samples : Samples α}
    (made : ofRows rows size = .ok samples) {name : String} {row : List α}
    (member : (name, row) ∈ samples.rows) : (row.length : Int) = samples.count := by
  obtain ⟨same, level⟩ := ofRows_count made
  exact level name row (same ▸ member)

/-- Places of samples are places of every row. -/
theorem lt_length_of_mem {samples : Samples α} {places : List Nat} {row : List α}
    (inside : ∀ place ∈ places, (place : Int) < samples.count)
    (long : (row.length : Int) = samples.count) : ∀ place ∈ places, place < row.length := by
  intro place member
  have place_inside := inside place member
  omega

/-- Rows of the length given are of one length. -/
theorem distinctLengths_of_length {rows : Bindings (List α)} {length : Nat}
    (same : ∀ name row, (name, row) ∈ rows → row.length = length) :
    distinctLengths (rows.map (fun (_, row) => (row.length : Int)) ++ [(length : Int)]) =
      [(length : Int)] := by
  cases rows with
  | nil => exact distinctLengths_of_same fun _ other => by cases other
  | cons pair rest =>
    obtain ⟨name, row⟩ := pair
    have first : (row.length : Int) = length :=
      congrArg Int.ofNat (same name row List.mem_cons_self)
    have later := lengths_of_same fun name row bound =>
      same name row (List.mem_cons_of_mem _ bound)
    rw [List.map_cons, List.cons_append]
    dsimp only
    rw [first]
    refine distinctLengths_of_same ?_
    intro other member
    rcases List.mem_append.1 member with listed | last
    · exact later other listed
    · exact List.mem_singleton.1 last

/-- Rows of the length given make samples. -/
theorem ofRows_of_length {rows : Bindings (List α)} {length : Nat}
    (same : ∀ name row, (name, row) ∈ rows → row.length = length) :
    ofRows rows (some (length : Int)) = .ok ⟨rows, length⟩ := by
  rw [ofRows, Option.toList_some, distinctLengths_of_length same]

/-! ## Taken at some places -/

/-- Samples taken at some places of those that there are. -/
def resample (samples : Samples α) (places : List Nat) : Samples α :=
  ⟨samples.rows.map fun (name, row) => (name, Formulary.resample places row), places.length⟩

/-- Samples one after another, from a start on. -/
def slice (samples : Samples α) (start length : Nat) : Samples α :=
  ⟨samples.rows.map fun (name, row) => (name, (row.drop start).take length), length⟩

theorem find?_resample (samples : Samples α) (places : List Nat) (name : String) :
    (samples.resample places).rows.find? name =
      (samples.rows.find? name).map (Formulary.resample places) :=
  Bindings.find?_map (fun _ => Formulary.resample places) samples.rows name

theorem find?_slice (samples : Samples α) (start length : Nat) (name : String) :
    (samples.slice start length).rows.find? name =
      (samples.rows.find? name).map fun row => (row.drop start).take length :=
  Bindings.find?_map (fun _ (row : List α) => (row.drop start).take length) samples.rows name

section

variable {rows : Bindings (List α)} {size : Option Int} {samples : Samples α}

/-- Samples taken at places that exist are samples. -/
theorem ofRows_resample (made : ofRows rows size = .ok samples) {places : List Nat}
    (inside : ∀ place ∈ places, (place : Int) < samples.count) :
    ofRows (samples.resample places).rows (some (places.length : Int)) =
      .ok (samples.resample places) := by
  refine ofRows_of_length ?_
  intro name taken member
  obtain ⟨⟨_, row⟩, given, same⟩ := List.mem_map.1 member
  obtain ⟨rfl, rfl⟩ := Prod.mk.inj same
  exact length_resample (lt_length_of_mem inside (length_of_mem made given))

/-- The samples that the variables have at a new place are those at the place from
which they were taken. -/
theorem samplesAt_resample (made : ofRows rows size = .ok samples) {places : List Nat}
    (inside : ∀ place ∈ places, (place : Int) < samples.count) {index place : Nat}
    (taken : places[index]? = some place) :
    (fun name => ((samples.resample places).rows.find? name).bind (·[index]?)) =
      fun name => (samples.rows.find? name).bind (·[place]?) := by
  funext name
  rw [find?_resample]
  cases found : samples.rows.find? name with
  | none => rfl
  | some row =>
    have long := level made name row.length (by rw [found]; rfl)
    rw [Option.map_some, Option.bind_some, Option.bind_some,
      getElem?_resample (lt_length_of_mem inside long), taken, Option.bind_some]

/-- Samples one after another are samples taken at the places one after another. -/
theorem slice_eq_resample (made : ofRows rows size = .ok samples) {start length : Nat}
    (inside : ((start + length : Nat) : Int) ≤ samples.count) :
    samples.slice start length = samples.resample (List.range' start length) := by
  rw [slice, resample, List.length_range', Samples.mk.injEq]
  refine ⟨List.map_congr_left ?_, rfl⟩
  rintro ⟨name, row⟩ member
  have long := length_of_mem made member
  rw [← long] at inside
  dsimp only
  rw [resample_range' (Int.ofNat_le.1 inside)]

end

/-! ## Joined -/

/-- Samples followed by others of the same variables. -/
def join (front back : Samples α) : Samples α :=
  ⟨front.rows.map fun (name, row) => (name, row ++ (back.rows.find? name).getD []),
    front.count + back.count⟩

theorem find?_join (front back : Samples α) (name : String) :
    (front.join back).rows.find? name =
      (front.rows.find? name).map (· ++ (back.rows.find? name).getD []) :=
  Bindings.find?_map (fun name row => row ++ (back.rows.find? name).getD []) front.rows name

section

variable {rows others : Bindings (List α)} {size number : Option Int} {front back : Samples α}

/-- The row of a variable has a continuation of the right length. -/
theorem exists_continuation (made : ofRows others number = .ok back)
    (same : ∀ name, name ∈ front.rows.names ↔ name ∈ back.rows.names) {name : String}
    (bound : name ∈ front.rows.names) :
    ∃ more, back.rows.find? name = some more ∧ (more.length : Int) = back.count := by
  cases found : back.rows.find? name with
  | none => exact absurd ((same name).1 bound) (Bindings.find?_eq_none_iff.1 found)
  | some more => exact ⟨more, rfl, level made name more.length (by rw [found]; rfl)⟩

/-- Joined samples of the same variables are samples. -/
theorem ofRows_join (made : ofRows rows size = .ok front) (natural : 0 ≤ front.count)
    (made_back : ofRows others number = .ok back) (natural_back : 0 ≤ back.count)
    (same : ∀ name, name ∈ front.rows.names ↔ name ∈ back.rows.names) :
    ofRows (front.join back).rows (some (front.count + back.count)) = .ok (front.join back) := by
  obtain ⟨first, front_count⟩ := Int.eq_ofNat_of_zero_le natural
  obtain ⟨second, back_count⟩ := Int.eq_ofNat_of_zero_le natural_back
  have total : front.count + back.count = ((first + second : Nat) : Int) := by omega
  have whole : front.join back = ⟨(front.join back).rows, ((first + second : Nat) : Int)⟩ := by
    rw [← total]
    rfl
  rw [total, whole]
  refine ofRows_of_length ?_
  intro name joined member
  obtain ⟨⟨key, row⟩, given, split⟩ := List.mem_map.1 member
  obtain ⟨rfl, rfl⟩ := Prod.mk.inj split
  obtain ⟨more, found, long⟩ := exists_continuation made_back same
    (List.mem_map.2 ⟨_, given, rfl⟩)
  have own := length_of_mem made given
  rw [found, Option.getD_some, List.length_append]
  omega

/-- The front of joined samples. -/
theorem slice_join_front (made : ofRows rows size = .ok front) (natural : 0 ≤ front.count) :
    (front.join back).slice 0 front.count.toNat = front := by
  obtain ⟨given, count⟩ := front
  dsimp only at natural
  rw [slice, join, List.map_map, Samples.mk.injEq]
  refine ⟨?_, Int.toNat_of_nonneg natural⟩
  refine (List.map_congr_left ?_).trans (List.map_id given)
  rintro ⟨name, row⟩ member
  have own : (row.length : Int) = count := length_of_mem made member
  have whole : count.toNat = row.length := by omega
  dsimp only [Function.comp_apply]
  rw [whole, List.drop_zero, List.take_left]
  rfl

/-- The rows at the back of joined samples. -/
theorem find?_slice_join_back (made : ofRows rows size = .ok front)
    (made_back : ofRows others number = .ok back)
    (same : ∀ name, name ∈ front.rows.names ↔ name ∈ back.rows.names) (name : String) :
    ((front.join back).slice front.count.toNat back.count.toNat).rows.find? name =
      back.rows.find? name := by
  rw [find?_slice, find?_join]
  cases found : front.rows.find? name with
  | none =>
    have absent := mt (same name).2 (Bindings.find?_eq_none_iff.1 found)
    rw [Bindings.find?_eq_none_iff.2 absent]
    rfl
  | some row =>
    have bound : name ∈ front.rows.names := by
      refine Decidable.byContradiction fun absent => ?_
      rw [Bindings.find?_eq_none_iff.2 absent] at found
      cases found
    obtain ⟨more, more_found, long⟩ := exists_continuation made_back same bound
    have own := level made name row.length (by rw [found]; rfl)
    have row_whole : front.count.toNat = row.length := by omega
    have more_whole : back.count.toNat = more.length := by omega
    rw [more_found, Option.map_some, Option.map_some, Option.getD_some, row_whole, more_whole,
      List.drop_left, List.take_length]

end

end Samples

end Formulary
