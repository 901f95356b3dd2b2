import Formulary.Domain.Samples
import Formulary.Store

/-!
# Domains

A domain binds variables to buffers.  A copying domain hands out a fresh copy of
a variable's row, and a sharing domain the very buffer in which the row is kept.

Main results:

- Definitions `Domain.copying` and `Domain.sharing`: the two kinds of domains.
- Theorem `Domain.sampleCount_copying`: a copying domain has a fixed number of
  samples.
-/

namespace Formulary

/-- Variables with the buffers that hold their samples.  A copying domain keeps
the number of samples; a sharing one has as many as its first row. -/
inductive Domain
  | copying (bindings : Bindings Buffer) (count : Int)
  | sharing (bindings : Bindings Buffer)
deriving Repr

namespace Domain

variable {α : Type}

/-- The buffers of the variables. -/
def bindings : Domain → Bindings Buffer
  | copying bindings _ => bindings
  | sharing bindings => bindings

/-- A variable belongs to the domain when it is bound. -/
def has (domain : Domain) (name : String) : Bool :=
  (domain.bindings.find? name).isSome

/-- The names of the variables, sorted. -/
def variableNames (domain : Domain) : List String :=
  sortedNames domain.bindings.names

/-- The number of samples, which a sharing domain takes from its first row.  It counts
none if it has no rows. -/
def sampleCount (domain : Domain) (store : Store α) : Int :=
  match domain with
  | copying _ count => count
  | sharing [] => 0
  | sharing ((_, buffer) :: _) => (store.read buffer).length

/-- The rows that the buffers of the variables hold at present. -/
def rows (domain : Domain) (store : Store α) : Bindings (List α) :=
  domain.bindings.map fun (name, buffer) => (name, store.read buffer)

/-- The names whose buffer is `buffer`. -/
def namesOf (domain : Domain) (buffer : Buffer) : List String :=
  (domain.bindings.filter fun (_, other) => other == buffer).map Prod.fst

@[simp]
theorem sampleCount_copying (bindings : Bindings Buffer) (count : Int) (store : Store α) :
    (copying bindings count).sampleCount store = count :=
  rfl

/-! ## Placing samples in a store -/

/-- Adds a buffer for each row, in order. -/
def place : Bindings (List α) → Store α → Bindings Buffer × Store α
  | [], store => ([], store)
  | (name, row) :: rest, store =>
    let (buffer, store) := store.alloc row
    let (bindings, store) := place rest store
    ((name, buffer) :: bindings, store)

/-- A copying domain over samples. -/
def copyingOf (samples : Samples α) (store : Store α) : Domain × Store α :=
  let (bindings, store) := place samples.rows store
  (copying bindings samples.count, store)

/-- A sharing domain over rows, whose lengths may differ. -/
def sharingOf (rows : Bindings (List α)) (store : Store α) : Domain × Store α :=
  let (bindings, store) := place rows store
  (sharing bindings, store)

@[simp]
theorem names_place (rows : Bindings (List α)) (store : Store α) :
    (place rows store).1.names = rows.names := by
  induction rows generalizing store with
  | nil => rfl
  | cons pair rest ih => simpa [place, Bindings.names] using ih _

end Domain

end Formulary
