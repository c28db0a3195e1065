/-! # Dependency order

Things that declare names and refer to names are put into an order in which each one comes after
those that declare what it refers to. Of the things that could come next, the one given first
does. What a thing declares itself, and what nothing declares, does not matter.

The order is found in rounds. Each thing keeps the list of the things that it waits for; a round
emits the first thing that waits for nothing and strikes it from the lists of the others. -/

namespace PackageCheck.Dependency

/-- A thing with its place in the input and the places of the things it still waits for. -/
structure Pending (α : Type u) where
  item : α
  place : Nat
  waitsFor : List Nat

variable {α : Type u}

/-- The places of the things that declare a name which the thing at `place` refers to. -/
def dependencies (declares : α → List String) (refersTo : α → String → Bool) (items : List α)
    (place : Nat) (item : α) : List Nat :=
  items.zipIdx.filterMap fun (other, i) =>
    if i ≠ place ∧ (declares other).any (refersTo item) then some i else none

/-- All things, with the places of those they depend on. -/
def pendingAll (declares : α → List String) (refersTo : α → String → Bool) (items : List α) :
    List (Pending α) :=
  items.zipIdx.map fun (item, place) =>
    ⟨item, place, dependencies declares refersTo items place item⟩

/-- The first thing that waits for nothing, and the others. -/
def takeReady? : List (Pending α) → Option (Pending α × List (Pending α))
  | [] => none
  | p :: rest =>
    if p.waitsFor.isEmpty then some (p, rest)
    else (takeReady? rest).map fun (ready, others) => (ready, p :: others)

/-- Strikes a place from the lists of all things. -/
def strike (place : Nat) (pending : List (Pending α)) : List (Pending α) :=
  pending.map fun p => { p with waitsFor := p.waitsFor.filter (· ≠ place) }

/-- The things emitted in at most `count` rounds, and the things left over. -/
def rounds : Nat → List (Pending α) → List (Pending α) × List (Pending α)
  | 0, pending => ([], pending)
  | count + 1, pending =>
    match takeReady? pending with
    | none => ([], pending)
    | some (ready, others) =>
      let (emitted, left) := rounds count (strike ready.place others)
      (ready :: emitted, left)

/-- The things in dependency order. If some are left over because they need each other, the error
    holds the names that those declare. There is at most one round for each thing. -/
def order (declares : α → List String) (refersTo : α → String → Bool) (items : List α) :
    Except (List String) (List α) :=
  match rounds items.length (pendingAll declares refersTo items) with
  | (emitted, []) => .ok (emitted.map (·.item))
  | (_, left) => .error (left.flatMap fun p => declares p.item)

end PackageCheck.Dependency
