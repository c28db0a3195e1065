import PackageCheck.Tree.Walk

/-! # Free names

The names that a statement uses without declaring them, found by reading its walk. A name is free
if no scope open at its use has declared it before, and if it is not one of the names that the
statement declares around itself. -/

namespace PackageCheck.Dependency

/-- A reader of a walk: the names declared in the open scopes, the innermost first, and the free
    names met so far, with the position of the first use of each. -/
structure Collector where
  scopes : List (List String) := [[]]
  free : NameMap Position := .empty

namespace Collector

/-- Takes a use of a name. -/
def use (own : List String) (collector : Collector) (name : String) (position : Position) :
    Collector :=
  if name ∈ own ∨ collector.scopes.any (name ∈ ·) ∨ collector.free.contains name then collector
  else { collector with free := collector.free.insert name position }

/-- Takes one event of a walk. -/
def step (own : List String) (collector : Collector) : Event → Collector
  | .openScope => { collector with scopes := [] :: collector.scopes }
  | .closeScope => { collector with scopes := collector.scopes.tail }
  | .declare name =>
    match collector.scopes with
    | [] => collector
    | inner :: outer => { collector with scopes := (name :: inner) :: outer }
  | .useValue ident position => collector.use own ident.name position
  | .useType name position => collector.use own name position
  | _ => collector

end Collector

/-- The free names of a statement with the positions of their first uses. -/
def freeNames (s : Stmt) : NameMap Position :=
  (s.walk.foldl (Collector.step s.declaredNames) {}).free

end PackageCheck.Dependency
