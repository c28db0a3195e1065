import PackageCheck.Proofs.Tree.Erasure
import PackageCheck.Tree.Make

/-! # The numbers of a tree

Numbering gives a statement the next number, and then numbers what it holds. So the numbers of a
statement and of those in it are an interval that begins with its own number, and the intervals of
the statements of a block follow each other.

Numbering and the walk of a tree are two recursions. They go through the values and the targets of
an assignment in different orders, and the walk passes over the keys that are mere names.
`Numbered` is what they have in common all the same: a walk that enters the numbers from one to
another, each of them once.

* `Event.Placed`: what is said of the node that an event enters.
* `SourceFile.numbers_numberList`: the numbers of numbered files. -/

namespace PackageCheck

/-! ## Intervals -/

/-- Whether numbers are those that follow each other from `first` on, in any order. -/
def IsInterval (first : Nat) (numbers : List Nat) : Prop :=
  numbers.Perm (List.range' first numbers.length)

namespace IsInterval

variable {first : Nat} {numbers : List Nat}

theorem nil (first : Nat) : IsInterval first [] :=
  List.Perm.nil

theorem cons (interval : IsInterval (first + 1) numbers) : IsInterval first (first :: numbers) := by
  simpa [IsInterval, List.range'_succ] using interval

theorem append {others : List Nat} (interval : IsInterval first numbers)
    (behind : IsInterval (first + numbers.length) others) :
    IsInterval first (numbers ++ others) := by
  have both := List.Perm.append interval behind
  rw [List.range'_append_1] at both
  simpa [IsInterval] using both

theorem bounds (interval : IsInterval first numbers) {n : Nat} (member : n ∈ numbers) :
    first ≤ n ∧ n < first + numbers.length := by
  have listed := (List.Perm.mem_iff interval).mp member
  simpa [List.mem_range'_1] using listed

end IsInterval

/-! ## Numbers and blocks -/

/-- The number of the statement that an event enters. -/
def Event.number? : Event → Option Nat
  | .enterStmt s => some s.id.number
  | _ => none

/-- The numbers of the statements that a walk enters. -/
def numbersOf (walk : List Event) : List Nat :=
  walk.filterMap Event.number?

/-- The numbers of a statement and of all statements in it. -/
def Stmt.numbers (s : Stmt) : List Nat :=
  numbersOf s.walk

/-- Whether each number of a statement and of those in it is smaller than each of another one. -/
def Stmt.Precedes (s t : Stmt) : Prop :=
  ∀ n ∈ s.numbers, ∀ m ∈ t.numbers, n < m

/-- The blocks that stand in the form of a statement itself, and not in a nested one. -/
def StmtForm.blocks : StmtForm → List (List Stmt)
  | .struct decl => decl.methods.map (·.body.statements)
  | .cond branches => branches.map (·.body.statements)
  | .loop parts => [parts.body.statements]
  | _ => []

/-- The block of a function. -/
def ExprForm.blocks : ExprForm → List (List Stmt)
  | .func parts => [parts.body.statements]
  | _ => []

/-- The blocks of the node that an event enters. -/
def Event.blocks : Event → List (List Stmt)
  | .enterStmt s => s.form.blocks
  | .enterExpr e => e.form.blocks
  | _ => []

/-- Whether blocks have their statements in the order of their numbers. -/
def Ascending (blocks : List (List Stmt)) : Prop :=
  ∀ block ∈ blocks, block.Pairwise Stmt.Precedes

theorem Ascending.nil : Ascending [] :=
  nofun

theorem Ascending.cons {block : List Stmt} {blocks : List (List Stmt)}
    (first : block.Pairwise Stmt.Precedes) (others : Ascending blocks) :
    Ascending (block :: blocks) :=
  List.forall_mem_cons.mpr ⟨first, others⟩

/-- Whether the node that an event enters has the numbers that it should have. -/
structure Event.Placed (event : Event) : Prop where
  ascending : Ascending event.blocks
  interval : ∀ s, event = .enterStmt s → IsInterval s.id.number s.numbers

/-- Whether a walk enters each number from `first` up to `next` once, and nodes with the numbers
    that they should have. -/
structure Numbered (first next : Nat) (walk : List Event) : Prop where
  count : next = first + (numbersOf walk).length
  interval : IsInterval first (numbersOf walk)
  placed : ∀ event ∈ walk, event.Placed

/-- Whether a walk comes upon names and scopes only. -/
def Plain (walk : List Event) : Prop :=
  ∀ event ∈ walk, event.number? = none ∧ event.blocks = []

namespace Numbered

variable {first middle next : Nat} {walk rest : List Event}

theorem append (before : Numbered first middle walk) (behind : Numbered middle next rest) :
    Numbered first next (walk ++ rest) := by
  have numbers : numbersOf (walk ++ rest) = numbersOf walk ++ numbersOf rest :=
    List.filterMap_append
  obtain ⟨rfl, interval, placed⟩ := before
  obtain ⟨rfl, interval', placed'⟩ := behind
  refine ⟨?_, ?_, List.forall_mem_append.mpr ⟨placed, placed'⟩⟩
  · rw [numbers, List.length_append]
    omega
  · rw [numbers]
    exact interval.append interval'

/-- The order of the events does not matter. -/
theorem of_perm (numbered : Numbered first next walk) (perm : walk.Perm rest) :
    Numbered first next rest := by
  have numbers : (numbersOf walk).Perm (numbersOf rest) := perm.filterMap _
  obtain ⟨count, interval, placed⟩ := numbered
  refine ⟨?_, ?_, fun event member => placed event (perm.mem_iff.mpr member)⟩
  · rw [count, numbers.length_eq]
  · show (numbersOf rest).Perm _
    rw [← numbers.length_eq]
    exact numbers.symm.trans interval

theorem plain (plain : Plain walk) (n : Nat) : Numbered n n walk := by
  have numbers : numbersOf walk = [] :=
    List.filterMap_eq_nil_iff.mpr fun event member => (plain event member).1
  refine ⟨by simp [numbers], by simp [numbers, IsInterval.nil], fun event member => ?_⟩
  obtain ⟨none, empty⟩ := plain event member
  refine ⟨by simp [Ascending, empty], ?_⟩
  rintro s rfl
  cases none

theorem nil (n : Nat) : Numbered n n [] :=
  plain (List.forall_mem_nil _) n

/-- In front of a walk something that has no number itself. -/
theorem cons {event : Event} (none : event.number? = none) (ascending : Ascending event.blocks)
    (numbered : Numbered first next walk) : Numbered first next (event :: walk) := by
  have here : Numbered first first [event] := by
    refine ⟨by simp [numbersOf, none], by simp [numbersOf, none, IsInterval.nil], ?_⟩
    intro other member
    obtain rfl := List.mem_singleton.mp member
    refine ⟨ascending, ?_⟩
    rintro s rfl
    cases none
  exact here.append numbered

theorem bounds (numbered : Numbered first next walk) {n : Nat} (member : n ∈ numbersOf walk) :
    first ≤ n ∧ n < next := by
  obtain ⟨rfl, interval, -⟩ := numbered
  exact interval.bounds member

end Numbered

/-! ## Names -/

/-- A specification holds nothing but names. -/
theorem TypeSpec.plain_walk : ∀ spec : TypeSpec, Plain spec.walk :=
  TypeSpec.forall_mem_walk fun _ _ => ⟨rfl, rfl⟩

theorem TypeSpec.plain_walkOption : ∀ spec : Option TypeSpec, Plain (TypeSpec.walkOption spec) :=
  TypeSpec.forall_mem_walkOption fun _ _ => ⟨rfl, rfl⟩

theorem TypeSpec.plain_flatMap_walk (spec : α → TypeSpec) :
    ∀ items : List α, Plain (items.flatMap fun item => (spec item).walk) :=
  TypeSpec.forall_mem_flatMap_walk spec fun _ _ => ⟨rfl, rfl⟩

theorem plain_declare (names : List String) : Plain (names.map .declare) := by
  simp [Plain, Event.number?, Event.blocks]

theorem Func.plain_walkSignature (receiver : Option Param) (params results : List Param) :
    Plain (Func.walkSignature receiver params results) :=
  TypeSpec.plain_flatMap_walk Param.spec _

theorem VarDecl.plain_declare (vars : List VarDecl) : Plain (vars.map (.declare ·.name)) := by
  simp [Plain, Event.number?, Event.blocks]

/-! ## Trees -/

/-- The numbers of a statement are among those of the statements with which it stands. -/
theorem Stmt.numbers_subset_walkList {s : Stmt} {statements : List Stmt} (listed : s ∈ statements) :
    s.numbers ⊆ numbersOf (Stmt.walkList statements) := by
  induction statements with
  | nil => cases listed
  | cons first rest hypothesis =>
    have numbers : numbersOf (Stmt.walkList (first :: rest)) =
        first.numbers ++ numbersOf (Stmt.walkList rest) := List.filterMap_append
    rw [numbers]
    rcases List.mem_cons.mp listed with rfl | listed
    · exact List.subset_append_left _ _
    · exact List.subset_append_of_subset_right _ (hypothesis listed)

/-- A key that is a name holds no statement. -/
theorem Expr.number_of_ident? {key : Expr} (name : key.ident?.isSome) (n : Nat) :
    (key.number.run n).2 = n := by
  obtain ⟨position, form, type⟩ := key
  cases form with
  | ident ident => rfl
  | _ => cases name

mutual

theorem Expr.numbered_number : ∀ (e : Expr) (n : Nat),
    Numbered n (e.number.run n).2 (e.number.run n).1.walk
  | ⟨position, form, type⟩, n => by
    obtain ⟨inside, ascending⟩ := form.numbered_number position n
    exact .append (.cons rfl ascending inside) (.cons rfl .nil (.nil _))

theorem ExprForm.numbered_number (position : Position) : ∀ (form : ExprForm) (n : Nat),
    Numbered n (form.number.run n).2 ((form.number.run n).1.walk position) ∧
      Ascending (form.number.run n).1.blocks
  | .literal _, n => ⟨.nil n, .nil⟩
  | .blank, n => ⟨.nil n, .nil⟩
  | .compound spec _ elements, n =>
    ⟨.append (.plain (TypeSpec.plain_walkOption spec) n)
      (Element.numbered_numberList _ elements n), .nil⟩
  | .binary _ left right, n => ⟨.append (left.numbered_number n) (right.numbered_number _), .nil⟩
  | .unary _ operand, n => ⟨operand.numbered_number n, .nil⟩
  | .index left index, n => ⟨.append (left.numbered_number n) (index.numbered_number _), .nil⟩
  | .selector left _, n => ⟨left.numbered_number n, .nil⟩
  | .call callee args, n =>
    ⟨.append (callee.numbered_number n) (Expr.numbered_numberList args _), .nil⟩
  | .func func, n => by
    obtain ⟨inside, ascending⟩ := func.numbered_number n
    exact ⟨inside, Ascending.cons ascending .nil⟩
  | .ident _, n => ⟨.cons rfl .nil (.nil n), .nil⟩
  | .type spec, n => ⟨.plain spec.plain_walk n, .nil⟩

theorem Expr.numbered_numberList : ∀ (es : List Expr) (n : Nat),
    Numbered n ((Expr.numberList es).run n).2 (Expr.walkList ((Expr.numberList es).run n).1)
  | [], n => .nil n
  | e :: rest, n => .append (e.numbered_number n) (Expr.numbered_numberList rest _)

theorem Expr.numbered_numberOption : ∀ (e : Option Expr) (n : Nat),
    Numbered n ((Expr.numberOption e).run n).2 (Expr.walkOption ((Expr.numberOption e).run n).1)
  | none, n => .nil n
  | some e, n => e.numbered_number n

theorem Expr.numbered_numberKey (valueKeys : Bool) : ∀ (key : Option Expr) (n : Nat),
    Numbered n ((Expr.numberOption key).run n).2
      (Expr.walkKey valueKeys ((Expr.numberOption key).run n).1)
  | none, n => .nil n
  | some key, n => by
    have visited := key.numbered_number n
    show Numbered n (key.number.run n).2 (Expr.walkKey valueKeys (some (key.number.run n).1))
    rw [Expr.walkKey, Expr.ident?_number]
    split
    · exact visited
    · -- the walk passes over the key, which takes no number either
      rename_i passed
      have name : key.ident?.isSome := by
        simp only [Bool.or_eq_true, not_or] at passed
        simpa [Option.isSome_iff_ne_none] using passed.2
      rw [Expr.number_of_ident? name]
      exact .nil n

theorem Element.numbered_numberList (valueKeys : Bool) : ∀ (elements : List Element) (n : Nat),
    Numbered n ((Element.numberList elements).run n).2
      (Element.walkList valueKeys ((Element.numberList elements).run n).1)
  | [], n => .nil n
  | ⟨key, value⟩ :: rest, n =>
    .append (.append (Expr.numbered_numberKey valueKeys key n) (value.numbered_number _))
      (Element.numbered_numberList valueKeys rest _)

theorem Func.numbered_number : ∀ (func : Func) (n : Nat),
    Numbered n (func.number.run n).2 (func.number.run n).1.walk ∧
      (func.number.run n).1.body.statements.Pairwise Stmt.Precedes
  | ⟨_, receiver, params, results, ⟨statements, _⟩⟩, n => by
    obtain ⟨inside, ascending⟩ := Stmt.numbered_numberList statements n
    have signature : Numbered n n (Func.walkSignature receiver params results) :=
      .plain (Func.plain_walkSignature receiver params results) n
    have opened : Numbered n n (.openScope :: Func.declareParams receiver params results) :=
      .cons rfl .nil (.plain (plain_declare _) n)
    exact ⟨((signature.append opened).append inside).append (.cons rfl .nil (.nil _)), ascending⟩

theorem Func.numbered_numberList : ∀ (funcs : List Func) (n : Nat),
    Numbered n ((Func.numberList funcs).run n).2 (Func.walkList ((Func.numberList funcs).run n).1) ∧
      Ascending (((Func.numberList funcs).run n).1.map (·.body.statements))
  | [], n => ⟨.nil n, .nil⟩
  | func :: rest, n => by
    obtain ⟨first, ascending⟩ := func.numbered_number n
    obtain ⟨others, behind⟩ := Func.numbered_numberList rest (func.number.run n).2
    exact ⟨first.append others, Ascending.cons ascending behind⟩

theorem Block.numbered_number : ∀ (block : Block) (n : Nat),
    Numbered n (block.number.run n).2 (block.number.run n).1.walk ∧
      (block.number.run n).1.statements.Pairwise Stmt.Precedes
  | ⟨statements, _⟩, n => by
    obtain ⟨inside, ascending⟩ := Stmt.numbered_numberList statements n
    exact ⟨.append (.cons rfl .nil inside) (.cons rfl .nil (.nil _)), ascending⟩

/-- A statement has the first of its numbers, and what it holds has the others. -/
theorem Stmt.numbered_number : ∀ (s : Stmt) (n : Nat),
    Numbered n (s.number.run n).2 (s.number.run n).1.walk
  | ⟨id, position, label, form⟩, n => by
    obtain ⟨inside, ascending⟩ := form.numbered_number (n + 1)
    let s : Stmt := ⟨⟨n⟩, position, label, (form.number.run (n + 1)).1⟩
    have closed : Numbered (n + 1) (form.number.run (n + 1)).2 (s.form.walk ++ [.leaveStmt s]) :=
      inside.append (.cons rfl .nil (.nil _))
    have own : IsInterval n (numbersOf s.walk) := closed.interval.cons
    refine ⟨?_, own, List.forall_mem_cons.mpr ⟨⟨ascending, ?_⟩, closed.placed⟩⟩
    · have count : (numbersOf s.walk).length =
          (numbersOf (s.form.walk ++ [.leaveStmt s])).length + 1 := rfl
      show (form.number.run (n + 1)).2 = n + (numbersOf s.walk).length
      rw [closed.count, count]
      omega
    · rintro entered ⟨⟩
      exact own

theorem Stmt.numbered_numberList : ∀ (statements : List Stmt) (n : Nat),
    Numbered n ((Stmt.numberList statements).run n).2
        (Stmt.walkList ((Stmt.numberList statements).run n).1) ∧
      ((Stmt.numberList statements).run n).1.Pairwise Stmt.Precedes
  | [], n => ⟨.nil n, .nil⟩
  | s :: rest, n => by
    have first := s.numbered_number n
    obtain ⟨others, ascending⟩ := Stmt.numbered_numberList rest (s.number.run n).2
    refine ⟨first.append others, List.pairwise_cons.mpr ⟨?_, ascending⟩⟩
    intro t listed k member m member'
    have upTo := first.bounds member
    have onwards := others.bounds (Stmt.numbers_subset_walkList listed member')
    omega

theorem Stmt.numbered_numberOption : ∀ (s : Option Stmt) (n : Nat),
    Numbered n ((Stmt.numberOption s).run n).2 (Stmt.walkOption ((Stmt.numberOption s).run n).1)
  | none, n => .nil n
  | some s, n => s.numbered_number n

theorem StmtForm.numbered_number : ∀ (form : StmtForm) (n : Nat),
    Numbered n (form.number.run n).2 (form.number.run n).1.walk ∧
      Ascending (form.number.run n).1.blocks
  | .assign lhs rhs _, n => by
    -- the values are walked first, and numbered last
    have inside := (Expr.numbered_numberList lhs n).append (Expr.numbered_numberList rhs _)
    exact ⟨inside.of_perm List.perm_append_comm, .nil⟩
  | .struct ⟨_, fields, methods, _⟩, n => by
    obtain ⟨inside, ascending⟩ := Func.numbered_numberList methods n
    refine ⟨.append (.cons rfl .nil ?_) inside, ascending⟩
    exact .plain (TypeSpec.plain_flatMap_walk FieldDecl.spec fields) n
  | .typeAlias decl, n => ⟨.cons rfl .nil (.plain decl.target.plain_walk n), .nil⟩
  | .var vars, n => ⟨vars.numbered_number n, .nil⟩
  | .pass, n => ⟨.nil n, .nil⟩
  | .cond branches, n => Branch.numbered_numberList branches n
  | .loop ⟨header, condition, step, body⟩, n => by
    have first := VarForm.numbered_numberOption header n
    have second := Expr.numbered_numberOption condition ((VarForm.numberOption header).run n).2
    have third := Stmt.numbered_numberOption step
      ((Expr.numberOption condition).run ((VarForm.numberOption header).run n).2).2
    obtain ⟨fourth, ascending⟩ := body.numbered_number ((Stmt.numberOption step).run
      ((Expr.numberOption condition).run ((VarForm.numberOption header).run n).2).2).2
    refine ⟨.append (.append (.append (.append (.cons rfl .nil first) second) third) fourth) ?_,
      Ascending.cons ascending .nil⟩
    exact .cons rfl .nil (.nil _)
  | .expr e, n => ⟨e.numbered_number n, .nil⟩
  | .jump _, n => ⟨.nil n, .nil⟩
  | .ret values, n => ⟨Expr.numbered_numberList values n, .nil⟩

theorem VarForm.numbered_number : ∀ (vars : VarForm) (n : Nat),
    Numbered n (vars.number.run n).2 (vars.number.run n).1.walk
  | ⟨vars, true⟩, n =>
    .append (.plain (VarDecl.plain_declare _) n) (VarDecl.numbered_numberList vars n)
  | ⟨vars, false⟩, n =>
    .append (VarDecl.numbered_numberList vars n) (.plain (VarDecl.plain_declare _) _)

theorem VarForm.numbered_numberOption : ∀ (vars : Option VarForm) (n : Nat),
    Numbered n ((VarForm.numberOption vars).run n).2
      (VarForm.walkOption ((VarForm.numberOption vars).run n).1)
  | none, n => .nil n
  | some vars, n => vars.numbered_number n

theorem VarDecl.numbered_numberList : ∀ (vars : List VarDecl) (n : Nat),
    Numbered n ((VarDecl.numberList vars).run n).2
      (VarDecl.walkList ((VarDecl.numberList vars).run n).1)
  | [], n => .nil n
  | ⟨_, _, spec, value, _⟩ :: rest, n =>
    .append (.append (.plain (TypeSpec.plain_walkOption spec) n)
      (Expr.numbered_numberOption value n)) (VarDecl.numbered_numberList rest _)

theorem Branch.numbered_numberList : ∀ (branches : List Branch) (n : Nat),
    Numbered n ((Branch.numberList branches).run n).2
        (Branch.walkList ((Branch.numberList branches).run n).1) ∧
      Ascending (((Branch.numberList branches).run n).1.map (·.body.statements))
  | [], n => ⟨.nil n, .nil⟩
  | ⟨header, condition, body⟩ :: rest, n => by
    have first := VarForm.numbered_numberOption header n
    have second := Expr.numbered_numberOption condition ((VarForm.numberOption header).run n).2
    obtain ⟨third, ascending⟩ := body.numbered_number
      ((Expr.numberOption condition).run ((VarForm.numberOption header).run n).2).2
    obtain ⟨others, behind⟩ := Branch.numbered_numberList rest (body.number.run
      ((Expr.numberOption condition).run ((VarForm.numberOption header).run n).2).2).2
    refine ⟨.append (.append (.append (.cons rfl .nil first) second) third) ?_,
      Ascending.cons ascending behind⟩
    exact .cons rfl .nil others

end

/-- Numbering does not go by the walk: of the functions on both sides of an assignment the value is
    walked first, and the target is numbered first. -/
example :
    let empty : Expr := .func (.make none none [] [] [.ofForm .pass])
    ((Stmt.assign [empty] [empty]).number.run 0).1.numbers = [0, 2, 1] := rfl

/-! ## Files -/

/-- The walk of the statements of files, one file after the other. -/
def SourceFile.walkList (files : List SourceFile) : List Event :=
  files.flatMap fun file => Stmt.walkList file.body

/-- The numbers of the statements of a file, at any depth. -/
def SourceFile.numbers (file : SourceFile) : List Nat :=
  numbersOf (Stmt.walkList file.body)

/-- Whether each number in a file is smaller than each in another one. -/
def SourceFile.Precedes (file file' : SourceFile) : Prop :=
  ∀ n ∈ file.numbers, ∀ m ∈ file'.numbers, n < m

/-- The blocks of files: the statements at the top of each one, and the blocks in them, at any
    depth. -/
def SourceFile.blocks (files : List SourceFile) : List (List Stmt) :=
  files.map (·.body) ++ (SourceFile.walkList files).flatMap Event.blocks

theorem SourceFile.numbers_subset_walkList {file : SourceFile} {files : List SourceFile}
    (listed : file ∈ files) : file.numbers ⊆ numbersOf (SourceFile.walkList files) := by
  intro n member
  obtain ⟨event, entered, number⟩ := List.mem_filterMap.mp member
  exact List.mem_filterMap.mpr ⟨event, List.mem_flatMap.mpr ⟨file, listed, entered⟩, number⟩

/-- The files of a list are numbered like the statements of a block. -/
theorem SourceFile.numbered_numberList : ∀ (files : List SourceFile) (n : Nat),
    Numbered n ((SourceFile.numberList files).run n).2
        (SourceFile.walkList ((SourceFile.numberList files).run n).1) ∧
      Ascending (((SourceFile.numberList files).run n).1.map (·.body)) ∧
      ((SourceFile.numberList files).run n).1.Pairwise SourceFile.Precedes
  | [], n => ⟨.nil n, .nil, .nil⟩
  | file :: rest, n => by
    obtain ⟨first, ascending⟩ := Stmt.numbered_numberList file.body n
    obtain ⟨others, behind, apart⟩ :=
      SourceFile.numbered_numberList rest ((Stmt.numberList file.body).run n).2
    refine ⟨first.append others, .cons ascending behind, List.pairwise_cons.mpr ⟨?_, apart⟩⟩
    intro file' listed k member m member'
    have upTo := first.bounds member
    have onwards := others.bounds (SourceFile.numbers_subset_walkList listed member')
    omega

/-- Numbering changes nothing that is written in files. It gives their statements, at any depth, the
    numbers from the first one up to the next one to give, each of them once. The numbers of a
    statement and of those in it are an interval that begins with its own number. Earlier statements
    of a block have smaller numbers than later ones, with all that is in them, and so have earlier
    files. -/
theorem SourceFile.numbers_numberList (files : List SourceFile) (first : Nat) :
    let numbered := (SourceFile.numberList files).run first
    let numbers := numbersOf (SourceFile.walkList numbered.1)
    numbered.1.map SourceFile.bare = files.map SourceFile.bare ∧
      (IsInterval first numbers ∧ numbered.2 = first + numbers.length) ∧
      (∀ s, .enterStmt s ∈ SourceFile.walkList numbered.1 → IsInterval s.id.number s.numbers) ∧
      (∀ block ∈ SourceFile.blocks numbered.1, block.Pairwise Stmt.Precedes) ∧
      numbered.1.Pairwise SourceFile.Precedes := by
  intro numbered numbers
  obtain ⟨⟨count, interval, placed⟩, ascending, apart⟩ :=
    SourceFile.numbered_numberList files first
  refine ⟨SourceFile.bare_numberList files first, ⟨interval, count⟩,
    fun s entered => (placed _ entered).interval s rfl, ?_, apart⟩
  intro block listed
  rcases List.mem_append.mp listed with top | nested
  · exact ascending block top
  · obtain ⟨event, entered, inside⟩ := List.mem_flatMap.mp nested
    exact (placed event entered).ascending block inside

end PackageCheck
