import PackageCheck.Proofs.Tree.Erasure

/-! # Declared types

The declarations of types in a tree, at any depth: the name that each one declares, and whether
its definition is filled in, that is whether no blank is written anywhere in it. -/

namespace PackageCheck

/-! ## Blanks -/

mutual

/-- Whether no blank is written in the specification. -/
def TypeSpec.filled : TypeSpec → Bool
  | .named _ _ => true
  | .array _ of => of.filled
  | .slice of => of.filled
  | .map key value => key.filled && value.filled
  | .pointer pointee => pointee.filled
  | .tuple members => TypeSpec.allFilled members
  | .func args results => TypeSpec.allFilled args && TypeSpec.allFilled results
  | .blank => false

/-- Whether no blank is written in the specifications. -/
def TypeSpec.allFilled : List TypeSpec → Bool
  | [] => true
  | spec :: rest => spec.filled && TypeSpec.allFilled rest

end

/-- Whether no blank is written in the parameters and results of a function. The receiver of a
    method is no part of its type. -/
def Func.filled (func : Func) : Bool :=
  TypeSpec.allFilled (func.params.map (·.spec)) && TypeSpec.allFilled (func.results.map (·.spec))

/-- Whether no blank is written in the fields of a struct and in the signatures of its methods. -/
def StructDecl.filled (decl : StructDecl) : Bool :=
  decl.fields.all (·.spec.filled) && decl.methods.all Func.filled

/-! ## Declarations -/

/-- The name of the type that a form of statement declares, and whether its definition is filled
    in. -/
def StmtForm.typeDecl? : StmtForm → Option (String × Bool)
  | .struct decl => some (decl.name, decl.filled)
  | .typeAlias decl => some (decl.name, decl.target.filled)
  | _ => none

/-- The declaration of a type that an event enters. -/
def Event.typeDecl? : Event → Option (String × Bool)
  | .enterStmt s => s.form.typeDecl?
  | _ => none

/-- The declarations of types that a walk enters. -/
def typeDecls (walk : List Event) : List (String × Bool) :=
  walk.filterMap Event.typeDecl?

section Walks

variable {walk others : List Event}

theorem typeDecls_append : typeDecls (walk ++ others) = typeDecls walk ++ typeDecls others :=
  List.filterMap_append

theorem typeDecls_cons_of_none {event : Event} (none : event.typeDecl? = none) :
    typeDecls (event :: walk) = typeDecls walk := by
  rw [typeDecls, List.filterMap_cons, none]
  rfl

@[simp]
theorem typeDecls_nil : typeDecls [] = [] := rfl

@[simp]
theorem typeDecls_openScope : typeDecls (.openScope :: walk) = typeDecls walk :=
  typeDecls_cons_of_none rfl

@[simp]
theorem typeDecls_closeScope : typeDecls (.closeScope :: walk) = typeDecls walk :=
  typeDecls_cons_of_none rfl

/-- What opens and closes a node or a scope declares nothing itself. -/
theorem typeDecls_between {opening closing : Event} (opens : opening.typeDecl? = none)
    (closes : closing.typeDecl? = none) :
    typeDecls (opening :: walk ++ [closing]) = typeDecls walk := by
  rw [typeDecls_append, typeDecls_cons_of_none opens, typeDecls_cons_of_none closes]
  exact List.append_nil _

end Walks

/-- No type is declared in a specification. -/
theorem TypeSpec.typeDecls_walk (spec : TypeSpec) : typeDecls spec.walk = [] :=
  List.filterMap_eq_nil_iff.mpr (spec.forall_mem_walk fun _ _ => rfl)

theorem TypeSpec.typeDecls_walkOption (spec : Option TypeSpec) :
    typeDecls (TypeSpec.walkOption spec) = [] :=
  List.filterMap_eq_nil_iff.mpr (TypeSpec.forall_mem_walkOption (fun _ _ => rfl) spec)

theorem TypeSpec.typeDecls_flatMap_walk (specs : α → TypeSpec) (items : List α) :
    typeDecls (items.flatMap fun item => (specs item).walk) = [] :=
  List.filterMap_eq_nil_iff.mpr (TypeSpec.forall_mem_flatMap_walk specs (fun _ _ => rfl) items)

theorem Func.typeDecls_walk (func : Func) :
    typeDecls func.walk = typeDecls (Stmt.walkList func.body.statements) := by
  obtain ⟨name, receiver, params, results, statements, labels⟩ := func
  have declared : typeDecls (Func.declareParams receiver params results) = [] := by
    simp [typeDecls, Func.declareParams, Event.typeDecl?]
  have signature : typeDecls (Func.walkSignature receiver params results) = [] :=
    TypeSpec.typeDecls_flatMap_walk _ _
  have inside : typeDecls (.openScope :: (Func.declareParams receiver params results ++
      Stmt.walkList statements) ++ [.closeScope]) = typeDecls (Stmt.walkList statements) := by
    rw [typeDecls_between rfl rfl, typeDecls_append, declared, List.nil_append]
  rw [Func.walk, List.append_assoc, List.append_assoc, typeDecls_append, signature,
    List.nil_append]
  simpa using inside

theorem Block.typeDecls_walk (block : Block) :
    typeDecls block.walk = typeDecls (Stmt.walkList block.statements) := by
  obtain ⟨statements, labels⟩ := block
  exact typeDecls_between rfl rfl

theorem Expr.typeDecls_walk (e : Expr) :
    typeDecls e.walk = typeDecls (e.form.walk e.position) := by
  obtain ⟨position, form, type⟩ := e
  exact typeDecls_between rfl rfl

/-- No type is declared in a bare name, so nothing is missed where one is passed over. -/
theorem Expr.typeDecls_walkKey (valueKeys : Bool) (key : Expr) :
    typeDecls (Expr.walkKey valueKeys (some key)) = typeDecls key.walk := by
  rw [Expr.walkKey]
  split
  case isTrue => rfl
  case isFalse passed =>
    obtain ⟨position, form, type⟩ := key
    cases form with
    | ident ident => rfl
    | _ => simp [Expr.ident?] at passed

theorem VarForm.typeDecls_walk (vars : VarForm) :
    typeDecls vars.walk = typeDecls (VarDecl.walkList vars.vars) := by
  obtain ⟨vars, isFunc⟩ := vars
  cases isFunc <;> simp [typeDecls, VarForm.walk, Event.typeDecl?, Function.comp_def]

theorem Stmt.typeDecls_walk (s : Stmt) :
    typeDecls s.walk = s.form.typeDecl?.toList ++ typeDecls s.form.walk := by
  obtain ⟨id, position, label, form⟩ := s
  have left : typeDecls [.leaveStmt ⟨id, position, label, form⟩] = [] := rfl
  rw [Stmt.walk, typeDecls_append, left, List.append_nil]
  have entered : Event.typeDecl? (.enterStmt ⟨id, position, label, form⟩) = form.typeDecl? := rfl
  cases declared : form.typeDecl? with
  | none => exact typeDecls_cons_of_none (entered.trans declared)
  | some decl => exact List.filterMap_cons_some (entered.trans declared)

/-! ## Erasure -/

theorem Func.filled_erase {renumber : StmtId → StmtId} (func : Func) :
    (func.erase renumber).filled = func.filled := by
  obtain ⟨name, receiver, params, results, body⟩ := func
  simp [Func.erase, Func.filled, Param.erase, Function.comp_def]

theorem Func.all_filled_eraseList {renumber : StmtId → StmtId} (funcs : List Func) :
    (Func.eraseList renumber funcs).all Func.filled = funcs.all Func.filled := by
  induction funcs with
  | nil => rfl
  | cons func rest ih => simp only [Func.eraseList, List.all_cons, Func.filled_erase, ih]

theorem StmtForm.typeDecl?_erase {renumber : StmtId → StmtId} (form : StmtForm) :
    (form.erase renumber).typeDecl? = form.typeDecl? := by
  cases form with
  | struct decl =>
    obtain ⟨name, fields, methods, symbol⟩ := decl
    simp only [StmtForm.erase, StmtForm.typeDecl?, StructDecl.filled, Func.all_filled_eraseList]
  | loop loop =>
    obtain ⟨header, condition, step, body⟩ := loop
    rfl
  | typeAlias decl => rfl
  | _ => simp [StmtForm.erase, StmtForm.typeDecl?]

theorem Event.typeDecl?_erase {renumber : StmtId → StmtId} (event : Event) :
    (event.erase renumber).typeDecl? = event.typeDecl? := by
  cases event with
  | enterStmt s =>
    obtain ⟨id, position, label, form⟩ := s
    exact form.typeDecl?_erase
  | _ => rfl

theorem Stmt.typeDecls_erase {renumber : StmtId → StmtId} (s : Stmt) :
    typeDecls (s.erase renumber).walk = typeDecls s.walk := by
  rw [Stmt.walk_erase, typeDecls, List.filterMap_map]
  exact congrArg (s.walk.filterMap ·) (funext fun event => event.typeDecl?_erase)

/-- The number of a statement does not matter. -/
theorem Stmt.typeDecls_number (s : Stmt) (n : Nat) :
    typeDecls (s.number.run n).1.walk = typeDecls s.walk := by
  have bare : (s.number.run n).1.erase (fun _ => {}) = s.erase fun _ => {} := s.erase_number n
  rw [← Stmt.typeDecls_erase, bare, Stmt.typeDecls_erase]

/-! ## Files -/

/-- The declarations of types in a file. -/
def SourceFile.typeDecls (file : SourceFile) : List (String × Bool) :=
  file.body.flatMap fun s => PackageCheck.typeDecls s.walk

theorem Stmt.typeDecls_numberList (statements : List Stmt) (n : Nat) :
    (((Stmt.numberList statements).run n).1.flatMap fun s => typeDecls s.walk) =
      statements.flatMap fun s => typeDecls s.walk := by
  induction statements generalizing n with
  | nil => rfl
  | cons s rest ih => exact congrArg₂ (· ++ ·) (s.typeDecls_number n) (ih _)

theorem SourceFile.typeDecls_numberList (files : List SourceFile) (n : Nat) :
    ((SourceFile.numberList files).run n).1.flatMap SourceFile.typeDecls =
      files.flatMap SourceFile.typeDecls := by
  induction files generalizing n with
  | nil => rfl
  | cons file rest ih => exact congrArg₂ (· ++ ·) (Stmt.typeDecls_numberList file.body n) (ih _)

end PackageCheck
