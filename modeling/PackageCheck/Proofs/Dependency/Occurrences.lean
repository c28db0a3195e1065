import PackageCheck.Proofs.Dependency.FreeNames

/-! # Occurrences of names

The places where a tree uses names, each with the names that are declared in front of it in the
scopes that are open there. They are found by a recursion that hands the visible names down: a scope
ends where the recursion returns, so nothing has to be taken back.

`freeNames_eq_occurrences` says that a collector, which reads one long walk with a stack of scopes,
finds the free ones among them. -/

namespace PackageCheck

/-- A place where a name stands for a value or for a type. -/
structure Occurrence where
  name : String
  position : Position
  /-- The names declared in front of the place in the scopes that are open there. -/
  visible : List String

/-- Whether no declaration in front of the place is meant. -/
def Occurrence.isFree (occurrence : Occurrence) : Bool :=
  occurrence.name ∉ occurrence.visible

/-- Whether the place uses a name without a declaration in front of it. -/
def Occurrence.isFreeUse (n : String) (occurrence : Occurrence) : Bool :=
  occurrence.name = n && occurrence.isFree

/-! ## Types -/

mutual

/-- The names of types in a specification. -/
def TypeSpec.occurrences (visible : List String) : TypeSpec → List Occurrence
  | .named name position => [⟨name, position, visible⟩]
  | .array _ of => of.occurrences visible
  | .slice of => of.occurrences visible
  | .map key value => key.occurrences visible ++ value.occurrences visible
  | .pointer pointee => pointee.occurrences visible
  | .tuple members => TypeSpec.occurrencesList visible members
  | .func args results =>
    TypeSpec.occurrencesList visible args ++ TypeSpec.occurrencesList visible results
  | .blank => []

/-- The names of types in specifications. -/
def TypeSpec.occurrencesList (visible : List String) : List TypeSpec → List Occurrence
  | [] => []
  | spec :: rest => spec.occurrences visible ++ TypeSpec.occurrencesList visible rest

end

/-- The names of types in a specification, if there is one. -/
def TypeSpec.occurrencesOption (visible : List String) : Option TypeSpec → List Occurrence
  | none => []
  | some spec => spec.occurrences visible

/-! ## Expressions and statements -/

/-- The names that a form of variables declares, if there is one. -/
def VarForm.namesOption : Option VarForm → List String
  | none => []
  | some form => form.vars.map (·.name)

/-- The names that a statement declares in the scope around it, if there is one. -/
def Stmt.namesOption : Option Stmt → List String
  | none => []
  | some s => s.declaredNames

mutual

/-- The names in an expression. It declares nothing around it. -/
def Expr.occurrences (visible : List String) : Expr → List Occurrence
  | ⟨position, form, _⟩ => form.occurrences visible position

/-- The names in the parts of an expression. The field that is selected is none of them. -/
def ExprForm.occurrences (visible : List String) (position : Position) :
    ExprForm → List Occurrence
  | .literal _ => []
  | .blank => []
  | .compound spec _ elements =>
    TypeSpec.occurrencesOption visible spec ++
      Element.occurrencesList visible (TypeSpec.hasValueKeys spec) elements
  | .binary _ left right => left.occurrences visible ++ right.occurrences visible
  | .unary _ operand => operand.occurrences visible
  | .index left index => left.occurrences visible ++ index.occurrences visible
  | .selector left _ => left.occurrences visible
  | .call callee args => callee.occurrences visible ++ Expr.occurrencesList visible args
  | .func func => func.occurrences visible
  | .ident ident => [⟨ident.name, position, visible⟩]
  | .type spec => spec.occurrences visible

/-- The names in expressions. -/
def Expr.occurrencesList (visible : List String) : List Expr → List Occurrence
  | [] => []
  | e :: rest => e.occurrences visible ++ Expr.occurrencesList visible rest

/-- The names in an expression, if there is one. -/
def Expr.occurrencesOption (visible : List String) : Option Expr → List Occurrence
  | none => []
  | some e => e.occurrences visible

/-- The names in a key. A bare name is the name of a field unless keys are values. -/
def Expr.occurrencesKey (visible : List String) (valueKeys : Bool) :
    Option Expr → List Occurrence
  | none => []
  | some key => if valueKeys || key.ident?.isNone then key.occurrences visible else []

/-- The names in the elements of a composite literal. -/
def Element.occurrencesList (visible : List String) (valueKeys : Bool) :
    List Element → List Occurrence
  | [] => []
  | ⟨key, value⟩ :: rest =>
    Expr.occurrencesKey visible valueKeys key ++ value.occurrences visible ++
      Element.occurrencesList visible valueKeys rest

/-- The names in a function. The names of its parameters are visible in the body and not in the
    signature. -/
def Func.occurrences (visible : List String) : Func → List Occurrence
  | ⟨_, receiver, params, results, ⟨statements, _⟩⟩ =>
    TypeSpec.occurrencesList visible ((receiver.toList ++ params ++ results).map (·.spec)) ++
      Stmt.occurrencesList
        ((receiver.toList ++ params ++ results).filterMap (·.name) ++ visible) statements

/-- The names in functions. -/
def Func.occurrencesList (visible : List String) : List Func → List Occurrence
  | [] => []
  | func :: rest => func.occurrences visible ++ Func.occurrencesList visible rest

/-- The names in a block. -/
def Block.occurrences (visible : List String) : Block → List Occurrence
  | ⟨statements, _⟩ => Stmt.occurrencesList visible statements

/-- The names in a statement. -/
def Stmt.occurrences (visible : List String) : Stmt → List Occurrence
  | ⟨_, _, _, form⟩ => form.occurrences visible

/-- The names in statements that share a scope: what one declares is visible in those behind it. -/
def Stmt.occurrencesList (visible : List String) : List Stmt → List Occurrence
  | [] => []
  | s :: rest => s.occurrences visible ++ Stmt.occurrencesList (s.declaredNames ++ visible) rest

/-- The names in a statement, if there is one. -/
def Stmt.occurrencesOption (visible : List String) : Option Stmt → List Occurrence
  | none => []
  | some s => s.occurrences visible

/-- The names in the parts of a statement. A type is visible in its own declaration. -/
def StmtForm.occurrences (visible : List String) : StmtForm → List Occurrence
  | .assign lhs rhs _ => Expr.occurrencesList visible rhs ++ Expr.occurrencesList visible lhs
  | .struct ⟨name, fields, methods, _⟩ =>
    TypeSpec.occurrencesList (name :: visible) (fields.map (·.spec)) ++
      Func.occurrencesList (name :: visible) methods
  | .typeAlias decl => decl.target.occurrences (decl.name :: visible)
  | .var vars => vars.occurrences visible
  | .pass => []
  | .cond branches => Branch.occurrencesList visible branches
  | .loop ⟨header, condition, step, body⟩ =>
    VarForm.occurrencesOption visible header ++
      Expr.occurrencesOption (VarForm.namesOption header ++ visible) condition ++
      Stmt.occurrencesOption (VarForm.namesOption header ++ visible) step ++
      body.occurrences (Stmt.namesOption step ++ VarForm.namesOption header ++ visible)
  | .expr e => e.occurrences visible
  | .jump _ => []
  | .ret values => Expr.occurrencesList visible values

/-- The names in a form of variables. Functions are visible in all of their values, other variables
    in none. -/
def VarForm.occurrences (visible : List String) : VarForm → List Occurrence
  | ⟨vars, true⟩ => VarDecl.occurrencesList (vars.map (·.name) ++ visible) vars
  | ⟨vars, false⟩ => VarDecl.occurrencesList visible vars

/-- The names in a form of variables, if there is one. -/
def VarForm.occurrencesOption (visible : List String) : Option VarForm → List Occurrence
  | none => []
  | some vars => vars.occurrences visible

/-- The names in the types and values of variables. -/
def VarDecl.occurrencesList (visible : List String) : List VarDecl → List Occurrence
  | [] => []
  | ⟨_, _, spec, value, _⟩ :: rest =>
    TypeSpec.occurrencesOption visible spec ++ Expr.occurrencesOption visible value ++
      VarDecl.occurrencesList visible rest

/-- The names in the branches of a conditional. What a header declares is visible in its branch
    alone. -/
def Branch.occurrencesList (visible : List String) : List Branch → List Occurrence
  | [] => []
  | ⟨header, condition, body⟩ :: rest =>
    VarForm.occurrencesOption visible header ++
      Expr.occurrencesOption (VarForm.namesOption header ++ visible) condition ++
      body.occurrences (VarForm.namesOption header ++ visible) ++
      Branch.occurrencesList visible rest

end

namespace Dependency

variable {n : String} {visible : List String}

/-! ## What is declared -/

theorem declares_exprOption (e : Option Expr) :
    (Expr.mentionOption .collector n e).declares = false := by
  cases e with
  | none => rfl
  | some e => exact e.mention_closed.declares

theorem declares_values (vars : List VarDecl) :
    (VarDecl.mentionValues .collector n vars).declares = false := by
  induction vars with
  | nil => rfl
  | cons decl rest ih =>
    obtain ⟨_, _, spec, value, _⟩ := decl
    rw [VarDecl.mentionValues, Mention.declares_append, Mention.declares_append, ih,
      declares_exprOption, (TypeSpec.mentionOption_closed spec).declares]
    rfl

theorem declares_varForm (vars : VarForm) :
    (vars.mention .collector n).declares = decide (n ∈ vars.vars.map (·.name)) := by
  obtain ⟨vars, isFunc⟩ := vars
  cases isFunc <;> simp [VarForm.mention, Reading.wholeForms, VarDecl.mentionNames,
    Mention.ofNames, declares_values]

theorem declares_header (header : Option VarForm) :
    (VarForm.mentionOption .collector n header).declares =
      decide (n ∈ VarForm.namesOption header) := by
  cases header with
  | none => simp [VarForm.mentionOption, VarForm.namesOption]
  | some vars => exact declares_varForm vars

/-- Behind the condition the variables of the header are visible. -/
theorem declares_headed (header : Option VarForm) (condition : Option Expr) :
    (VarForm.mentionOption .collector n header ++
      Expr.mentionOption .collector n condition).declares =
        decide (n ∈ VarForm.namesOption header) := by
  simp [declares_header, declares_exprOption]

theorem declares_branches (branches : List Branch) :
    (Branch.mentionList .collector n branches).declares = false := by
  induction branches with
  | nil => rfl
  | cons branch rest ih =>
    obtain ⟨header, condition, body⟩ := branch
    rw [Branch.mentionList, Mention.declares_append, ih]
    rfl

/-- What a statement declares around itself are its declared names. -/
theorem declares_stmt (s : Stmt) :
    (s.mention .collector n).declares = decide (n ∈ s.declaredNames) := by
  obtain ⟨id, position, label, form⟩ := s
  cases form with
  | assign lhs rhs op =>
    simp [Stmt.mention, StmtForm.mention, Stmt.declaredNames,
      (Expr.mentionList_closed rhs).declares, (Expr.mentionList_closed lhs).declares]
  | struct decl =>
    obtain ⟨name, fields, methods, symbol⟩ := decl
    simp [Stmt.mention, StmtForm.mention, Stmt.declaredNames, Mention.ofTypeName, eq_comm,
      (TypeSpec.mentionList_closed (fields.map (·.spec))).declares,
      (Func.mentionList_closed methods).declares]
  | typeAlias decl =>
    simp [Stmt.mention, StmtForm.mention, Stmt.declaredNames, Mention.ofTypeName, eq_comm,
      decl.target.mention_closed.declares]
  | var vars => exact declares_varForm vars
  | pass => simp [Stmt.mention, StmtForm.mention, Stmt.declaredNames]
  | cond branches =>
    simp [Stmt.mention, StmtForm.mention, Stmt.declaredNames, declares_branches]
  | loop loop =>
    obtain ⟨header, condition, step, body⟩ := loop
    simp [Stmt.mention, StmtForm.mention, Stmt.declaredNames]
  | expr e => simp [Stmt.mention, StmtForm.mention, Stmt.declaredNames, e.mention_closed.declares]
  | jump jump => simp [Stmt.mention, StmtForm.mention, Stmt.declaredNames]
  | ret values =>
    simp [Stmt.mention, StmtForm.mention, Stmt.declaredNames,
      (Expr.mentionList_closed values).declares]

theorem declares_stmtOption (s : Option Stmt) :
    (Stmt.mentionOption .collector n s).declares = decide (n ∈ Stmt.namesOption s) := by
  cases s with
  | none => simp [Stmt.mentionOption, Stmt.namesOption]
  | some s => exact declares_stmt s

/-! ## Free uses -/

/-- The positions at which a name is used without a declaration in front of it. -/
def freeUses (n : String) (places : List Occurrence) : List Position :=
  (places.filter (·.isFreeUse n)).map (·.position)

theorem freeUses_append (first second : List Occurrence) :
    freeUses n (first ++ second) = freeUses n first ++ freeUses n second := by
  simp [freeUses]

/-- Whether the occurrences found behind the visible names are free exactly at the free uses of a
    piece, unless the name itself is visible. -/
def Places (n : String) (visible : List String) (places : List Occurrence)
    (mention : Mention) : Prop :=
  freeUses n places = if n ∈ visible then [] else mention.uses

namespace Places

variable {places places' : List Occurrence} {mention mention' : Mention}

theorem empty : Places n visible [] {} := by
  simp [Places, freeUses]

theorem use (name : String) (position : Position) :
    Places n visible [⟨name, position, visible⟩] (.ofUse n name position) := by
  by_cases same : name = n
  · subst same
    by_cases seen : name ∈ visible <;>
      simp [Places, freeUses, Occurrence.isFreeUse, Occurrence.isFree, Mention.ofUse, seen]
  · simp [Places, freeUses, Occurrence.isFreeUse, Mention.ofUse, same]

/-- What the first piece declares is visible in the second one. -/
theorem append (names : List String) (first : Places n visible places mention)
    (declared : mention.declares = decide (n ∈ names))
    (second : Places n (names ++ visible) places' mention') :
    Places n visible (places ++ places') (mention ++ mention') := by
  unfold Places at *
  rw [freeUses_append, first, second, Mention.uses_append, declared]
  by_cases seen : n ∈ visible <;> by_cases bound : n ∈ names <;> simp [seen, bound]

/-- Behind a piece that declares nothing the same names are visible. -/
theorem append_closed (first : Places n visible places mention)
    (closed : mention.declares = false) (second : Places n visible places' mention') :
    Places n visible (places ++ places') (mention ++ mention') :=
  first.append [] (by simp [closed]) second

/-- What a scope of its own declares does not show outside. -/
theorem enclosed (inside : Places n visible places mention) :
    Places n visible places mention.enclosed :=
  inside

/-- Names that are declared in front of a piece. -/
theorem behind (names : List String) (inside : Places n (names ++ visible) places mention) :
    Places n visible places (.ofNames n names ++ mention) := by
  have declared : Places n visible [] (.ofNames n names) := by
    simp [Places, freeUses, Mention.ofNames]
  simpa using declared.append names (by simp [Mention.ofNames]) inside

/-- A type that is declared in front of a piece. -/
theorem behindType (name : String) (inside : Places n (name :: visible) places mention) :
    Places n visible places (.ofTypeName n name ++ mention) := by
  have declared : Places n visible [] (.ofTypeName n name) := by
    simp [Places, freeUses, Mention.ofTypeName]
  simpa using declared.append [name] (by simp [Mention.ofTypeName, eq_comm]) inside

/-- Names that are declared behind a piece. -/
theorem before (names : List String) (front : Places n visible places mention) :
    Places n visible places (mention ++ .ofNames n names) := by
  unfold Places at *
  rw [front, Mention.uses_append]
  simp [Mention.ofNames]

end Places

/-! ## Trees -/

mutual

theorem places_spec : ∀ spec : TypeSpec,
    Places n visible (spec.occurrences visible) (spec.mention .collector n)
  | .named name position => .use name position
  | .array _ of => places_spec of
  | .slice of => places_spec of
  | .map key value =>
    (places_spec key).append_closed key.mention_closed.declares (places_spec value)
  | .pointer pointee => places_spec pointee
  | .tuple members => places_specs members
  | .func args results =>
    (places_specs args).append_closed (TypeSpec.mentionList_closed args).declares
      (places_specs results)
  | .blank => .empty

theorem places_specs : ∀ specs : List TypeSpec,
    Places n visible (TypeSpec.occurrencesList visible specs)
      (TypeSpec.mentionList .collector n specs)
  | [] => .empty
  | spec :: rest =>
    (places_spec spec).append_closed spec.mention_closed.declares (places_specs rest)

end

theorem places_specOption : ∀ spec : Option TypeSpec,
    Places n visible (TypeSpec.occurrencesOption visible spec)
      (TypeSpec.mentionOption .collector n spec)
  | none => .empty
  | some spec => places_spec spec

mutual

theorem places_expr : ∀ {visible : List String} (e : Expr),
    Places n visible (e.occurrences visible) (e.mention .collector n)
  | _, ⟨position, form, _⟩ => places_form position form

theorem places_form : ∀ {visible : List String} (position : Position) (form : ExprForm),
    Places n visible (form.occurrences visible position) (form.mention .collector n position)
  | _, _, .literal _ => .empty
  | _, _, .blank => .empty
  | _, _, .compound spec _ elements => by
    rw [ExprForm.occurrences, ExprForm.mention, Reading.bareKeys, Bool.or_false]
    exact (places_specOption spec).append_closed (TypeSpec.mentionOption_closed spec).declares
      (places_elements _ elements)
  | _, _, .binary _ left right =>
    (places_expr left).append_closed left.mention_closed.declares (places_expr right)
  | _, _, .unary _ operand => places_expr operand
  | _, _, .index left index =>
    (places_expr left).append_closed left.mention_closed.declares (places_expr index)
  | _, _, .selector left _ => places_expr left
  | _, _, .call callee args =>
    (places_expr callee).append_closed callee.mention_closed.declares (places_exprs args)
  | _, _, .func func => places_func func
  | _, position, .ident ident => .use ident.name position
  | _, _, .type spec => places_spec spec

theorem places_exprs : ∀ {visible : List String} (es : List Expr),
    Places n visible (Expr.occurrencesList visible es) (Expr.mentionList .collector n es)
  | _, [] => .empty
  | _, e :: rest => (places_expr e).append_closed e.mention_closed.declares (places_exprs rest)

theorem places_exprOption : ∀ {visible : List String} (e : Option Expr),
    Places n visible (Expr.occurrencesOption visible e) (Expr.mentionOption .collector n e)
  | _, none => .empty
  | _, some e => places_expr e

theorem places_key : ∀ {visible : List String} (valueKeys : Bool) (key : Option Expr),
    Places n visible (Expr.occurrencesKey visible valueKeys key)
      (Expr.mentionKey .collector n valueKeys key)
  | _, _, none => .empty
  | _, valueKeys, some key => by
    rw [Expr.occurrencesKey, Expr.mentionKey]
    split
    · exact places_expr key
    · exact .empty

theorem places_elements : ∀ {visible : List String} (valueKeys : Bool) (elements : List Element),
    Places n visible (Element.occurrencesList visible valueKeys elements)
      (Element.mentionList .collector n valueKeys elements)
  | _, _, [] => .empty
  | _, valueKeys, ⟨key, value⟩ :: rest => by
    rw [Element.occurrencesList, Element.mentionList]
    have closed : (Expr.mentionKey .collector n valueKeys key).Closed :=
      Expr.mentionKey_closed key
    apply Places.append_closed
    · exact (places_key valueKeys key).append_closed closed.declares (places_expr value)
    · exact (closed.append value.mention_closed).declares
    · exact places_elements valueKeys rest

theorem places_func : ∀ {visible : List String} (func : Func),
    Places n visible (func.occurrences visible) (func.mention .collector n)
  | _, ⟨_, receiver, params, results, ⟨statements, _⟩⟩ => by
    rw [Func.occurrences, Func.mention]
    apply (places_specs _).append_closed (Param.mentionTypes_closed _).declares
    exact .enclosed (.behind _ (places_stmts statements))

theorem places_funcs : ∀ {visible : List String} (funcs : List Func),
    Places n visible (Func.occurrencesList visible funcs) (Func.mentionList .collector n funcs)
  | _, [] => .empty
  | _, func :: rest =>
    (places_func func).append_closed func.mention_closed.declares (places_funcs rest)

theorem places_block : ∀ {visible : List String} (block : Block),
    Places n visible (block.occurrences visible) (block.mention .collector n)
  | _, ⟨statements, _⟩ => places_stmts statements

theorem places_stmt : ∀ {visible : List String} (s : Stmt),
    Places n visible (s.occurrences visible) (s.mention .collector n)
  | _, ⟨_, _, _, form⟩ => places_stmtForm form

theorem places_stmts : ∀ {visible : List String} (statements : List Stmt),
    Places n visible (Stmt.occurrencesList visible statements)
      (Stmt.mentionList .collector n statements)
  | _, [] => .empty
  | _, s :: rest => (places_stmt s).append _ (declares_stmt s) (places_stmts rest)

theorem places_stmtOption : ∀ {visible : List String} (s : Option Stmt),
    Places n visible (Stmt.occurrencesOption visible s) (Stmt.mentionOption .collector n s)
  | _, none => .empty
  | _, some s => places_stmt s

theorem places_stmtForm : ∀ {visible : List String} (form : StmtForm),
    Places n visible (form.occurrences visible) (form.mention .collector n)
  | _, .assign lhs rhs _ =>
    (places_exprs rhs).append_closed (Expr.mentionList_closed rhs).declares (places_exprs lhs)
  | _, .struct ⟨name, fields, methods, _⟩ => by
    rw [StmtForm.occurrences, StmtForm.mention, Mention.append_assoc]
    apply Places.behindType
    exact (places_specs _).append_closed (TypeSpec.mentionList_closed _).declares
      (places_funcs methods)
  | _, .typeAlias decl => .behindType decl.name (places_spec decl.target)
  | _, .var vars => places_varForm vars
  | _, .pass => .empty
  | _, .cond branches => places_branches branches
  | visible, .loop ⟨header, condition, step, body⟩ => by
    have headed := (@places_header visible header).append _ (declares_header header)
      (places_exprOption condition)
    have stepped := headed.append _ (declares_headed header condition) (places_stmtOption step)
    apply (stepped.append _ _ (places_block body)).enclosed
    rw [Mention.declares_append, declares_headed, declares_stmtOption]
    simp [Bool.or_comm]
  | _, .expr e => places_expr e
  | _, .jump _ => .empty
  | _, .ret values => places_exprs values

theorem places_varForm : ∀ {visible : List String} (vars : VarForm),
    Places n visible (vars.occurrences visible) (vars.mention .collector n)
  | _, ⟨vars, true⟩ => .behind (vars.map (·.name)) (places_values vars)
  | _, ⟨vars, false⟩ => .before (vars.map (·.name)) (places_values vars)

theorem places_header : ∀ {visible : List String} (header : Option VarForm),
    Places n visible (VarForm.occurrencesOption visible header)
      (VarForm.mentionOption .collector n header)
  | _, none => .empty
  | _, some vars => places_varForm vars

theorem places_values : ∀ {visible : List String} (vars : List VarDecl),
    Places n visible (VarDecl.occurrencesList visible vars)
      (VarDecl.mentionValues .collector n vars)
  | _, [] => .empty
  | _, ⟨_, _, spec, value, _⟩ :: rest => by
    rw [VarDecl.occurrencesList, VarDecl.mentionValues]
    have closed : (TypeSpec.mentionOption .collector n spec).Closed :=
      TypeSpec.mentionOption_closed spec
    apply Places.append_closed
    · exact (places_specOption spec).append_closed closed.declares (places_exprOption value)
    · simp [closed.declares, declares_exprOption]
    · exact places_values rest

theorem places_branches : ∀ {visible : List String} (branches : List Branch),
    Places n visible (Branch.occurrencesList visible branches)
      (Branch.mentionList .collector n branches)
  | _, [] => .empty
  | visible, ⟨header, condition, body⟩ :: rest => by
    rw [Branch.occurrencesList, Branch.mentionList]
    have headed := (@places_header visible header).append _ (declares_header header)
      (places_exprOption condition)
    have inside := headed.append _ (declares_headed header condition) (places_block body)
    exact inside.enclosed.append_closed rfl (places_branches rest)

end

theorem head?_freeUses (places : List Occurrence) :
    (freeUses n places).head? = (places.find? (·.isFreeUse n)).map (·.position) := by
  rw [freeUses, List.head?_map, List.head?_filter]

/-- The names that are collected from a statement are the names with a free occurrence in it, less
    those that it declares itself, and each has the position of its first free occurrence. -/
theorem freeNames_eq_occurrences (s : Stmt) (n : String) :
    ((freeNames s).contains n = true ↔
      n ∉ s.declaredNames ∧ ∃ place ∈ s.occurrences [], place.name = n ∧ place.isFree) ∧
    (freeNames s).find? n =
      if n ∈ s.declaredNames then none
      else ((s.occurrences []).find? (·.isFreeUse n)).map (·.position) := by
  have uses : freeUses n (s.occurrences []) = (s.mention .collector n).uses := by
    have places : Places n [] _ _ := places_stmt s
    simpa [Places] using places
  have found : (freeNames s).find? n = if n ∈ s.declaredNames then none
      else ((s.occurrences []).find? (·.isFreeUse n)).map (·.position) := by
    rw [find?_freeNames, ← uses, head?_freeUses]
  refine ⟨?_, found⟩
  rw [NameMap.contains, found]
  by_cases own : n ∈ s.declaredNames
  · simp [own]
  · simp [own, Occurrence.isFreeUse]

end Dependency

end PackageCheck
