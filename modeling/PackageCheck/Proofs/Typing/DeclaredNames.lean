import PackageCheck.Proofs.Typing.Introduction
import PackageCheck.Proofs.Typing.JumpErrors
import PackageCheck.Tree.Make

/-! # The names that a form of variables declares

A variable is declared whichever of its parts fails, so that no statement behind it takes its name
for an undefined one. There is one exception: a named function without a body is given up before it
is declared. -/

namespace PackageCheck

/-- Whether the value of a variable is a function, with its body. -/
def VarDecl.hasBody (decl : VarDecl) : Bool :=
  match decl.value with
  | some ⟨_, .func _, _⟩ => true
  | _ => false

/-- Whether a form gets as far as declaring a name: one of its variables has the name, and has a
    body if it is to be a named function. -/
def VarForm.Declares (vars : VarForm) (name : String) : Prop :=
  ∃ decl ∈ vars.vars, decl.name = name ∧ (vars.isFunc = true → decl.hasBody = true)

/-- Whether an error is that of a name which leads nowhere. -/
def Diagnostic.isUndefined (name : String) (err : Diagnostic) : Bool :=
  match err with
  | .undefinedSymbol name' _ => name' == name
  | _ => false

namespace Typing

open Check

/-- Whether a name is one of the innermost scope. -/
def State.HasLocal (name : String) (s : State) : Prop :=
  (s.scopes.findLocal? name).isSome = true

/-- Whether a name is in the innermost scope behind a check if it was there before or something is
    the case, and only then. -/
def Check.Declares (name : String) (check : Check α) (added : Prop) : Prop :=
  ∀ s : State, (check.run s).2.HasLocal name ↔ s.HasLocal name ∨ added

section Declares

variable {name : String}

namespace Check.Declares

/-- A check that leaves the scopes alone declares nothing. -/
theorem of_keeps {check : Check α} (keeps : ∀ {scopes}, check.KeepsScopes scopes) :
    check.Declares name False := by
  intro s
  rw [State.HasLocal, scopes_run keeps s, or_false]
  exact Iff.rfl

theorem bind {check : Check β} {next : β → Check α} {first second : Prop}
    (head : check.Declares name first) (tail : ∀ b, (next b).Declares name second) :
    (check >>= next).Declares name (first ∨ second) := by
  intro s
  rw [← or_assoc, ← head s]
  exact tail (check.run s).1 (check.run s).2

theorem iff {check : Check α} {added added' : Prop} (declares : check.Declares name added)
    (same : added ↔ added') : check.Declares name added' := by
  intro s
  rw [← same]
  exact declares s

/-- Behind a check that leaves the scopes alone. -/
theorem behind {check : Check β} {next : β → Check α} {added : Prop}
    (keeps : ∀ {scopes}, check.KeepsScopes scopes) (tail : ∀ b, (next b).Declares name added) :
    (check >>= next).Declares name added :=
  (bind (of_keeps keeps) tail).iff (by rw [false_or])

/-- In front of a check that leaves the scopes alone. -/
theorem ahead {check : Check β} {next : β → Check α} {added : Prop}
    (head : check.Declares name added) (keeps : ∀ b {scopes}, (next b).KeepsScopes scopes) :
    (check >>= next).Declares name added :=
  (bind head fun b => of_keeps (keeps b)).iff (by rw [or_false])

theorem rebuild {check : Check (Checked ν τ)} {f : ν → μ} {added : Prop}
    (inside : check.Declares name added) : (check.rebuild f).Declares name added :=
  inside.ahead fun _ {_} => .pure _

theorem noted {check : Check (Checked ν τ)} {added : Prop} (inside : check.Declares name added) :
    (Typing.noted check).Declares name added := by
  refine inside.ahead fun checked {_} => ?_
  refine .bind (.change fun s same => ?_) fun _ => .pure _
  cases checked.2 <;> exact same

theorem alongside {check : Check (Checked ν σ)} {other : Check (Checked μ τ)}
    {first second : Prop} (head : check.Declares name first)
    (tail : other.Declares name second) :
    (check.alongside other).Declares name (first ∨ second) :=
  bind head fun _ => tail.ahead fun _ {_} => .pure _

/-! ### Declarations -/

theorem hasLocal_insertNamed {s : State} {symbol : Symbol} (plain : name ≠ "_") :
    (s.insertNamed symbol).HasLocal name ↔ s.HasLocal name ∨ symbol.name = name := by
  by_cases blank : symbol.name = "_"
  · have other : symbol.name ≠ name := fun same => plain (same.symm.trans blank)
    rw [State.insertNamed, if_pos blank, or_iff_left other]
    exact Iff.rfl
  · simp only [State.HasLocal, State.insertNamed, if_neg blank, ScopeStack.findLocal?,
      ScopeStack.add]
    by_cases same : symbol.name = name
    · subst same
      simp [NameMap.find?_insert_self]
    · rw [NameMap.find?_insert_of_ne _ _ (Ne.symm same), or_iff_left same]

/-- A declaration that is in the way of another one has its name already. -/
theorem hasLocal_of_clash {s : State} {previous : SymbolId} {taken : String}
    (clash : s.clash? taken = some previous) (same : taken = name) : s.HasLocal name := by
  subst same
  unfold State.clash? at clash
  split at clash
  · cases clash
  · exact Option.isSome_iff_exists.mpr ⟨previous, clash⟩

/-- A variable is declared whatever its check has come to. -/
theorem declareVar (plain : name ≠ "_") (ctx : Context) (decl : VarDecl) (type : Ty)
    (init : Option StmtId) (result : Except Diagnostic Unit) :
    (Typing.declareVar ctx decl type init result).Declares name (decl.name = name) := by
  intro s
  rw [Typing.declareVar]
  cases clash : s.clash? decl.name with
  | some previous =>
    rw [run_given_of_error (run_declare_of_clash clash _ _)]
    exact (or_iff_left_of_imp (hasLocal_of_clash clash)).symm
  | none =>
    rw [run_given_of_ok (run_declare_of_free clash _ _)]
    change State.HasLocal name (State.markIfFailed _ s.symbols.nextId result) ↔ _
    rw [State.HasLocal, Introduces.scopes_markIfFailed]
    exact hasLocal_insertNamed plain

end Check.Declares

/-! ## Variables -/

open Check.Declares

variable (plain : name ≠ "_") (ctx : Context) (id : StmtId)

include plain

theorem checkPlainVar_declares (decl : VarDecl) :
    (checkPlainVar ctx id decl).Declares name (decl.name = name) := by
  obtain ⟨name', position, spec, value, symbol⟩ := decl
  rw [checkPlainVar]
  apply behind (Preserves.resolveOr touch_scopes _ _)
  intro result
  cases result with
  | error err => exact .declareVar plain _ _ _ _ _
  | ok declared =>
    apply behind ((opensIn_stable _).steady.checkInit _ _ _ _ _)
    intro checked
    obtain ⟨value', found⟩ := checked
    cases found with
    | ok type => exact .declareVar plain _ _ _ _ _
    | error err => exact .declareVar plain _ _ _ _ _

/-- A named function is declared exactly if it has a body, even if its signature fails. -/
theorem checkFuncVar_declares (decl : VarDecl) :
    (checkFuncVar ctx id decl).Declares name (decl.name = name ∧ decl.hasBody = true) := by
  obtain ⟨name', position, spec, value, symbol⟩ := decl
  have givenUp : ∀ {decl : VarDecl} {err : Diagnostic}, decl.hasBody = false →
      (pure (decl, .error err) : Check (Checked VarDecl Unit)).Declares name
        (decl.name = name ∧ decl.hasBody = true) := by
    intro decl err bodyless
    apply (of_keeps (.pure _)).iff
    simp [bodyless]
  cases value with
  | none => exact givenUp rfl
  | some value =>
    obtain ⟨valuePosition, form, type⟩ := value
    cases form with
    | func func =>
      rw [checkFuncVar]
      have bodied : name' = name ↔ name' = name ∧ true = true := by simp
      apply behind (Preserves.funcType touch_scopes _)
      intro result
      cases result with
      | error err => exact (Check.Declares.declareVar plain _ _ _ _ _).iff bodied
      | ok found =>
        -- the body is checked behind the declaration, in a scope of its own
        apply ahead ((Check.Declares.declareVar plain _ _ _ _ _).iff bodied)
        intro checked
        obtain ⟨decl', result⟩ := checked
        cases result with
        | error err => exact .pure _
        | ok _ => exact .bind ((opensIn_stable _).steady.checkBody _ _ _ _) fun _ => .pure _
    | _ => exact givenUp rfl

theorem checkVarList_declares (isFunc : Bool) (vars : List VarDecl) :
    (checkVarList ctx id isFunc vars).Declares name (VarForm.Declares ⟨vars, isFunc⟩ name) := by
  induction vars with
  | nil =>
    rw [checkVarList]
    apply (of_keeps (.pure _)).iff
    simp [VarForm.Declares]
  | cons decl rest hypothesis =>
    have first : (if isFunc then checkFuncVar ctx id decl else checkPlainVar ctx id decl).Declares
        name (decl.name = name ∧ (isFunc = true → decl.hasBody = true)) := by
      cases isFunc with
      | true => exact (checkFuncVar_declares plain ctx id decl).iff (by simp)
      | false => exact (checkPlainVar_declares plain ctx id decl).iff (by simp)
    rw [checkVarList]
    apply (rebuild (alongside first.noted hypothesis)).iff
    simp [VarForm.Declares]

theorem checkVars_declares (vars : VarForm) :
    (checkVars ctx id vars).Declares name (vars.Declares name) := by
  obtain ⟨vars, isFunc⟩ := vars
  rw [checkVars]
  apply behind .state
  intro before
  apply ahead (checkVarList_declares plain ctx id isFunc vars)
  intro checked _
  refine .bind (.change fun s same => ?_) fun _ => .pure _
  cases checked.2 <;> exact same

end Declares

/-! ## Later statements -/

section Undefined

variable {name : String}

theorem accounted_isUndefined (name : String) :
    Accounted (Diagnostic.isUndefined name) (· = name) fun _ => false where
  plain err plain := by
    cases err with
    | undefinedSymbol name' site => cases plain
    | _ => rfl
  named name' site undefined := by simpa [Diagnostic.isUndefined] using undefined
  counted site at' lost undefined := by cases undefined

/-- No context is too small for it: none of the errors is that of a jump. -/
theorem reflects_isUndefined (table : SymbolTable) (ctx : Context) (around : Surroundings) :
    ctx.Reflects (Diagnostic.isUndefined name) table around := by
  intro watched
  obtain ⟨kind, label, site, undefined⟩ := watched
  cases undefined

theorem State.HasLocal.binds {s : State} (held : s.HasLocal name) : s.Binds (· = name) := by
  intro name' same
  cases same
  obtain ⟨id, found⟩ := Option.isSome_iff_exists.mp held
  have found : s.scopes.inner.find? name = some id := found
  simp [ScopeStack.find?, ScopeStack.all, found]

/-- A name of the innermost scope is not undefined for the statements that are checked there. -/
theorem tally_checkStmt_of_hasLocal {s : State} (named : s.WellScoped) (held : s.HasLocal name)
    (ctx : Context) (stmt : Stmt) :
    ((recorded (checkStmt ctx stmt)).run s).2.tally (Diagnostic.isUndefined name) =
      s.tally (Diagnostic.isUndefined name) := by
  obtain ⟨n, added, none⟩ := (checkStmt_adds (accounted_isUndefined name)
    (reflects_isUndefined ((recorded (checkStmt ctx stmt)).run s).2.symbols ctx {})
    stmt).recorded s named (SymbolTable.Extends.refl _).toWithin held.binds
  -- the jumps account for nothing
  have few : n ≤ 0 := by simpa using none
  rw [added]
  omega

end Undefined

/-- A name is in the scope behind a form of variables exactly if it was there before or the form
    gets as far as declaring it, whatever fails on the way. And no later statement of the scope adds
    the error of an undefined name for it then. -/
theorem declared_checkVars {name : String} (plain : name ≠ "_") (ctx : Context) (id : StmtId)
    (vars : VarForm) (s : State) :
    let after := ((checkVars ctx id vars).run s).2
    ((after.scopes.findLocal? name).isSome ↔
      (s.scopes.findLocal? name).isSome ∨ vars.Declares name) ∧
    ((after.scopes.findLocal? name).isSome → s.WellScoped → ∀ later, after.Grows later →
      ∀ (ctx' : Context) (stmt : Stmt),
        ((recorded (checkStmt ctx' stmt)).run later).2.errors.countP (Diagnostic.isUndefined name) =
          later.errors.countP (Diagnostic.isUndefined name)) := by
  refine ⟨checkVars_declares plain ctx id vars s, fun held named later grows ctx' stmt => ?_⟩
  have kept : later.HasLocal name := by
    obtain ⟨symbol, found⟩ := Option.isSome_iff_exists.mp held
    exact Option.isSome_iff_exists.mpr ⟨symbol, grows.inner name symbol found⟩
  have placed : later.WellScoped :=
    (named.grows ((checkVars ctx id vars).grows s)).grows grows
  exact tally_checkStmt_of_hasLocal placed kept ctx' stmt

/-- A function whose signature has a name that leads nowhere. -/
def missingParam : VarForm :=
  ⟨[.make "f" none (some (.func (.make (some "f") none
    [.make (some "x") (.ofName "missing")] [] [])))], true⟩

/-- The function is declared although its signature fails, and may be used behind it. -/
theorem declared_checkVars_missingParam :
    let ran := (checkVars { file := "m.hv" } {} missingParam).run .bare
    let after := ran.2
    pending (Diagnostic.isUndefined "missing") ran.1.2 = 1 ∧
      (after.scopes.findLocal? "f").isSome ∧
      ((recorded (checkStmt { file := "m.hv" } (.var "x" none (some (.name "f"))))).run
        after).2.errors.countP (Diagnostic.isUndefined "f") =
          after.errors.countP (Diagnostic.isUndefined "f") := by
  have declares := @declared_checkVars "f" (by decide) { file := "m.hv" } {} missingParam .bare
  have held := declares.1.mpr (Or.inr ⟨_, List.mem_singleton_self _, rfl, fun _ => rfl⟩)
  exact ⟨by decide +kernel, held, declares.2 held State.wellScoped_bare _ (.refl _) _ _⟩

/-- A function without a body. -/
def bodyless : VarForm :=
  ⟨[.make "f" none none], true⟩

/-- The function is not declared, so that its use behind it is undefined. -/
theorem undeclared_checkVars_bodyless :
    let after := ((checkVars { file := "m.hv" } {} bodyless).run .bare).2
    after.scopes.findLocal? "f" = none ∧
      ((recorded (checkStmt { file := "m.hv" } (.var "x" none (some (.name "f"))))).run
        after).2.errors.countP (Diagnostic.isUndefined "f") = 1 := by
  decide +kernel

end Typing

end PackageCheck
