import PackageCheck.Proofs.Typing.Stable

/-! # The names that a statement introduces

A statement adds names to the scope at hand only by declaring something in it. So a name that is new
in the scope behind a statement leads to a symbol that is new in the table, and that the checked
statement holds as the symbol of a variable or a type which it declares.

Everything else, and in particular every expression, leaves the scopes as they are. -/

namespace PackageCheck

/-! ## Declared symbols -/

/-- The symbol of the variable, once it has been declared. -/
def VarDecl.declaredIds (decl : VarDecl) : List SymbolId :=
  decl.symbol.toList

/-- The symbols that a checked form declares in the scope around it. -/
def StmtForm.declaredIds : StmtForm → List SymbolId
  | .var vars => vars.vars.flatMap VarDecl.declaredIds
  | .struct decl => decl.symbol.toList
  | .typeAlias decl => decl.symbol.toList
  | _ => []

/-- The symbols that a checked statement declares in the scope around it. -/
def Stmt.declaredIds (s : Stmt) : List SymbolId :=
  s.form.declaredIds

namespace Typing

open Check

/-! ## Checks that leave the scopes alone -/

/-- Whether the scopes at hand are some scopes, with a number of scopes opened inside of them. -/
def State.OpensIn (scopes : ScopeStack) (n : Nat) (s : State) : Prop :=
  s.scopes.all.drop n = scopes.all

/-- Whether a check that begins with some scopes ends with them. -/
abbrev Check.KeepsScopes (scopes : ScopeStack) (check : Check α) : Prop :=
  Preserves (State.OpensIn scopes 0) check

section Scopes

variable {scopes : ScopeStack}

theorem opensIn_zero_iff {s : State} : s.OpensIn scopes 0 ↔ s.scopes = scopes := by
  obtain ⟨inner, outer⟩ := scopes
  obtain ⟨⟨inner', outer'⟩, _, _, _⟩ := s
  simp [State.OpensIn, ScopeStack.all]

theorem record_opensIn {n : Nat} (result : Except Diagnostic α) :
    Preserves (State.OpensIn scopes n) (record result) := by
  refine .change fun s opens => ?_
  cases result with
  | ok a => exact opens
  | error err =>
    unfold State.OpensIn at opens ⊢
    cases tainted : s.tainted <;>
      simpa [State.note, State.record, State.judge, State.report, tainted] using opens

/-- What is opened is closed again, and a declaration in it does not reach the scopes around it. -/
theorem opensIn_stable (scopes : ScopeStack) : Stable (State.OpensIn scopes) where
  touch n s name id opens := opens
  note n s result opens := by cases result <;> exact opens
  noteForm n s sound result opens := by cases result <;> exact opens
  report n s err opens := opens
  pushScope n s opens := opens
  popScope n s opens := by
    obtain ⟨⟨inner, outer⟩, _, _, _⟩ := s
    have behind : outer.drop n = scopes.all := opens
    cases outer with
    -- the bottom scope is not among the opened ones
    | nil => cases n <;> cases behind
    | cons next rest => exact behind
  insertSymbol n s symbol opens := opens
  insertNamed n s symbol opens := by
    unfold State.OpensIn State.insertNamed
    dsimp only
    split
    · exact opens
    · exact opens
  setAliased n s id target opens := opens
  markIfFailed n s id result opens := by cases result <;> exact opens
  recorded n check inside := by
    refine .bind .state fun before => .bind (.change fun _ opens => opens) fun _ => ?_
    refine .bind inside fun checked => .bind (record_opensIn checked.2) fun _ => ?_
    exact .bind (.change fun _ opens => opens) fun _ => .pure _

theorem touch_scopes (name : String) (id : SymbolId) : (touch name id).KeepsScopes scopes :=
  (opensIn_stable scopes).runTouch name id

theorem scopes_run {check : Check α} (keeps : ∀ {scopes}, check.KeepsScopes scopes) (s : State) :
    (check.run s).2.scopes = s.scopes :=
  opensIn_zero_iff.mp (keeps s rfl)

end Scopes

/-! ## Checks that introduce names -/

/-- Whether the names that a check adds to the innermost scope lead to new symbols, all of them
    among the declared ones of what it comes to. -/
def Check.Introduces (check : Check α) (declared : α → List SymbolId) : Prop :=
  ∀ (s : State) (name : String) (id : SymbolId),
    (check.run s).2.scopes.inner.find? name = some id →
      s.scopes.inner.find? name = some id ∨
        (s.symbols.get? id = none ∧ id ∈ declared (check.run s).1)

namespace Check.Introduces

variable {declared : α → List SymbolId}

theorem of_keeps {check : Check α} (keeps : ∀ {scopes}, check.KeepsScopes scopes) :
    check.Introduces declared := by
  intro s name id found
  have same := scopes_run keeps s
  exact Or.inl (same ▸ found)

/-- A symbol that is new behind a check was new in front of it. -/
theorem new_of_grows {s s' : State} {id : SymbolId} (grows : s.Grows s')
    (new : s'.symbols.get? id = none) : s.symbols.get? id = none := by
  cases held : s.symbols.get? id with
  | none => rfl
  | some symbol => cases new.symm.trans (grows.symbols.kept id symbol held)

/-- Behind a check that leaves the scopes alone. -/
theorem behind {check : Check β} {next : β → Check α}
    (keeps : ∀ {scopes}, check.KeepsScopes scopes) (rest : ∀ b, (next b).Introduces declared) :
    (check >>= next).Introduces declared := by
  intro s name id found
  have same := scopes_run keeps s
  rcases rest _ _ name id found with before | ⟨new, member⟩
  · exact Or.inl (same ▸ before)
  · exact Or.inr ⟨new_of_grows (check.grows s) new, member⟩

/-- In front of a check that leaves the scopes alone and keeps what has been declared. -/
theorem ahead {check : Check β} {next : β → Check α} {first : β → List SymbolId}
    (head : check.Introduces first) (keeps : ∀ b {scopes}, (next b).KeepsScopes scopes)
    (kept : ∀ (b : β) (s : State), first b ⊆ declared ((next b).run s).1) :
    (check >>= next).Introduces declared := by
  intro s name id found
  have same := scopes_run (keeps (check.run s).1) (check.run s).2
  have found : (check.run s).2.scopes.inner.find? name = some id := same ▸ found
  rcases head s name id found with before | ⟨new, member⟩
  · exact Or.inl before
  · exact Or.inr ⟨new, kept _ _ member⟩

theorem rebuild {check : Check (Checked ν τ)} {f : ν → μ} {D : ν → List SymbolId}
    {E : μ → List SymbolId} (inside : check.Introduces fun checked => D checked.1)
    (kept : ∀ node, D node ⊆ E (f node)) :
    (check.rebuild f).Introduces fun checked => E checked.1 :=
  inside.ahead (fun _ {_} => .pure _) fun checked _ => kept checked.1

theorem alongside {check : Check (Checked ν σ)} {other : Check (Checked μ τ)}
    {D : ν → List SymbolId} {E : μ → List SymbolId}
    (head : check.Introduces fun checked => D checked.1)
    (tail : other.Introduces fun checked => E checked.1) :
    (check.alongside other).Introduces fun checked => D checked.1.1 ++ E checked.1.2 := by
  intro s name id found
  rcases tail _ name id found with before | ⟨new, member⟩
  -- the name was there behind the first check already
  · rcases head s name id before with before | ⟨new, member⟩
    · exact Or.inl before
    · exact Or.inr ⟨new, List.mem_append_left _ member⟩
  · exact Or.inr ⟨new_of_grows (check.grows s) new, List.mem_append_right _ member⟩

theorem noted {check : Check (Checked ν τ)} {D : ν → List SymbolId}
    (inside : check.Introduces fun checked => D checked.1) :
    (Typing.noted check).Introduces fun checked => D checked.1 := by
  refine inside.ahead (fun checked {_} => ?_) fun _ _ => List.Subset.refl _
  refine .bind (.change fun s same => ?_) fun _ => .pure _
  cases checked.2 <;> exact same

theorem recorded {check : Check (Checked ν τ)} {D : ν → List SymbolId}
    (inside : check.Introduces fun checked => D checked.1) :
    (Typing.recorded check).Introduces D := by
  refine .behind .state fun before => .behind (.change fun _ same => same) fun _ => ?_
  refine inside.ahead (fun checked {_} => ?_) fun _ _ => List.Subset.refl _
  exact .bind (record_opensIn _) fun _ => .bind (.change fun _ same => same) fun _ => .pure _

/-! ### Declarations -/

theorem inner_insertNamed {s : State} {symbol : Symbol} {name : String} {id : SymbolId}
    (found : (s.insertNamed symbol).scopes.inner.find? name = some id) :
    s.scopes.inner.find? name = some id ∨ id = s.symbols.nextId := by
  by_cases blank : symbol.name = "_"
  · rw [State.insertNamed, if_pos blank] at found
    exact Or.inl found
  · simp only [State.insertNamed, if_neg blank, ScopeStack.add] at found
    by_cases same : name = symbol.name
    · subst same
      rw [NameMap.find?_insert_self] at found
      exact Or.inr (Option.some.inj found).symm
    · rw [NameMap.find?_insert_of_ne _ _ same] at found
      exact Or.inl found

theorem scopes_markIfFailed (s : State) (id : SymbolId) (result : Except Diagnostic α) :
    (s.markIfFailed id result).scopes = s.scopes := by
  cases result <;> rfl

theorem declareVar (ctx : Context) (decl : VarDecl) (type : Ty) (init : Option StmtId)
    (result : Except Diagnostic Unit) :
    (Typing.declareVar ctx decl type init result).Introduces fun checked =>
      checked.1.declaredIds := by
  intro s name id found
  rw [Typing.declareVar] at found ⊢
  cases clash : s.clash? decl.name with
  | some previous =>
    rw [run_given_of_error (run_declare_of_clash clash _ _)] at found
    exact Or.inl found
  | none =>
    rw [run_given_of_ok (run_declare_of_free clash _ _)] at found ⊢
    have found : (s.insertNamed _).scopes.inner.find? name = some id :=
      scopes_markIfFailed _ s.symbols.nextId result ▸ found
    rcases inner_insertNamed found with before | rfl
    · exact Or.inl before
    · exact Or.inr ⟨s.symbols.get?_nextId, List.mem_singleton_self _⟩

theorem declareType {ctx : Context} {name : String} {position : Position} {node : ν}
    {define : Attempt (Ty × α)} {next : SymbolId → α → Check (Checked ν Unit)}
    (defines : ∀ {scopes}, define.run.KeepsScopes scopes)
    (keeps : ∀ id a {scopes}, (next id a).KeepsScopes scopes) :
    (Typing.declareType ctx name position node define next).Introduces fun checked =>
      checked.1.1.toList := by
  intro s other id found
  cases clash : s.clash? name with
  | some previous =>
    rw [run_declareType_of_clash clash] at found
    exact Or.inl found
  | none =>
    have behind := scopes_run defines (s.declaring ctx name position)
    -- the definition and what is checked behind it leave the scopes alone
    cases defined : (define.run.run (s.declaring ctx name position)).1 with
    | error err =>
      rw [run_declareType_of_error clash defined] at found ⊢
      rw [scopes_markIfFailed, behind] at found
      rcases inner_insertNamed found with before | rfl
      · exact Or.inl before
      · exact Or.inr ⟨s.symbols.get?_nextId, List.mem_singleton_self _⟩
    | ok defined' =>
      rw [run_declareType_of_ok clash defined] at found ⊢
      have last := (scopes_run (keeps s.symbols.nextId defined'.2) ((define.run.run
        (s.declaring ctx name position)).2.setAliased s.symbols.nextId defined'.1)).trans behind
      rw [scopes_markIfFailed, last] at found
      rcases inner_insertNamed found with before | rfl
      · exact Or.inl before
      · exact Or.inr ⟨s.symbols.get?_nextId, List.mem_singleton_self _⟩

end Check.Introduces

/-! ## Statements -/

open Check.Introduces

theorem checkPlainVar_introduces (ctx : Context) (id : StmtId) (decl : VarDecl) :
    (checkPlainVar ctx id decl).Introduces fun checked => checked.1.declaredIds := by
  obtain ⟨name, position, spec, value, symbol⟩ := decl
  rw [checkPlainVar]
  refine .behind (.resolveOr touch_scopes _ _) fun result => ?_
  cases result with
  | error err => exact .declareVar _ _ _ _ _
  | ok declared =>
    refine .behind ((opensIn_stable _).steady.checkInit _ _ _ _ _) fun checked => ?_
    obtain ⟨value, found⟩ := checked
    cases found with
    | ok type => exact .declareVar _ _ _ _ _
    | error err => exact .declareVar _ _ _ _ _

theorem checkFuncVar_introduces (ctx : Context) (id : StmtId) (decl : VarDecl) :
    (checkFuncVar ctx id decl).Introduces fun checked => checked.1.declaredIds := by
  obtain ⟨name, position, spec, value, symbol⟩ := decl
  cases value with
  | none => exact .of_keeps (.pure _)
  | some value =>
    obtain ⟨valuePosition, form, type⟩ := value
    cases form with
    | func func =>
      rw [checkFuncVar]
      refine .behind (.funcType touch_scopes _) fun result => ?_
      cases result with
      | error err => exact .declareVar _ _ _ _ _
      | ok found =>
        -- the body is checked behind the declaration, and the declared symbol stays
        refine (Check.Introduces.declareVar ctx _ _ _ _).ahead (fun (decl, result) {_} => ?_)
          fun (decl, result) s => ?_
        · cases result with
          | error err => exact .pure _
          | ok _ => exact .bind ((opensIn_stable _).steady.checkBody _ _ _ _) fun _ => .pure _
        · cases result <;> exact List.Subset.refl _
    | _ => exact .of_keeps (.pure _)

theorem checkVarList_introduces (ctx : Context) (id : StmtId) (isFunc : Bool)
    (vars : List VarDecl) : (checkVarList ctx id isFunc vars).Introduces fun checked =>
      checked.1.flatMap VarDecl.declaredIds := by
  induction vars with
  | nil => exact .of_keeps (.pure _)
  | cons decl rest ih =>
    rw [checkVarList]
    refine .rebuild (D := fun x => x.1.declaredIds ++ x.2.flatMap VarDecl.declaredIds)
      (.alongside (.noted ?_) ih) fun _ => List.Subset.refl _
    split
    · exact checkFuncVar_introduces ctx id decl
    · exact checkPlainVar_introduces ctx id decl

theorem checkVars_introduces (ctx : Context) (id : StmtId) (vars : VarForm) :
    (checkVars ctx id vars).Introduces fun checked =>
      checked.1.vars.flatMap VarDecl.declaredIds := by
  obtain ⟨vars, isFunc⟩ := vars
  rw [checkVars]
  refine .behind .state fun before => ?_
  refine (checkVarList_introduces ctx id isFunc vars).ahead (fun checked {_} => ?_)
    fun _ _ => List.Subset.refl _
  refine .bind (.change fun s same => ?_) fun _ => .pure _
  cases checked.2 <;> exact same

theorem checkAlias_introduces (ctx : Context) (decl : AliasDecl) (position : Position) :
    (checkAlias ctx decl position).Introduces fun checked => checked.1.symbol.toList := by
  refine .rebuild (D := fun x : Option SymbolId × Unit => x.1.toList)
    (E := fun decl : AliasDecl => decl.symbol.toList) (.declareType
    (.aliasTarget touch_scopes _ _ _) fun _ _ {_} => ?_) fun (declared, _) => ?_
  · exact .bind (.aliasRoot _ _ _) fun _ => .pure _
  · cases declared <;> simp

theorem checkForm_introduces (ctx : Context) (id : StmtId) (position : Position)
    (label : Option String) (form : StmtForm) :
    (checkForm ctx id position label form).Introduces fun checked => checked.1.declaredIds := by
  cases form with
  | struct decl =>
    obtain ⟨name, fields, methods, symbol⟩ := decl
    rw [checkForm]
    refine .rebuild (D := fun x => x.1.toList) (.declareType
      (.structTarget touch_scopes _ _ _ _) fun _ _ {_} => ?_) fun (struct, methods) => ?_
    · exact (opensIn_stable _).steady.checkMethods _ _ _ _
    · cases struct <;> simp [StmtForm.declaredIds]
  | typeAlias decl =>
    rw [checkForm]
    exact .rebuild (D := fun decl => decl.symbol.toList) (checkAlias_introduces ctx decl position)
      fun decl => List.Subset.refl _
  | var vars =>
    rw [checkForm]
    exact .rebuild (checkVars_introduces ctx id vars) fun vars => List.Subset.refl _
  -- the other forms declare nothing in the scope around them
  | _ => exact .of_keeps ((opensIn_stable _).steady.checkForm ctx id position label _ False.elim)

/-- A statement introduces names for what it declares only. -/
theorem checkStmt_introduces (ctx : Context) (s : Stmt) :
    (checkStmt ctx s).Introduces fun checked => checked.1.declaredIds := by
  obtain ⟨id, position, label, form⟩ := s
  rw [checkStmt]
  exact (checkForm_introduces ctx id position _ form).ahead (fun _ {_} => .pure _)
    fun _ _ => List.Subset.refl _

end Typing

end PackageCheck
