import PackageCheck.Proofs.Typing.Introduction
import PackageCheck.Proofs.Typing.Quiet

/-! # The names that a statement adds

A statement at which nothing fails adds the names that it declares to the scope at hand, all of which
are new there, and no other names. The blank name may be declared any number of times, and is never
added. -/

namespace PackageCheck.Typing

open Check

/-! ## Added names -/

/-- Whether the innermost scope has been given some names, and nothing else has become of the scopes. -/
structure State.AddsNames (names : List String) (s t : State) : Prop where
  free : ∀ n ∈ names, n ≠ "_" → s.scopes.inner.find? n = none
  held : ∀ n ∈ names, n ≠ "_" → (t.scopes.inner.find? n).isSome
  others : ∀ n, (n ∉ names ∨ n = "_") → t.scopes.inner.find? n = s.scopes.inner.find? n
  outer : t.scopes.outer = s.scopes.outer

namespace State.AddsNames

variable {names names' : List String} {s s₁ t : State}

theorem of_scopes (same : t.scopes = s.scopes) : AddsNames [] s t :=
  ⟨nofun, nofun, fun _ _ => by rw [same], by rw [same]⟩

theorem append (first : AddsNames names s s₁) (second : AddsNames names' s₁ t) :
    AddsNames (names ++ names') s t where
  free n member plain := by
    by_cases mine : n ∈ names
    · exact first.free n mine plain
    · rw [← first.others n (Or.inl mine)]
      exact second.free n ((List.mem_append.mp member).resolve_left mine) plain
  held n member plain := by
    by_cases mine : n ∈ names'
    · exact second.held n mine plain
    · rw [second.others n (Or.inl mine)]
      exact first.held n ((List.mem_append.mp member).resolve_right mine) plain
  others n other := by
    rw [List.mem_append, not_or] at other
    exact (second.others n (other.imp_left And.right)).trans (first.others n (other.imp_left And.left))
  outer := second.outer.trans first.outer

/-- What leaves the scopes alone may stand in front of it. -/
theorem behind (same : s₁.scopes = s.scopes) (second : AddsNames names s₁ t) : AddsNames names s t :=
  (of_scopes same).append second

/-- What leaves the scopes alone may stand behind it. -/
theorem ahead (first : AddsNames names s s₁) (same : t.scopes = s₁.scopes) : AddsNames names s t := by
  have both := first.append (of_scopes same)
  rwa [List.append_nil] at both

theorem insertNamed {symbol : Symbol} {name : String} (named : symbol.name = name)
    (free : s.clash? name = none) : AddsNames [name] s (s.insertNamed symbol) := by
  subst named
  by_cases blank : symbol.name = "_"
  · have same : (s.insertNamed symbol).scopes = s.scopes := if_pos blank
    refine ⟨?_, ?_, fun _ _ => by rw [same], by rw [same]⟩
    · exact fun n member plain => absurd ((List.mem_singleton.mp member).trans blank) plain
    · exact fun n member plain => absurd ((List.mem_singleton.mp member).trans blank) plain
  · have added : (s.insertNamed symbol).scopes = s.scopes.add symbol.name s.symbols.nextId :=
      if_neg blank
    have absent : s.scopes.inner.find? symbol.name = none := by rwa [State.clash?, if_neg blank] at free
    refine ⟨?_, ?_, fun n other => ?_, by rw [added]; rfl⟩
    · rintro n member -
      rwa [List.mem_singleton.mp member]
    · rintro n member -
      rw [added, List.mem_singleton.mp member, ScopeStack.add, NameMap.find?_insert_self]
      rfl
    · have apart : n ≠ symbol.name := by
        rcases other with other | rfl
        · exact fun same => other (List.mem_singleton.mpr same)
        · exact fun same => blank same.symm
      rw [added, ScopeStack.add, NameMap.find?_insert_of_ne _ _ apart]

end State.AddsNames

/-! ## Checks -/

theorem Check.Quiet.scopes {check : Check α} (keeps : ∀ {scopes}, check.KeepsScopes scopes)
    {s t : State} {a : α} (quiet : check.Quiet s a t) : t.scopes = s.scopes := by
  have same := scopes_run keeps s
  rwa [quiet.run] at same

/-- Whether a node that checks has added some names to the scope at hand. -/
def Check.AddsNames (names : List String) (check : Check (Checked ν τ)) : Prop :=
  ∀ s node a t, check.Passes s node a t → State.AddsNames names s t

namespace Check.AddsNames

variable {names : List String} {check : Check (Checked ν τ)}

theorem of_keeps (keeps : ∀ {scopes}, check.KeepsScopes scopes) : check.AddsNames [] :=
  fun _ _ _ _ quiet => .of_scopes (quiet.scopes keeps)

/-- Behind a check that leaves the scopes alone. -/
theorem behind {first : Check β} {next : β → Check (Checked ν τ)}
    (keeps : ∀ {scopes}, first.KeepsScopes scopes) (rest : ∀ b, (next b).AddsNames names) :
    (first >>= next).AddsNames names := by
  intro s node a t quiet
  obtain ⟨b, s₁, head, tail⟩ := quiet.bind_inv
  exact (rest b s₁ node a t tail).behind (head.scopes keeps)

theorem rebuild {f : ν → μ} (inside : check.AddsNames names) : (check.rebuild f).AddsNames names := by
  intro s node a t quiet
  obtain ⟨part, within, -⟩ := quiet.rebuild_inv
  exact inside s part a t within

theorem noted (inside : check.AddsNames names) : (Typing.noted check).AddsNames names :=
  fun s node a t quiet => inside s node a t quiet.noted_inv

theorem alongside {names' : List String} {other : Check (Checked μ σ)} (first : check.AddsNames names)
    (second : other.AddsNames names') : (check.alongside other).AddsNames (names ++ names') := by
  intro s both b t quiet
  obtain ⟨a, s₁, head, tail⟩ := quiet.alongside_inv
  exact (first s both.1 a s₁ head).append (second s₁ both.2 b t tail)

theorem declareVar (ctx : Context) (decl : VarDecl) (type : Ty) (init : Option StmtId)
    (result : Except Diagnostic Unit) :
    (Typing.declareVar ctx decl type init result).AddsNames [decl.name] := by
  intro s node a t quiet
  obtain ⟨-, -, free, rfl⟩ := quiet.declareVar_inv
  exact .insertNamed rfl free

theorem declareType {ctx : Context} {name : String} {position : Position} {node : ν}
    {define : Attempt (Ty × α)} {next : SymbolId → α → Check (Checked ν Unit)}
    (defines : ∀ {scopes}, define.run.KeepsScopes scopes)
    (keeps : ∀ id a {scopes}, (next id a).KeepsScopes scopes) :
    (Typing.declareType ctx name position node define next).AddsNames [name] := by
  intro s checked a t quiet
  obtain ⟨-, free, target, found, s₁, defined, rest⟩ := quiet.declareType_inv
  have declared : State.AddsNames [name] s (s.declaring ctx name position) :=
    .insertNamed rfl free
  exact (declared.ahead (defined.scopes defines)).ahead (rest.scopes (keeps _ _))

end Check.AddsNames

/-! ## Statements -/

open Check.AddsNames

theorem checkPlainVar_addsNames (ctx : Context) (own : StmtId) (decl : VarDecl) :
    (checkPlainVar ctx own decl).AddsNames [decl.name] := by
  obtain ⟨name, position, spec, value, symbol⟩ := decl
  rw [checkPlainVar]
  refine .behind (.resolveOr touch_scopes _ _) fun resolved => ?_
  cases resolved with
  | error err => exact .declareVar _ _ _ _ _
  | ok declared =>
    refine .behind ((opensIn_stable _).steady.checkInit _ _ _ _ _) fun checked => ?_
    obtain ⟨value, found⟩ := checked
    cases found with
    | ok type => exact .declareVar _ _ _ _ _
    | error err => exact .declareVar _ _ _ _ _

/-- A named function without a body does not check. -/
theorem checkFuncVar_addsNames (ctx : Context) (own : StmtId) (decl : VarDecl) :
    (checkFuncVar ctx own decl).AddsNames [decl.name] := by
  obtain ⟨name, position, spec, value, symbol⟩ := decl
  have fails : ∀ {decl : VarDecl} {err : Diagnostic},
      (pure (decl, .error err) : Check (Checked VarDecl Unit)).AddsNames [name] :=
    fun _ _ _ _ quiet => nomatch quiet.pure_inv.1
  cases value with
  | none => exact fails
  | some value =>
    obtain ⟨valuePosition, form, type⟩ := value
    cases form with
    | func func =>
      rw [checkFuncVar]
      refine .behind (.funcType touch_scopes _) fun typed => ?_
      cases typed with
      | error err => exact .declareVar _ _ _ _ _
      | ok found =>
        intro s node a t quiet
        obtain ⟨⟨decl, result⟩, s₁, declared, rest⟩ := quiet.bind_inv
        cases result with
        | error err => cases rest.pure_inv.1
        | ok _ =>
          -- the body is checked behind the declaration, in a scope of its own
          have added := AddsNames.declareVar ctx _ _ _ _ s decl _ s₁ declared
          refine added.ahead (rest.scopes fun {_} => ?_)
          exact .bind ((opensIn_stable _).steady.checkBody _ _ _ _) fun _ => .pure _
    | _ => exact fails

theorem checkVars_addsNames (ctx : Context) (own : StmtId) (vars : VarForm) :
    (checkVars ctx own vars).AddsNames (vars.vars.map (·.name)) := by
  obtain ⟨vars, isFunc⟩ := vars
  have listed : (checkVarList ctx own isFunc vars).AddsNames (vars.map (·.name)) := by
    induction vars with
    | nil => exact .of_keeps (.pure _)
    | cons decl rest hypothesis =>
      rw [checkVarList]
      have first : (if isFunc then checkFuncVar ctx own decl else checkPlainVar ctx own decl).AddsNames
          [decl.name] := by
        split
        · exact checkFuncVar_addsNames ctx own decl
        · exact checkPlainVar_addsNames ctx own decl
      exact .rebuild (.alongside first.noted hypothesis)
  rw [checkVars]
  refine .behind .state fun before => ?_
  intro s node a t quiet
  obtain ⟨⟨checked, result⟩, s₁, head, tail⟩ := quiet.bind_inv
  obtain ⟨_, s₂, noted, last⟩ := tail.bind_inv
  obtain ⟨⟨b, rfl⟩, rfl⟩ := noted.noteForm_inv
  obtain ⟨-, rfl⟩ := last.pure_inv
  exact listed s checked b _ head

theorem checkStmt_addsNames (ctx : Context) (s : Stmt) : (checkStmt ctx s).AddsNames s.declaredNames := by
  obtain ⟨own, position, label, form⟩ := s
  rw [checkStmt]
  refine .rebuild ?_
  cases form with
  | struct decl =>
    obtain ⟨name, fields, methods, symbol⟩ := decl
    rw [checkForm]
    refine .rebuild (.declareType (.structTarget touch_scopes _ _ _ _) fun _ _ {_} => ?_)
    exact (opensIn_stable _).steady.checkMethods _ _ _ _
  | typeAlias decl =>
    rw [checkForm, checkAlias]
    refine .rebuild (.rebuild (.declareType (.aliasTarget touch_scopes _ _ _) fun _ _ {_} => ?_))
    exact .bind (.aliasRoot _ _ _) fun _ => .pure _
  | var vars =>
    rw [checkForm]
    exact .rebuild (checkVars_addsNames ctx own vars)
  -- the other forms declare nothing in the scope around them
  | _ => exact .of_keeps ((opensIn_stable _).steady.checkForm ctx own position _ _ False.elim)

end PackageCheck.Typing
