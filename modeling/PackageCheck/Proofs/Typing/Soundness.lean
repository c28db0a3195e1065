import PackageCheck.Proofs.Typing.RuleSoundness

/-! # Sound annotations

Whatever a check comes to, the type that an expression has got afterwards is sound, or else it has
been left open. This holds of every expression in a tree and not only of those in statements that
check, since a type is written as soon as the rule of the expression has been applied. -/

namespace PackageCheck.Typing

open Check

/-! ## Justified parts -/

/-- Whether no expression of a walk has a type yet. -/
def Untyped (walk : List Event) : Prop :=
  ∀ e, .enterExpr e ∈ walk → e.type = .unknown

/-- Whether the expressions of a checked tree are justified, provided that the tree with a walk has
    not been checked before. -/
def Justifies (table : SymbolTable) (walk : List Event) (parts : List Expr) : Prop :=
  Untyped walk → ∀ x ∈ parts, x.Justified table

variable {table : SymbolTable}

namespace Justifies

variable {walk walk' : List Event} {parts parts' : List Expr}

theorem nil : Justifies table walk [] :=
  nofun

/-- A tree that stays as it is has no types. -/
theorem unchanged (entered : ∀ x ∈ parts, .enterExpr x ∈ walk) : Justifies table walk parts :=
  fun untyped x member => Or.inr (Or.inl (untyped x (entered x member)))

theorem within (justifies : Justifies table walk parts)
    (sub : ∀ e, .enterExpr e ∈ walk → .enterExpr e ∈ walk') : Justifies table walk' parts :=
  fun untyped => justifies fun e member => untyped e (sub e member)

/-- The expressions of a tree may be listed in another order. -/
theorem rearrange (justifies : Justifies table walk parts)
    (sub : ∀ e, .enterExpr e ∈ walk → .enterExpr e ∈ walk') (parts_sub : ∀ x ∈ parts', x ∈ parts) :
    Justifies table walk' parts' :=
  fun untyped x member => justifies.within sub untyped x (parts_sub x member)

theorem cons {x : Expr} (justified : x.Justified table) (justifies : Justifies table walk parts) :
    Justifies table walk (x :: parts) :=
  fun untyped => List.forall_mem_cons.mpr ⟨justified, justifies untyped⟩

theorem append (first : Justifies table walk parts) (second : Justifies table walk' parts') :
    Justifies table (walk ++ walk') (parts ++ parts') := by
  intro untyped x member
  rcases List.mem_append.mp member with member | member
  · exact first (fun e entered => untyped e (List.mem_append_left _ entered)) x member
  · exact second (fun e entered => untyped e (List.mem_append_right _ entered)) x member

theorem expr (e : Expr) : Justifies table e.walk (e.parts table) :=
  unchanged fun _ => Expr.enter_mem_walk

theorem exprs (es : List Expr) : Justifies table (Expr.walkList es) (Expr.partsList table es) :=
  unchanged fun _ => Expr.enter_mem_walkList

theorem elements (valueKeys : Bool) (elements : List Element) :
    Justifies table (Element.walkList valueKeys elements)
      (Element.partsList table valueKeys elements) :=
  unchanged fun _ => Element.enter_mem_walkList

theorem form (position : Position) (form : ExprForm) :
    Justifies table (form.walk position) (form.parts table) :=
  unchanged fun _ => ExprForm.enter_mem_walk

theorem stmtForm (form : StmtForm) : Justifies table form.walk (form.parts table) :=
  unchanged fun _ => StmtForm.enter_mem_walk

theorem funcs (funcs : List Func) :
    Justifies table (Func.walkList funcs) (Func.partsList table funcs) :=
  unchanged fun _ => Func.enter_mem_walkList

end Justifies

/-! ## Agreement -/

theorem settle_met {what : String} {site : Site} {expected found type : Ty} {e : Expr}
    (holds : Found table e found)
    (settled : (settle what site expected e found).2 = .ok type) :
    Met table expected (settle what site expected e found).1 type := by
  unfold settle at settled ⊢
  cases negotiated : expected.negotiate found with
  | error err =>
    rw [negotiated] at settled
    cases settled
  | ok common =>
    rw [negotiated] at settled
    cases settled
    obtain ⟨left, right⟩ := Ty.refinedBy_merge (Ty.merge_of_negotiate negotiated)
    obtain ⟨rfl, blank | yields⟩ := holds
    · exact ⟨left, Or.inl (by simp [blank])⟩
    · dsimp only
      split
      case isTrue blank => exact ⟨left, Or.inl blank⟩
      case isFalse => exact ⟨left, Or.inr ⟨rfl, _, yields, right⟩⟩

/-- An expression that is settled keeps its parts, and its own type stays sound. -/
theorem settle_justifies {what : String} {site : Site} {expected found : Ty} {e : Expr}
    {walk : List Event} (holds : Found table e found)
    (justifies : Justifies table walk (e.parts table)) :
    Justifies table walk ((settle what site expected e found).1.parts table) := by
  intro untyped
  have before := justifies untyped
  cases negotiated : expected.negotiate found with
  | error err =>
    rw [settle, negotiated]
    exact before
  | ok common =>
    have passed : (settle what site expected e found).2 = .ok common := by
      rw [settle, negotiated]
    have met := settle_met holds passed
    simp only [settle, negotiated] at met ⊢
    split
    case isTrue => exact before
    case isFalse full =>
      obtain ⟨position, form, type⟩ := e
      rw [Expr.parts] at before ⊢
      refine List.forall_mem_cons.mpr ⟨?_, (List.forall_mem_cons.mp before).2⟩
      rw [if_neg full] at met
      exact met.2.imp id fun sound => Or.inr sound.2

/-! ## Outcomes -/

/-- Whether a check gives an expression a type that its rule yields. -/
abbrev Check.Infers (table : SymbolTable) (check : Check (Checked Expr Ty)) (e : Expr) : Prop :=
  check.EnsuresNode table (fun e' => Justifies table e.walk (e'.parts table)) (Found table)

/-- Whether a check gives an expression a sound type that refines the expected one. -/
abbrev Check.Meets (table : SymbolTable) (check : Check (Checked Expr Ty)) (e : Expr)
    (expected : Ty) : Prop :=
  check.EnsuresNode table (fun e' => Justifies table e.walk (e'.parts table))
    (Met table expected)

theorem Check.Infers.agreeing {what : String} {site : Expr → Site} {expected : Ty} {e : Expr}
    {check : Check (Checked Expr Ty)} (infers : check.Infers table e) :
    (agreeing what site expected check).Meets table e expected := by
  refine Ensures.bind infers fun checked ⟨justifies, passing⟩ => ?_
  obtain ⟨e', result⟩ := checked
  cases result with
  | error err => exact Ensures.pure ⟨justifies, nofun⟩
  | ok found =>
    have holds := passing found rfl
    exact Ensures.pure ⟨settle_justifies holds justifies, fun type => settle_met holds⟩

/-! ## Functions -/

theorem declareParam_spec (ctx : Context) (param : Param) (type : Ty) :
    (declareParam ctx param type).EnsuresNode table (fun param' => param'.spec = param.spec)
      fun _ _ => True := by
  unfold declareParam
  split
  · exact .ok rfl True.intro
  · refine .given (Q := fun _ => True) ?_ rfl fun id _ => .ok rfl True.intro
    exact Ensures.imp (.trivial _) fun _ _ _ _ => True.intro

/-- Parameters keep their specifications. -/
theorem declareParams_specs (ctx : Context) : ∀ (params : List Param) (types : List Ty),
    (declareParams ctx params types).Ensures table
      fun params' => params'.map (·.spec) = params.map (·.spec)
  | param :: params, type :: types => by
    rw [declareParams]
    refine Ensures.bind (declareParam_spec ctx param type).recorded fun param' same => ?_
    refine Ensures.bind (declareParams_specs ctx params types) fun params' others => ?_
    exact Ensures.pure (by simp [same, others])
  | [], _ => Ensures.pure rfl
  | _ :: _, [] => Ensures.pure rfl

/-! ## Expressions -/

/-- Whether a form of expression is blank, or yields a type. -/
def FoundForm (table : SymbolTable) (position : Position) (form : ExprForm) (found : Ty) : Prop :=
  Expr.isBlank ⟨position, form, found⟩ = true ∨ form.Yields table found

/-- Whether an expression does not stand for a type, once it has been found to have one. -/
theorem Found.namesType {e : Expr} {found : Ty} (holds : Found table e found) :
    e.namesType table = false := by
  obtain ⟨position, form, type⟩ := e
  cases form with
  | type spec => exact (holds.2.resolve_left (by simp [Expr.isBlank])).elim
  | ident ident =>
    obtain ⟨id, var, bound, held, _⟩ := holds.2.resolve_left (by simp [Expr.isBlank])
    simp [Expr.namesType, bound, held, Symbol.type?]
  | _ => rfl

theorem Met.bool {e : Expr} {type : Ty} (met : Met table .bool e type) : e.OfType (· = .bool) :=
  met.ofType.imp Ty.eq_bool_of_refinedBy

/-! ### Keys -/

/-- A check of a key is justified if a bare name stays one. -/
theorem Justifies.key {valueKeys : Bool} {key key' : Expr}
    (justifies : Justifies table key.walk (key'.parts table))
    (named : key.ident?.isSome = true → key'.ident?.isSome = true) :
    Justifies table (Expr.walkKey valueKeys (some key))
      (Expr.partsKey table valueKeys (some key')) := by
  rw [Expr.walkKey, Expr.partsKey]
  by_cases visited : (valueKeys || key.ident?.isNone) = true
  · rw [if_pos visited]
    split
    · exact justifies
    · exact fun _ _ => nofun
  · simp only [Bool.or_eq_true, not_or, Bool.not_eq_true, Option.isNone_eq_false_iff] at visited
    have hidden : ¬ (valueKeys || key'.ident?.isNone) = true := by
      simpa [visited.1, Option.isSome_iff_ne_none] using named visited.2
    rw [if_neg hidden]
    exact fun _ _ => nofun

/-- The name of a field that takes the type of the field is not visited. -/
theorem Justifies.typeKey {layout : Layout} (key : Expr) :
    Justifies table (Expr.walkKey false (some key))
      (Expr.partsKey table false (some (layout.typeKey key))) := by
  have unchanged : Justifies table (Expr.walkKey false (some key))
      (Expr.partsKey table false (some key)) := .key (.expr key) id
  unfold Layout.typeKey
  split
  case h_2 => exact unchanged
  case h_1 fields =>
    split
    case h_2 => exact unchanged
    case h_1 type found =>
      obtain ⟨ident, named, _⟩ := Option.bind_eq_some_iff.mp found
      have bare : Expr.ident? { key with type := type } = some ident := named
      simp [Expr.partsKey, bare, Justifies]

theorem settle_ident? (what : String) (site : Site) (expected : Ty) (e : Expr) (found : Ty) :
    (settle what site expected e found).1.ident? = e.ident? := by
  unfold settle
  split
  · split <;> rfl
  · rfl

/-- A bare name is still one after its check. -/
theorem expecting_ident (ctx : Context) (expected : Ty) : ∀ e : Expr, e.ident?.isSome = true →
    (expecting ctx expected (infer ctx e)).EnsuresNode table (fun e' => e'.ident?.isSome = true)
      fun _ _ => True
  | ⟨position, form, type⟩, named => by
    cases form with
    | ident ident =>
      have found : (inferForm ctx position (.ident ident) expected).EnsuresNode table
          (fun form => ∃ ident, form = .ident ident) fun _ _ => True := by
        rw [inferForm]
        exact .rebuild ((inferIdent_binds ident position).imp (fun ident _ => ⟨ident, rfl⟩)
          fun _ _ _ _ => True.intro)
      have inferred : (infer ctx ⟨position, .ident ident, type⟩ expected).EnsuresNode table
          (fun e => e.ident?.isSome = true) fun _ _ => True := by
        rw [infer]
        refine .bind found fun checked holds => ?_
        obtain ⟨form, result⟩ := checked
        obtain ⟨⟨ident, rfl⟩, _⟩ := holds
        cases result with
        | error err => exact .error rfl
        | ok found => exact .ok rfl True.intro
      refine .bind inferred fun checked holds => ?_
      obtain ⟨e', result⟩ := checked
      cases result with
      | error err => exact .error holds.1
      | ok found =>
        refine .pure ?_ fun _ _ => True.intro
        exact (congrArg Option.isSome (settle_ident? _ _ _ _ _)).trans holds.1
    | _ => cases named

/-! ### Forms -/

/-- A form of expression is put together from parts that have been checked. -/
theorem Check.EnsuresNode.yields {check : Check (Checked ν Ty)} {f : ν → ExprForm}
    {position : Position} {walk : List Event}
    (ensures : check.EnsuresNode table (fun x => Justifies table walk ((f x).parts table))
      fun x found => (f x).Yields table found) :
    (check.rebuild f).EnsuresNode table (fun form => Justifies table walk (form.parts table))
      (FoundForm table position) :=
  .rebuild (ensures.imp (fun _ justifies => justifies) fun _ _ _ yields => Or.inr yields)

/-! ### Operators -/

section Operators

variable {ctx : Context} {left right : Expr} {inferLeft inferRight : Ty → Check (Checked Expr Ty)}

theorem expecting_bools (soundLeft : ∀ hint, (inferLeft hint).Infers table left)
    (soundRight : ∀ hint, (inferRight hint).Infers table right) :
    ((expecting ctx .bool inferLeft).andThen right fun _ =>
      expecting ctx .bool inferRight).EnsuresNode table
        (fun x => Justifies table (left.walk ++ right.walk) (x.1.parts table ++ x.2.parts table))
        fun x _ => x.1.OfType (· = .bool) ∧ x.2.OfType (· = .bool) := by
  refine .andThen (soundLeft _).agreeing (Justifies.expr right) (fun x _ _ met => ?_)
    fun _ _ => .append
  exact (soundRight _).agreeing.imp (fun _ justifies => justifies)
    fun y _ _ met' => ⟨met.bool, met'.bool⟩

theorem expecting_operands (soundLeft : ∀ hint, (inferLeft hint).Infers table left)
    (soundRight : ∀ hint, (inferRight hint).Infers table right) :
    ((inferLeft .unknown).andThen right fun type =>
      expecting ctx type inferRight).EnsuresNode table
        (fun x => Justifies table (left.walk ++ right.walk) (x.1.parts table ++ x.2.parts table))
        fun x operand => x.1.OfType (·.refinedBy operand = true) ∧ x.2.OfType (· = operand) := by
  refine .andThen (soundLeft _) (Justifies.expr right) (fun x type _ found => ?_)
    fun _ _ => .append
  exact (soundRight _).agreeing.imp (fun _ justifies => justifies)
    fun y operand _ met => ⟨Or.inr (found.1 ▸ met.1), met.type⟩

theorem concluding_indexed (soundLeft : ∀ hint, (inferLeft hint).Infers table left)
    (position : Position) : ((inferLeft .unknown).conclude fun left =>
      indexTypes ctx left position).EnsuresNode table
        (fun x => Justifies table left.walk (x.parts table))
        fun x found => table.IsIndexed x.type found.1 found.2 := by
  refine (soundLeft _).conclude fun x type _ found => ?_
  obtain ⟨rfl, _⟩ := found
  exact indexTypes_indexed x.type position

theorem concluding_called (soundLeft : ∀ hint, (inferLeft hint).Infers table left) (count : Nat)
    (position : Position) : ((inferLeft .unknown).conclude fun left =>
      callSignature ctx left count position).EnsuresNode table
        (fun x => Justifies table left.walk (x.parts table))
        fun x signature => x.namesType table = false ∧
          table.underlying x.type = .ok (.func signature) ∧ signature.args.length = count := by
  refine (soundLeft _).conclude fun x type _ found => ?_
  have names := found.namesType
  obtain ⟨rfl, _⟩ := found
  refine (callSignature_func x.type count position).imp fun _ passing signature passed => ?_
  exact ⟨names, passing signature passed⟩

end Operators

/-! ## Statements -/

/-- Whether a check gives values that wait for their types types that their rules yield. -/
def Waiting.Sound (table : SymbolTable) (value : Waiting) : Prop :=
  ∀ hint, (value.infer hint).Infers table value.expr

/-- The label of a statement is no part of it. -/
theorem Justifies.relabel {walk : List Event} {s : Stmt} (label : Option StmtLabel)
    (justifies : Justifies table walk (s.parts table)) :
    Justifies table walk (Stmt.parts table { s with label := label }) := by
  obtain ⟨id, position, _, form⟩ := s
  exact justifies

theorem Justifies.block {block : Block} {parts : List Expr}
    (justifies : Justifies table (Stmt.walkList block.statements) parts) :
    Justifies table block.walk parts := by
  obtain ⟨statements, labels⟩ := block
  exact justifies.within fun e entered => by simp [Block.walk, entered]

/-- The values of an assignment are visited before its targets. -/
theorem Justifies.assign {lhs lhs' rhs rhs' : List Expr} {op op' : AssignOp}
    (justifies : Justifies table (Expr.walkList lhs ++ Expr.walkList rhs)
      (Expr.partsList table lhs' ++ Expr.partsList table rhs')) :
    Justifies table (StmtForm.walk (.assign lhs rhs op))
      (StmtForm.parts table (.assign lhs' rhs' op')) :=
  justifies.within fun _ entered => List.mem_append.mpr (List.mem_append.mp entered).symm

theorem Justifies.varDecl {decl decl' : VarDecl} {rest rest' : List VarDecl}
    (justifies : Justifies table (Expr.walkOption decl.value)
      (Expr.partsOption table decl'.value))
    (others : Justifies table (VarDecl.walkList rest) (VarDecl.partsList table rest')) :
    Justifies table (VarDecl.walkList (decl :: rest))
      (VarDecl.partsList table (decl' :: rest')) := by
  obtain ⟨_, _, _, value, _⟩ := decl
  obtain ⟨_, _, _, value', _⟩ := decl'
  exact (justifies.append others).within fun e entered => by
    rcases List.mem_append.mp entered with entered | entered
    · simp [VarDecl.walkList, entered]
    · simp [VarDecl.walkList, entered]

theorem declareVar_value (ctx : Context) (decl : VarDecl) (type : Ty) (init : Option StmtId)
    (result : Except Diagnostic Unit) : (declareVar ctx decl type init result).EnsuresNode table
      (fun decl' => decl'.value = decl.value) fun _ _ => True :=
  .given (Q := fun _ => True) (.imp (.trivial _) fun _ _ _ _ => True.intro) rfl fun _ _ =>
    .pure rfl fun _ _ => True.intro

/-! ## Trees -/

mutual

theorem infer_sound (ctx : Context) : ∀ (e : Expr) (hint : Ty), (infer ctx e hint).Infers table e
  | ⟨position, form, type⟩, hint => by
    rw [infer]
    refine .bind (inferForm_sound ctx position form hint) fun checked ⟨inside, passing⟩ => ?_
    have justifies : Justifies table (Expr.walk ⟨position, form, type⟩) (checked.1.parts table) :=
      inside.within fun e entered => by simp [Expr.walk, entered]
    obtain ⟨form', result⟩ := checked
    cases result with
    | ok found =>
      have holds : Found table ⟨position, form', found⟩ found := ⟨rfl, passing found rfl⟩
      exact .ok (justifies.cons holds.justified) holds
    | error err =>
      refine .error fun untyped => ?_
      have unknown : type = .unknown := untyped ⟨position, form, type⟩ (by simp [Expr.walk])
      exact justifies.cons (Or.inr (Or.inl unknown)) untyped

theorem inferForm_sound (ctx : Context) (position : Position) : ∀ (form : ExprForm) (hint : Ty),
    (inferForm ctx position form hint).EnsuresNode table
      (fun form' => Justifies table (form.walk position) (form'.parts table))
      (FoundForm table position)
  | .literal leaf, hint => .ok .nil (Or.inr rfl)
  | .blank, hint => .ok .nil (Or.inl rfl)
  | .compound spec shape elements, hint => by
    rw [inferForm]
    have raw : Justifies table (ExprForm.walk position (.compound spec shape elements))
        (ExprForm.parts table (.compound spec shape elements)) := .form position _
    refine .given (compoundType_denotes _ _ _) raw fun type ⟨known, denoted⟩ => ?_
    split
    case isTrue empty =>
      exact .ok raw (Or.inr ⟨known, denoted, by rw [if_pos empty]⟩)
    case isFalse full =>
      refine .given (layoutOf_laysOut _ _ _) raw fun layout ⟨root, found, struct, laysOut⟩ => ?_
      have valued : TypeSpec.hasValueKeys spec = true → layout.keyType?.isSome = true := by
        intro written
        by_contra absent
        exact hasValueKeys_root written denoted found (struct (by simpa using absent))
      have inside := (checkElements_sound ctx (TypeSpec.hasValueKeys spec) elements layout).imp
        (fun elements' holds => (holds.2 valued).within fun _ entered =>
          List.mem_append_right (TypeSpec.walkOption spec) entered)
        fun elements' _ holds fits => And.intro holds.1 fits
      refine .yields (inside.mapResult fun elements' _ _ ⟨keys, fits⟩ => ⟨known, denoted, ?_⟩)
      have length : elements'.length = elements.length := by
        simpa using congrArg List.length keys
      rw [if_neg (by rwa [List.isEmpty_iff_length_eq_zero, length,
        ← List.isEmpty_iff_length_eq_zero])]
      exact ⟨root, found, laysOut elements' keys fits⟩
  | .binary op left right, hint => by
    rw [inferForm]
    split
    case isTrue logical =>
      refine .yields ((expecting_bools (infer_sound ctx left) (infer_sound ctx right)).mapResult
        fun x _ _ both => ?_)
      simpa [ExprForm.Yields, logical] using both
    case isFalse arithmetic =>
      refine .yields ((expecting_operands (infer_sound ctx left) (infer_sound ctx right)).conclude
        fun x operand _ ⟨typed, typed'⟩ => ?_)
      refine (binaryType_arithmetic op operand position).imp fun result passing found passed => ?_
      simp only [ExprForm.Yields, if_neg arithmetic]
      exact ⟨operand, typed, typed', passing found passed⟩
  | .unary op operand, hint => by
    cases op with
    | plus | minus =>
      refine .yields ((infer_sound ctx operand hint).conclude fun x type _ found => ?_)
      refine (signType_arithmetic _ type position).imp fun result passing type' passed => ?_
      obtain ⟨rfl, arithmetic⟩ := passing type' passed
      exact ⟨found.1, arithmetic⟩
    | not =>
      refine .yields ((infer_sound ctx operand _).agreeing.imp (fun _ justifies => justifies)
        fun x type _ met => ?_)
      exact ⟨Ty.eq_bool_of_refinedBy met.1, met.bool⟩
    | addressOf =>
      refine .yields ((infer_sound ctx operand _).mapResult fun x type _ found => ?_)
      exact ⟨type, rfl, Or.inr found.1⟩
    | deref =>
      refine .yields ((infer_sound ctx operand _).conclude fun x type _ found => ?_)
      obtain ⟨rfl, _⟩ := found
      exact derefType_pointer x.type position
  | .index left index, hint => by
    rw [inferForm]
    refine .yields (.andThen (concluding_indexed (infer_sound ctx left) position)
      (Justifies.expr index) (fun x found _ indexed => ?_) fun _ _ => .append)
    refine (infer_sound ctx index _).agreeing.mapResult fun y _ _ met => ?_
    exact ⟨found.1, indexed, met.ofType⟩
  | .selector left field, hint => by
    rw [inferForm]
    refine .yields ((infer_sound ctx left _).conclude fun x type _ found => ?_)
    obtain ⟨rfl, _⟩ := found
    exact selectorType_member x.type field position
  | .call callee args, hint => by
    rw [inferForm]
    have raw : Justifies table (ExprForm.walk position (.call callee args))
        (ExprForm.parts table (.call callee args)) := .form position _
    refine .given (conversion?_converts callee) raw fun target converts => ?_
    cases target with
    | some target =>
      obtain ⟨names, converts⟩ := converts target rfl
      have converted : ∀ args', ExprForm.parts table (.call target.1 args') =
          Expr.partsList table args' := by simp [ExprForm.parts, names]
      have justifiesArgs : Justifies table (ExprForm.walk position (.call callee args))
          (ExprForm.parts table (.call target.1 args)) := by
        rw [converted, ExprForm.walk]
        exact (Justifies.exprs args).within fun e entered => List.mem_append_right _ entered
      match args with
      | [arg] =>
        refine .yields (((infer_sound ctx arg target.2).imp (fun arg' justifies => ?_)
          fun _ _ _ found => found).mapResult fun arg' type _ found => ?_)
        · rw [converted]
          simpa [Expr.partsList] using justifies.within fun e entered => by
            simp [ExprForm.walk, Expr.walkList, entered]
        · simp only [ExprForm.Yields, names, if_true]
          exact ⟨converts, rfl⟩
      | [] => exact .error justifiesArgs
      | first :: second :: rest => exact .error justifiesArgs
    | none =>
      refine .yields (.andThen (concluding_called (infer_sound ctx callee) args.length position)
        (M := fun args' => Justifies table (Expr.walkList args) (Expr.partsList table args'))
        (.exprs args) (fun x signature _ called => ?_)
        fun x args' justifies justifiesArgs => ?_)
      · refine (expectAll_sound ctx args signature.args).mapResult fun args' _ _ met => ?_
        obtain ⟨names, root, count⟩ := called
        simp only [ExprForm.Yields, names]
        exact ⟨signature, root, rfl, met count.symm⟩
      · rw [ExprForm.parts, ExprForm.walk]
        refine .append ?_ justifiesArgs
        split
        · exact fun _ => nofun
        · exact justifies
  | .func func, hint => by
    rw [inferForm]
    refine .given (funcType_denotes func) (.form position (.func func)) fun found denoted => ?_
    refine .bind (checkBody_sound ctx func found.2 found.1) fun func' holds => ?_
    obtain ⟨justifies, params, results⟩ := holds
    refine .ok justifies (Or.inr ⟨found.2, rfl, ?_, ?_⟩)
    · rw [params]
      exact denoted.1
    · rw [results]
      exact denoted.2
  | .ident ident, hint => by
    rw [inferForm]
    exact .rebuild ((inferIdent_binds ident position).imp (fun _ _ => .nil)
      fun _ _ _ binds => Or.inr binds)
  | .type spec, hint => by
    rw [inferForm]
    exact .error (.form position (.type spec))

theorem expectAll_sound (ctx : Context) : ∀ (es : List Expr) (types : List Ty),
    (expectAll ctx es types).EnsuresNode table
      (fun es' => Justifies table (Expr.walkList es) (Expr.partsList table es'))
      fun es' _ => es.length = types.length →
        List.Forall₂ (fun e (type : Ty) => e.OfType (type.refinedBy · = true)) es' types
  | e :: es, type :: types => by
    rw [expectAll]
    refine .rebuild (.andThen (infer_sound ctx e type).agreeing (Justifies.exprs es)
      (fun x _ _ met => ?_) fun _ _ => .append)
    exact (expectAll_sound ctx es types).imp (fun _ justifies => justifies)
      fun _ _ _ others same => .cons met.ofType (others (by simpa using same))
  | [], types => .ok .nil fun same => by
    rw [List.eq_nil_of_length_eq_zero same.symm]
    exact .nil
  | e :: es, [] => .ok (.exprs _) nofun

theorem checkKey_sound (ctx : Context) (valueKeys : Bool) (layout : Layout) :
    ∀ key : Option Expr, (checkKey ctx layout key).EnsuresNode table
      (fun key' => key'.isSome = key.isSome ∧
        ((valueKeys = true → layout.keyType?.isSome = true) →
          Justifies table (Expr.walkKey valueKeys key) (Expr.partsKey table valueKeys key')))
      fun key' _ => ∀ keyType k, layout.keyType? = some keyType → key' = some k →
        k.IsKey table keyType
  | none => by
    rw [checkKey]
    exact .ok ⟨rfl, fun _ => .nil⟩ nofun
  | some key => by
    rw [checkKey]
    split
    case h_1 absent =>
      refine .ok ⟨rfl, fun valued => ?_⟩ fun keyType k present => ?_
      · have bare : valueKeys = false := by simpa [absent] using valued
        rw [bare]
        exact .typeKey key
      · cases absent.symm.trans present
    case h_2 type present =>
      have met : (expecting ctx type (infer ctx key)).Meets table key type :=
        (infer_sound ctx key type).agreeing
      have named : (expecting ctx type (infer ctx key)).EnsuresNode table
          (fun key' => key.ident?.isSome = true → key'.ident?.isSome = true) fun _ _ => True := by
        by_cases bare : key.ident?.isSome = true
        · exact (expecting_ident ctx type key bare).imp (fun _ holds _ => holds) fun _ _ _ h => h
        · exact met.imp (fun _ _ named => absurd named bare) fun _ _ _ _ => True.intro
      refine .rebuild (.mapResult ((met.also named).imp (fun key' holds => ?_)
        fun _ _ _ met => met) fun key' _ _ met keyType k present' same => ?_)
      · exact ⟨rfl, fun _ => holds.1.key holds.2⟩
      · cases same
        cases present.symm.trans present'
        exact met.isKey

theorem checkElements_sound (ctx : Context) (valueKeys : Bool) : ∀ (elements : List Element)
    (layout : Layout), (checkElements ctx elements layout).EnsuresNode table
      (fun elements' => elements'.map (·.key.isSome) = elements.map (·.key.isSome) ∧
        ((valueKeys = true → layout.keyType?.isSome = true) →
          Justifies table (Element.walkList valueKeys elements)
            (Element.partsList table valueKeys elements')))
      fun elements' _ => layout.Fits table elements'
  | [], layout => .ok ⟨rfl, fun _ => .nil⟩ layout.fits_nil
  | ⟨key, value⟩ :: rest, layout => by
    rw [checkElements]
    refine .bind (checkKey_sound ctx valueKeys layout key) fun checked holds => ?_
    obtain ⟨key', result⟩ := checked
    obtain ⟨⟨same, justifiesKey⟩, keyed⟩ := holds
    have next : (liftM (result.bind fun _ => layout.next ctx key' value.position) :
        Attempt (Ty × Layout)).run.Ensures table (Passing fun found =>
          (∀ keyType k, layout.keyType? = some keyType → key' = some k → k.IsKey table keyType) ∧
            layout.next ctx key' value.position = .ok found) := by
      refine .ofExcept fun found passed => ?_
      obtain ⟨_, checked, next⟩ := Except.bind_eq_ok passed
      exact ⟨keyed () checked, next⟩
    refine .rebuild (.given next ?_ fun found fits => .andThen (M := fun rest' =>
      rest'.map (·.key.isSome) = rest.map (·.key.isSome) ∧
        ((valueKeys = true → layout.keyType?.isSome = true) →
          Justifies table (Element.walkList valueKeys rest) (Element.partsList table valueKeys rest')))
        (infer_sound ctx value _).agreeing ⟨rfl, fun _ => .elements valueKeys rest⟩
        (fun x _ _ met => ?_) fun x rest' justifies others => ?_)
    · refine ⟨by simp [same], fun valued => ?_⟩
      exact ((justifiesKey valued).append (.expr value)).append (.elements valueKeys rest)
    · obtain ⟨keyed, next⟩ := fits
      have sound := checkElements_sound ctx valueKeys rest found.2
      rw [Layout.keyType?_next next] at sound
      exact sound.imp (fun _ holds => holds) fun _ _ _ others =>
        Layout.fits_cons next keyed met.ofType others
    · obtain ⟨keys, justifiesRest⟩ := others
      refine ⟨by simp [same, keys], fun valued => ?_⟩
      exact ((justifiesKey valued).append justifies).append (justifiesRest valued)

theorem waitingAll_sound (ctx : Context) : ∀ es : List Expr, ∀ value ∈ waitingAll ctx es,
    value.Sound table
  | [] => by
    rw [waitingAll]
    nofun
  | e :: es => by
    rw [waitingAll]
    exact List.forall_mem_cons.mpr ⟨infer_sound ctx e, waitingAll_sound ctx es⟩

theorem assignAll_sound (ctx : Context) : ∀ (targets : List Expr) (values : List Waiting),
    (∀ value ∈ values, value.Sound table) →
      (assignAll ctx targets values).EnsuresNode table
        (fun x => Justifies table (Expr.walkList targets ++ Expr.walkList (values.map (·.expr)))
          (Expr.partsList table x.1 ++ Expr.partsList table x.2)) fun _ _ => True
  | target :: targets, value :: values, sound => by
    rw [assignAll]
    obtain ⟨soundValue, soundRest⟩ := List.forall_mem_cons.mp sound
    refine .rebuild (.andThen (expecting_operands (infer_sound ctx target) soundValue)
      ((Justifies.exprs targets).append (.exprs _))
      (fun _ _ _ _ => assignAll_sound ctx targets values soundRest) fun x y first others => ?_)
    refine (first.append others).rearrange (fun e => ?_) fun e => ?_
    · simp only [Expr.walkList, List.map_cons, List.mem_append]
      tauto
    · simp only [Expr.partsList, List.mem_append]
      tauto
  | [], values, _ => .ok (.append .nil (.exprs _)) True.intro
  | target :: targets, [], _ => .ok (.append (.exprs _) .nil) True.intro

theorem checkBody_sound (ctx : Context) : ∀ (func : Func) (signature : Signature)
    (receiver : Option Ty), (checkBody ctx func signature receiver).Ensures table fun func' =>
      Justifies table func.walk (func'.parts table) ∧
        func'.params.map (·.spec) = func.params.map (·.spec) ∧
          func'.results.map (·.spec) = func.results.map (·.spec)
  | ⟨name, receiver, params, results, body⟩, signature, receiverType => by
    rw [checkBody]
    refine .withScope (.bind (.trivial _) fun receiver' _ => ?_)
    refine .bind (declareParams_specs ctx params _) fun params' sameParams => ?_
    refine .bind (declareParams_specs ctx results _) fun results' sameResults => ?_
    refine .bind (checkStatements_sound _ body) fun body' justifies => ?_
    refine .pure ⟨justifies.within fun e entered => ?_, sameParams, sameResults⟩
    obtain ⟨statements, labels⟩ := body
    simp [Func.walk, entered]

theorem checkMethods_sound (ctx : Context) (this : Ty) : ∀ (methods : List Func)
    (signatures : List Signature), (checkMethods ctx this methods signatures).EnsuresNode table
      (fun methods' => Justifies table (Func.walkList methods) (Func.partsList table methods'))
      fun _ _ => True
  | method :: methods, signature :: signatures => by
    rw [checkMethods]
    refine .given (Q := fun _ => True) (.imp (.trivial _) fun _ _ _ _ => True.intro)
      (.funcs _) fun receiver _ => ?_
    refine .bind (checkBody_sound ctx method signature _) fun method' holds => ?_
    refine .bind (checkMethods_sound ctx this methods signatures) fun checked others => ?_
    exact .pure (holds.1.append others.1) fun _ _ => True.intro
  | [], _ => .ok .nil True.intro
  | _ :: _, [] => .ok (.funcs _) True.intro

theorem checkStatements_sound (ctx : Context) : ∀ block : Block,
    (checkStatements ctx block).Ensures table fun block' =>
      Justifies table (Stmt.walkList block.statements) (block'.parts table)
  | ⟨statements, labels⟩ => by
    rw [checkStatements]
    refine .bind (.trivial _) fun (labels, annotated) _ => ?_
    exact .bind (checkEach_sound _ statements annotated) fun statements' justifies =>
      .pure justifies

theorem checkEach_sound (ctx : Context) : ∀ (statements : List Stmt)
    (labels : List (Option StmtLabel)), (checkEach ctx statements labels).Ensures table
      fun statements' =>
        Justifies table (Stmt.walkList statements) (Stmt.partsList table statements')
  | s :: rest, label :: labels => by
    rw [checkEach]
    refine .bind (checkStmt_sound ctx s).recorded fun s' justifies => ?_
    refine .bind (checkEach_sound ctx rest labels) fun rest' others => ?_
    exact .pure ((justifies.relabel label).append others)
  | [], _ => .pure .nil
  | s :: rest, [] => .pure (.unchanged fun _ => Stmt.enter_mem_walkList)

theorem checkStmt_sound (ctx : Context) : ∀ s : Stmt, (checkStmt ctx s).EnsuresNode table
    (fun s' => Justifies table s.walk (s'.parts table)) fun _ _ => True
  | ⟨id, position, label, form⟩ => by
    rw [checkStmt]
    refine .bind (checkForm_sound ctx id position _ form) fun checked holds => ?_
    refine .pure (holds.1.within fun e entered => ?_) fun _ _ => True.intro
    simp [Stmt.walk, entered]

theorem checkForm_sound (ctx : Context) (id : StmtId) (position : Position)
    (label : Option String) : ∀ form : StmtForm,
      (checkForm ctx id position label form).EnsuresNode table
        (fun form' => Justifies table form.walk (form'.parts table)) fun _ _ => True
  | .assign lhs rhs op => by
    rw [checkForm]
    have raw : Justifies table (StmtForm.walk (.assign lhs rhs op))
        (StmtForm.parts table (.assign lhs rhs op)) := .stmtForm _
    split
    case h_1 => exact .error raw
    case h_2 =>
    split
    case h_1 binary _ =>
      match lhs, rhs with
      | [target], [value] =>
        refine .rebuild ((EnsuresNode.conclude (expecting_operands (infer_sound ctx target)
          (infer_sound ctx value)) (V := fun _ _ => True) fun _ _ _ _ =>
            (Ensures.trivial _).imp fun _ _ _ _ => True.intro).imp (fun x justifies => ?_)
              fun _ _ _ _ => True.intro)
        exact .assign (by simpa [Expr.walkList, Expr.partsList] using justifies)
      | [], rhs => exact .error raw
      | target :: second :: lhs, rhs => exact .error raw
      | [target], [] => exact .error raw
      | [target], value :: second :: rhs => exact .error raw
    case h_2 =>
    dsimp only
    split
    case isTrue =>
      have pairs := assignAll_sound ctx lhs (waitingAll ctx rhs) (waitingAll_sound ctx rhs)
      rw [waitingAll_exprs] at pairs
      exact .rebuild (pairs.imp (fun _ => .assign) fun _ _ _ h => h)
    case isFalse =>
    match rhs with
    | [value] =>
      refine .rebuild (.andThen (infer_sound ctx value _)
        (M := fun lhs' => Justifies table (Expr.walkList lhs) (Expr.partsList table lhs'))
        (.exprs lhs) (fun _ type _ _ => ?_) fun x lhs' justifies others => ?_)
      · cases type with
        | tuple members =>
          dsimp only
          split
          · exact (expectAll_sound ctx lhs members).imp (fun _ justifies => justifies)
              fun _ _ _ _ => True.intro
          · exact .error (.exprs lhs)
        | _ => exact .error (.exprs lhs)
      · exact .assign (by simpa [Expr.walkList, Expr.partsList] using others.append justifies)
    | [] => exact .error raw
    | value :: second :: rhs => exact .error raw
  | .struct ⟨name, fields, methods, symbol⟩ => by
    rw [checkForm]
    refine .rebuild ((EnsuresNode.declareType (.funcs methods) fun struct signatures =>
      checkMethods_sound ctx (.custom name struct) methods signatures).imp (fun x justifies => ?_)
        fun _ _ _ _ => True.intro)
    exact justifies.within fun e entered => by simp [StmtForm.walk, entered]
  | .typeAlias decl => by
    rw [checkForm]
    exact .rebuild ((EnsuresNode.trivial _).imp (fun _ _ => .nil) fun _ _ _ _ => True.intro)
  | .var vars => by
    rw [checkForm]
    exact .rebuild (checkVars_sound ctx id vars)
  | .pass => .ok .nil True.intro
  | .cond branches => by
    rw [checkForm]
    exact .bind (checkBranches_sound ctx id branches) fun _ justifies => .ok justifies True.intro
  | .loop ⟨header, condition, step, body⟩ => by
    rw [checkForm]
    refine Ensures.withScope (.bind (checkHeader_sound ctx id header) fun header' first => ?_)
    refine .bind (checkCondition_sound ctx condition) fun condition' second => ?_
    refine .bind (checkStep_sound ctx step) fun step' third => ?_
    refine .bind (.withScope (checkStatements_sound _ body)) fun body' fourth => ?_
    have justifies := ((first.append second).append third).append fourth.block
    exact .pure ⟨justifies.within fun e entered => by simpa [StmtForm.walk] using entered,
      fun _ _ => True.intro⟩
  | .expr e => by
    rw [checkForm]
    exact .rebuild ((infer_sound ctx e _).mapResult fun _ _ _ _ => True.intro)
  | .jump jump => by
    rw [checkForm]
    exact .pure .nil fun _ _ => True.intro
  | .ret values => by
    rw [checkForm]
    exact .rebuild (.given (Q := fun _ => True) (.ofExcept fun _ _ => True.intro) (.exprs values)
      fun types _ => (expectAll_sound ctx values types).imp (fun _ justifies => justifies)
        fun _ _ _ _ => True.intro)

theorem checkVars_sound (ctx : Context) (id : StmtId) : ∀ vars : VarForm,
    (checkVars ctx id vars).EnsuresNode table
      (fun vars' => Justifies table vars.walk (vars'.parts table)) fun _ _ => True
  | ⟨vars, isFunc⟩ => by
    rw [checkVars]
    refine .bind (.trivial _) fun s _ => ?_
    refine .bind (checkVarList_sound ctx id isFunc vars) fun checked holds => ?_
    refine .bind (.trivial _) fun _ _ => ?_
    refine .pure (holds.1.within fun e entered => ?_) fun _ _ => True.intro
    cases isFunc <;> simp [VarForm.walk, entered]

theorem checkVarList_sound (ctx : Context) (id : StmtId) (isFunc : Bool) :
    ∀ vars : List VarDecl, (checkVarList ctx id isFunc vars).EnsuresNode table
      (fun vars' => Justifies table (VarDecl.walkList vars) (VarDecl.partsList table vars'))
      fun _ _ => True
  | [] => .ok .nil True.intro
  | decl :: rest => by
    rw [checkVarList]
    have first : (if isFunc then checkFuncVar ctx id decl else
        checkPlainVar ctx id decl).EnsuresNode table (fun decl' => Justifies table
          (Expr.walkOption decl.value) (Expr.partsOption table decl'.value)) fun _ _ => True := by
      split
      · exact checkFuncVar_sound ctx id decl
      · exact checkPlainVar_sound ctx id decl
    exact .rebuild (.alongside first.noted (checkVarList_sound ctx id isFunc rest)
      fun _ _ => .varDecl)

theorem checkPlainVar_sound (ctx : Context) (id : StmtId) : ∀ decl : VarDecl,
    (checkPlainVar ctx id decl).EnsuresNode table
      (fun decl' => Justifies table (Expr.walkOption decl.value)
        (Expr.partsOption table decl'.value)) fun _ _ => True
  | ⟨name, position, spec, value, _⟩ => by
    rw [checkPlainVar]
    refine .bind (.trivial _) fun result _ => ?_
    cases result with
    | error err =>
      refine (declareVar_value _ _ _ _ _).imp (fun decl' same => ?_) fun _ _ _ h => h
      rw [same]
      exact .unchanged fun _ => Expr.enter_mem_walkOption
    | ok declared =>
      refine .bind (checkInit_sound ctx name position declared value) fun checked holds => ?_
      obtain ⟨value', found⟩ := checked
      cases found with
      | ok type =>
        refine (declareVar_value _ _ _ _ _).imp (fun decl' same => ?_) fun _ _ _ h => h
        rw [same]
        exact holds.1
      | error err =>
        refine (declareVar_value _ _ _ _ _).imp (fun decl' same => ?_) fun _ _ _ h => h
        rw [same]
        exact holds.1

theorem checkInit_sound (ctx : Context) (name : String) (position : Position) (declared : Ty) :
    ∀ value : Option Expr, (checkInit ctx name position declared value).EnsuresNode table
      (fun value' => Justifies table (Expr.walkOption value) (Expr.partsOption table value'))
      fun _ _ => True
  | none => .pure .nil fun _ _ => True.intro
  | some e => by
    rw [checkInit]
    exact .rebuild ((infer_sound ctx e _).agreeing.imp (fun _ justifies => justifies)
      fun _ _ _ _ => True.intro)

theorem checkFuncVar_sound (ctx : Context) (id : StmtId) : ∀ decl : VarDecl,
    (checkFuncVar ctx id decl).EnsuresNode table
      (fun decl' => Justifies table (Expr.walkOption decl.value)
        (Expr.partsOption table decl'.value)) fun _ _ => True
  | ⟨name, position, spec, none, symbol⟩ => .error .nil
  | ⟨name, position, spec, some ⟨valuePosition, form, type⟩, symbol⟩ => by
    cases form with
    | func func =>
      rw [checkFuncVar]
      refine .bind (funcType_denotes func) fun result denoted => ?_
      cases result with
      | error err =>
        refine (declareVar_value _ _ _ _ _).imp (fun decl' same => ?_) fun _ _ _ h => h
        rw [same]
        exact .expr _
      | ok found =>
        refine .bind (declareVar_value _ _ _ _ _) fun checked holds => ?_
        obtain ⟨decl', result⟩ := checked
        cases result with
        | error err =>
          refine .error ?_
          rw [holds.1]
          exact .expr _
        | ok _ =>
          refine .bind (checkBody_sound ctx func found.2 found.1) fun func' inside => ?_
          obtain ⟨justifies, params, results⟩ := inside
          have denotes := denoted found rfl
          rw [← params, ← results] at denotes
          refine .ok (.cons (Or.inr (Or.inr ?_)) (justifies.within fun e entered => ?_)) True.intro
          · exact ⟨_, ⟨found.2, rfl, denotes⟩, Ty.refinedBy_refl _⟩
          · simp [Expr.walkOption, Expr.walk, ExprForm.walk, entered]
    | _ => exact .error (.expr _)

theorem checkHeader_sound (ctx : Context) (id : StmtId) : ∀ header : Option VarForm,
    (checkHeader ctx id header).Ensures table fun header' =>
      Justifies table (VarForm.walkOption header) (VarForm.partsOption table header')
  | none => .pure .nil
  | some vars => .bind (checkVars_sound ctx id vars).recorded fun _ justifies => .pure justifies

theorem checkCondition_sound (ctx : Context) : ∀ condition : Option Expr,
    (checkCondition ctx condition).Ensures table fun condition' =>
      Justifies table (Expr.walkOption condition) (Expr.partsOption table condition')
  | none => .pure .nil
  | some e => by
    rw [checkCondition]
    exact .bind (infer_sound ctx e _).agreeing.recorded fun _ justifies => .pure justifies

theorem checkStep_sound (ctx : Context) : ∀ step : Option Stmt,
    (checkStep ctx step).Ensures table fun step' =>
      Justifies table (Stmt.walkOption step) (Stmt.partsOption table step')
  | none => .pure .nil
  | some s => .bind (checkStmt_sound ctx s).recorded fun _ justifies => .pure justifies

theorem checkBranches_sound (ctx : Context) (id : StmtId) : ∀ branches : List Branch,
    (checkBranches ctx id branches).Ensures table fun branches' =>
      Justifies table (Branch.walkList branches) (Branch.partsList table branches')
  | [] => by
    rw [checkBranches]
    exact .pure .nil
  | ⟨header, condition, body⟩ :: rest => by
    rw [checkBranches]
    have first : (withScope do
        let header ← checkHeader ctx id header
        let condition ← checkCondition ctx condition
        let body ← withScope (checkStatements ctx body)
        return (⟨header, condition, body⟩ : Branch)).Ensures table fun branch =>
          Justifies table (VarForm.walkOption header ++ Expr.walkOption condition ++ body.walk)
            (VarForm.partsOption table branch.header ++ Expr.partsOption table branch.condition ++
              branch.body.parts table) := by
      refine .withScope (.bind (checkHeader_sound ctx id header) fun header' first => ?_)
      refine .bind (checkCondition_sound ctx condition) fun condition' second => ?_
      refine .bind (.withScope (checkStatements_sound _ body)) fun body' third => ?_
      exact .pure ((first.append second).append third.block)
    refine .bind first fun branch justifies => ?_
    obtain ⟨header', condition', body'⟩ := branch
    refine .bind (checkBranches_sound ctx id rest) fun rest' others => ?_
    refine .pure ((justifies.append others).within fun e entered => ?_)
    simp only [Branch.walkList, List.cons_append, List.mem_cons, List.mem_append] at entered ⊢
    exact Or.inr (entered.imp (fun entered => entered) Or.inr)

end

end PackageCheck.Typing
