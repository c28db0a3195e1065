import PackageCheck.Proofs.Typing.Definitions
import PackageCheck.Proofs.Typing.Effect
import PackageCheck.Proofs.Typing.Elements
import PackageCheck.Proofs.Typing.Soundness

/-! # Types declared in a tree

A quiet run through a tree declares the types that are declared in the tree, each with its
definition, and no others. -/

namespace PackageCheck.Typing

open Check

open SymbolTable (Advances)

/-- The effect of declaring types. -/
def definitions : Effect (List (String × Bool)) where
  Invariant s := s.symbols.Nominal
  Leads decls s s' := Advances decls s.symbols s'.symbols
  none := []
  followedBy := (· ++ ·)
  refl := .refl
  trans := .trans
  entered nominal := nominal
  left nominal advances := ⟨nominal, advances⟩

/-- Whether the quiet runs of a check declare the types of a walk. -/
abbrev Check.Defines (check : Check α) (walk : List Event) : Prop :=
  check.Has definitions (typeDecls walk) fun _ => True

/-- Whether the quiet runs of the check of a node declare the types of a walk, and come to a result
    with a property. -/
abbrev Check.DefinesNode (check : Check (Checked ν τ)) (walk : List Event) (V : τ → Prop) : Prop :=
  check.HasNode definitions (typeDecls walk) V

/-! ## Steps -/

section Steps

variable {V : τ → Prop} {walk : List Event}

/-- A scope opens and closes without a change to the symbols. -/
theorem withScope_defines {check : Check α} {decls : List (String × Bool)} {U : α → Prop}
    (defines : check.Has definitions decls U) : (withScope check).Has definitions decls U := by
  intro s s' a nominal quiet
  obtain ⟨s₁, inside, rfl⟩ := quiet.withScope_inv
  exact defines s.pushScope s₁ a nominal inside

/-- An attempt that leaves the symbols alone declares nothing. -/
theorem Check.DefinesNode.given {Q : α → Prop} {first : Attempt α} {node : ν}
    {next : α → Check (Checked ν τ)}
    (head : ∀ s s' a, s.symbols.Nominal → Succeeds first s a s' → s'.symbols = s.symbols ∧ Q a)
    (tail : ∀ a, Q a → (next a).DefinesNode walk V) :
    (Typing.given first node next).DefinesNode walk V := by
  intro s s' node' b nominal quiet
  obtain ⟨a, s₁, succeeds, rest⟩ := Quiet.given_inv quiet
  obtain ⟨same, value⟩ := head s s₁ a nominal succeeds
  have between : s₁.symbols.Nominal := same ▸ nominal
  obtain ⟨behind, advances, found⟩ := tail a value s₁ s' node' b between rest
  have advances : Advances (typeDecls walk) s₁.symbols s'.symbols := advances
  rw [same] at advances
  exact ⟨behind, advances, found⟩

theorem Check.DefinesNode.agreeing {what : String} {site : Expr → Site} {expected : Ty}
    {check : Check (Checked Expr Ty)} (nominal : expected.nominal = true)
    (defines : check.DefinesNode walk (·.nominal = true)) :
    (agreeing what site expected check).DefinesNode walk (·.nominal = true) :=
  HasNode.agreeing defines fun _ _ found merged => Ty.nominal_merge nominal found merged

theorem Check.DefinesNode.expecting {ctx : Context} {expected : Ty}
    {infer : Ty → Check (Checked Expr Ty)} (nominal : expected.nominal = true)
    (defines : (infer expected).DefinesNode walk (·.nominal = true)) :
    (expecting ctx expected infer).DefinesNode walk (·.nominal = true) :=
  defines.agreeing nominal

/-- A variable adds no type. -/
theorem insertNamed_defines {s : State} {v : Variable} (nominal : s.symbols.Nominal)
    (named : v.type.nominal = true) : (s.insertNamed (.var v)).symbols.Nominal ∧
      Advances [] s.symbols (s.insertNamed (.var v)).symbols := by
  have advances : Advances [] s.symbols (s.symbols.insert (.var v)) := .insert nominal named rfl
  exact ⟨advances.nominal, advances⟩

theorem declareVar_defines {ctx : Context} {decl : VarDecl} {type : Ty} {init : Option StmtId}
    {result : Except Diagnostic Unit} (nominal : type.nominal = true) :
    (declareVar ctx decl type init result).DefinesNode [] fun _ => True := by
  intro s s' decl' a named quiet
  obtain ⟨-, -, -, rfl⟩ := Quiet.declareVar_inv quiet
  obtain ⟨behind, advances⟩ := insertNamed_defines
    (v := ⟨decl.name, type, init, some (ctx.site decl.position)⟩) named nominal
  exact ⟨behind, advances, True.intro⟩

theorem declareParam_defines {ctx : Context} {param : Param} {type : Ty}
    (nominal : type.nominal = true) :
    (declareParam ctx param type).DefinesNode [] fun _ => True := by
  intro s s' param' a named quiet
  rcases Quiet.declareParam_inv quiet with ⟨-, rfl⟩ | ⟨name, -, -, rfl⟩
  · exact ⟨named, .refl named, True.intro⟩
  · obtain ⟨behind, advances⟩ := insertNamed_defines
      (v := ⟨name, type, none, some (ctx.site param.position)⟩) named nominal
    exact ⟨behind, advances, True.intro⟩

theorem declareParams_defines {ctx : Context} : ∀ {params : List Param} {types : List Ty},
    Ty.allNominal types = true → (declareParams ctx params types).Defines []
  | param :: params, type :: types, nominal => by
    simp only [Ty.allNominal, Bool.and_eq_true] at nominal
    rw [declareParams]
    refine Has.bind (declareParam_defines nominal.1).recorded fun _ _ => ?_
    exact Has.bind (declareParams_defines nominal.2) fun _ _ => .pure True.intro
  | [], _, _ => .pure True.intro
  | _ :: _, [], _ => .pure True.intro

theorem declareReceiver_defines {ctx : Context} {receiver : Option Param} {type : Option Ty}
    (nominal : ∀ t, type = some t → t.nominal = true) :
    (declareReceiver ctx receiver type).Defines [] := by
  unfold declareReceiver
  split
  · exact Has.bind (declareParam_defines (nominal _ rfl)).recorded fun _ _ => .pure True.intro
  · exact .pure True.intro

theorem declareLabels_defines {ctx : Context} {statements : List Stmt} :
    (declareLabels ctx .empty statements).Has definitions [] fun found =>
      found.2.length = statements.length := by
  intro s s' found nominal quiet
  obtain ⟨length, labelled⟩ := Quiet.declareLabels_inv quiet
  have advances : Advances [] s.symbols s'.symbols := by
    constructor
    · exact quiet.grows.symbols.toWithin
    · intro id symbol held
      rcases labelled.symbols id symbol held with before | ⟨label, rfl⟩
      · exact nominal id symbol before
      · rfl
    · intro id decl held
      rcases labelled.symbols id _ held with before | ⟨label, same⟩
      · exact Or.inl before
      · cases same
    · exact fun _ member => nomatch member
  exact ⟨advances.nominal, advances, length⟩

/-- A declared type gets its definition, and what is left to check behind it sees it. -/
theorem declareType_defines {ctx : Context} {name : String} {position : Position} {node : ν}
    {define : Attempt (Ty × α)} {next : SymbolId → α → Check (Checked ν Unit)} {filled : Bool}
    {walk : List Event} {Q : α → Prop}
    (definition : ∀ s s' found, Succeeds define s found s' → s'.symbols = s.symbols ∧
      found.1.isDefinition = true ∧ found.1.complete = filled ∧ Q found.2)
    (rest : ∀ id a, Q a → (next id a).DefinesNode walk fun _ => True) :
    (declareType ctx name position node define next).HasNode definitions
      ((name, filled) :: typeDecls walk) fun _ => True := by
  intro s s' declared b nominal quiet
  obtain ⟨-, -, target, a, s₁, defined, inside⟩ := Quiet.declareType_inv quiet
  obtain ⟨same, isDefinition, rfl, value⟩ := definition _ _ _ defined
  have first : Advances [(name, target.complete)] s.symbols
      (s₁.setAliased s.symbols.nextId target).symbols := by
    rw [State.setAliased, same]
    exact Advances.define nominal isDefinition
  obtain ⟨behind, advances, -⟩ := rest _ a value _ _ _ _ first.nominal inside
  exact ⟨behind, first.trans advances, True.intro⟩

end Steps

/-! ## Layouts -/

/-- Whether the types that a layout asks for are nominal. -/
def Layout.nominal : Layout → Bool
  | .array _ of _ => of.nominal
  | .slice of => of.nominal
  | .map key value => key.nominal && value.nominal
  | .positional fields => fields.all (·.type.nominal)
  | .keyed struct => struct.fields.all (·.type.nominal)

section Layouts

variable {ctx : Context} {layout layout' : Layout} {type : Ty}

theorem structLayout_nominal {struct : StructTy} {elements : List Element} {position : Position}
    (nominal : struct.fields.all (·.type.nominal) = true)
    (laidOut : structLayout ctx struct elements position = .ok layout) : layout.nominal = true := by
  rcases structLayout_inv laidOut with ⟨rfl, -⟩ | rfl
  · exact nominal
  · exact nominal

theorem layoutOf_nominal {elements : List Element} {position : Position} {s s' : State}
    (table : s.symbols.Nominal) (nominal : type.nominal = true)
    (quiet : Succeeds (layoutOf ctx type elements position) s layout s') :
    s' = s ∧ layout.nominal = true := by
  obtain ⟨⟨root, found, cases⟩, same⟩ := Quiet.layoutOf_inv quiet
  have definition := table.underlying nominal found
  refine ⟨same, ?_⟩
  rcases cases with ⟨size, of, rfl, rfl⟩ | ⟨of, rfl, rfl⟩ | ⟨key, value, rfl, rfl⟩ |
    ⟨struct, rfl, laidOut⟩
  · exact definition
  · exact definition
  · exact definition
  · obtain ⟨name, fields, methods⟩ := struct
    simp only [Ty.isDefinition, Bool.and_eq_true] at definition
    exact structLayout_nominal definition.1 laidOut

theorem Layout.keyType?_nominal (nominal : layout.nominal = true)
    (asks : layout.keyType? = some type) : type.nominal = true := by
  cases layout with
  | map key value =>
    simp only [Layout.nominal, Bool.and_eq_true] at nominal
    cases asks
    exact nominal.1
  | array size of index =>
    cases asks
    rfl
  | slice of =>
    cases asks
    rfl
  | positional fields => cases asks
  | keyed struct => cases asks

theorem Layout.next_nominal {key : Option Expr} {position : Position}
    (nominal : layout.nominal = true) (next : layout.next ctx key position = .ok (type, layout')) :
    type.nominal = true ∧ layout'.nominal = true := by
  rcases Layout.next_inv next with ⟨size, index, index', rfl, rfl⟩ | ⟨rfl, rfl⟩ |
    ⟨keyType, rfl, rfl⟩ | ⟨field, rest, rfl, rfl, rfl⟩ | ⟨struct, ident, rfl, -, field, rfl⟩
  · exact ⟨nominal, nominal⟩
  · exact ⟨nominal, nominal⟩
  · simp only [Layout.nominal, Bool.and_eq_true] at nominal
    exact ⟨nominal.2, by simp [Layout.nominal, nominal]⟩
  · simpa [Layout.nominal] using nominal
  · obtain ⟨held, listed, rfl⟩ := Option.map_eq_some_iff.mp field
    exact ⟨List.all_eq_true.mp nominal held (List.mem_of_find?_eq_some listed), nominal⟩

end Layouts

/-! ## Trees -/

/-- Whether the results of the function around a statement have nominal types. -/
def Context.Nominal (ctx : Context) : Prop :=
  ∀ frame, ctx.frame = some frame → Ty.allNominal frame.types = true

/-- Whether what waits for a type declares the types of its expression. -/
def Waiting.Defines (value : Waiting) : Prop :=
  ∀ hint : Ty, hint.nominal = true →
    (value.infer hint).DefinesNode value.expr.walk (·.nominal = true)

section Rules

variable {ctx : Context} {position : Position} {s s' : State}

/-- What is converted to is named, so nothing is declared in the callee of a conversion. -/
theorem conversion?_nominal {callee : Expr} {found : Option (Expr × Ty)}
    (quiet : Succeeds (conversion? ctx callee) s found s') : s'.symbols = s.symbols ∧
      ∀ converted, found = some converted →
        converted.2.nominal = true ∧ typeDecls callee.walk = [] := by
  obtain ⟨calleePosition, form, type⟩ := callee
  rw [Expr.typeDecls_walk]
  rcases Quiet.conversion?_inv quiet with ⟨spec, target, rfl, resolved, rfl⟩ |
    ⟨ident, id, rfl, -, rfl, rfl⟩ | ⟨rfl, rfl⟩
  · obtain ⟨same, nominal, -⟩ := resolve_filled resolved
    refine ⟨same, fun converted found => ?_⟩
    cases found
    exact ⟨nominal, TypeSpec.typeDecls_walk spec⟩
  · refine ⟨rfl, fun converted found => ?_⟩
    obtain ⟨target, declared, rfl⟩ := Option.map_eq_some_iff.mp found
    exact ⟨(SymbolTable.declaredType?_named declared).1, rfl⟩
  · exact ⟨rfl, nofun⟩

theorem callSignature_nominal {callee : Ty} {count : Nat} {signature : Signature}
    (table : s.symbols.Nominal) (nominal : callee.nominal = true)
    (quiet : Succeeds (callSignature ctx callee count position) s signature s') :
    s' = s ∧ count = signature.args.length ∧ Ty.allNominal signature.args = true ∧
      signature.resultType.nominal = true := by
  obtain ⟨found, length, same⟩ := Quiet.callSignature_inv quiet
  have definition : signature.nominal = true := table.underlying nominal found
  obtain ⟨args, results⟩ := signature
  simp only [Signature.nominal, Bool.and_eq_true] at definition
  refine ⟨same, length.symm, definition.1, ?_⟩
  unfold Signature.resultType
  split
  case h_1 result one =>
    obtain rfl : results = [result] := one
    simpa [Ty.allNominal] using definition.2
  case h_2 => exact definition.2

theorem returnTypes_nominal {count : Nat} {types : List Ty} (framed : ctx.Nominal)
    (returned : returnTypes ctx count position = .ok types) : Ty.allNominal types = true := by
  unfold returnTypes at returned
  split at returned
  case h_1 => cases returned
  case h_2 frame inFunction =>
    have nominal := framed frame inFunction
    split at returned
    case isTrue => cases returned; rfl
    case isFalse =>
      split at returned
      case isTrue =>
        cases returned
        simpa [Ty.allNominal, Ty.nominal] using nominal
      case isFalse =>
        split at returned <;> cases returned
        exact nominal

end Rules

mutual

theorem infer_defines (ctx : Context) (framed : ctx.Nominal) : ∀ (e : Expr) (hint : Ty),
    hint.nominal = true → (infer ctx e hint).DefinesNode e.walk (·.nominal = true)
  | ⟨position, form, type⟩, hint, nominal => by
    intro s s' e' found table quiet
    rw [infer] at quiet
    obtain ⟨⟨form', result⟩, s₁, inside, rest⟩ := quiet.bind_inv
    cases result with
    | error err => cases rest.pure_inv.1
    | ok found' =>
      obtain ⟨same, rfl⟩ := rest.pure_inv
      cases same
      rw [Expr.typeDecls_walk]
      exact inferForm_defines ctx framed position form hint nominal s s' form' found table inside

theorem inferForm_defines (ctx : Context) (framed : ctx.Nominal) (position : Position) :
    ∀ (form : ExprForm) (hint : Ty), hint.nominal = true →
      (inferForm ctx position form hint).DefinesNode (form.walk position) (·.nominal = true)
  | .literal literal, hint, nominal => by
    refine HasNode.ok ?_
    cases literal.kind <;> rfl
  | .blank, hint, nominal => HasNode.ok rfl
  | .compound spec shape elements, hint, nominal => by
    rw [inferForm]
    refine .given (fun s s' type table quiet =>
      resolveOr_nominal nominal (Quiet.compoundType_inv quiet)) fun type nominal => ?_
    split
    case isTrue empty =>
      obtain rfl := List.isEmpty_iff.mp empty
      refine .of_eq (HasNode.ok nominal) ?_
      simp [definitions, ExprForm.walk, Element.walkList, TypeSpec.typeDecls_walkOption]
    case isFalse =>
      refine .given (Q := fun layout => layout.nominal = true ∧ layout.Keyless elements)
        (fun s s' layout table quiet => ?_) fun layout laidOut => ?_
      · obtain ⟨rfl, found⟩ := layoutOf_nominal table nominal quiet
        exact ⟨rfl, found, layoutOf_keyless quiet⟩
      · have inside := checkElements_defines ctx framed (TypeSpec.hasValueKeys spec) elements layout
          laidOut.1 laidOut.2
        refine .of_eq (.rebuild (.mapResult inside fun _ _ => nominal)) ?_
        rw [ExprForm.walk, typeDecls_append, TypeSpec.typeDecls_walkOption, List.nil_append]
  | .binary op left right, hint, nominal => by
    rw [inferForm]
    split
    case isTrue =>
      have first : (expecting ctx .bool (infer ctx left)).DefinesNode left.walk
          (·.nominal = true) := .expecting rfl (infer_defines ctx framed left .bool rfl)
      have second : (expecting ctx .bool (infer ctx right)).DefinesNode right.walk
          (·.nominal = true) := .expecting rfl (infer_defines ctx framed right .bool rfl)
      refine .of_eq (.rebuild (.mapResult (.andThen first fun _ _ => second) fun _ _ => rfl)) ?_
      simp [definitions, ExprForm.walk, typeDecls_append]
    case isFalse =>
      refine .of_eq (.rebuild (.conclude (.andThen (infer_defines ctx framed left .unknown rfl)
        fun type nominal => DefinesNode.expecting nominal
          (infer_defines ctx framed right type nominal))
            fun operand s s' type table nominal quiet => ?_)) ?_
      · obtain ⟨rfl | rfl, same⟩ := Quiet.binaryType_inv quiet
        · exact ⟨same, rfl⟩
        · exact ⟨same, nominal⟩
      · simp [definitions, ExprForm.walk, typeDecls_append]
  | .unary op operand, hint, nominal => by
    cases op with
    | plus | minus =>
      refine .rebuild (.conclude (infer_defines ctx framed operand hint nominal)
        fun operand s s' type table nominal quiet => ?_)
      obtain ⟨rfl, same⟩ := Quiet.signType_inv quiet
      exact ⟨same, nominal⟩
    | not => exact .rebuild (DefinesNode.expecting rfl (infer_defines ctx framed operand .bool rfl))
    | addressOf =>
      have pointee : (pointeeHint hint).nominal = true := by
        cases hint with
        | pointer pointee => exact nominal
        | _ => rfl
      exact .rebuild (.mapResult (infer_defines ctx framed operand _ pointee)
        fun _ nominal => nominal)
    | deref =>
      refine .rebuild (.conclude (infer_defines ctx framed operand .unknown rfl)
        fun operand s s' type table nominal quiet => ?_)
      obtain ⟨found, same⟩ := Quiet.derefType_inv quiet
      exact ⟨same, table.underlying nominal found⟩
  | .index left index, hint, nominal => by
    rw [inferForm]
    refine .of_eq (.rebuild (.andThen (.conclude (V := fun types : Ty × Ty =>
      types.1.nominal = true ∧ types.2.nominal = true) (infer_defines ctx framed left .unknown rfl)
        fun left s s' types table nominal quiet => ?_) fun types nominal =>
          .mapResult (DefinesNode.expecting nominal.1
            (infer_defines ctx framed index types.1 nominal.1)) fun _ _ => nominal.2)) ?_
    · obtain ⟨⟨root, found, cases⟩, same⟩ := Quiet.indexTypes_inv quiet
      have definition := table.underlying nominal found
      refine ⟨same, ?_⟩
      rcases cases with ⟨size, rfl, int⟩ | ⟨rfl, int⟩ | rfl | rfl
      · exact ⟨int ▸ rfl, definition⟩
      · exact ⟨int ▸ rfl, definition⟩
      · simpa [Ty.isDefinition, Ty.nominal] using definition
      · exact ⟨rfl, rfl⟩
    · simp [definitions, ExprForm.walk, typeDecls_append]
  | .selector left field, hint, nominal => by
    rw [inferForm]
    refine .rebuild (.conclude (infer_defines ctx framed left .unknown rfl)
      fun left s s' type table nominal quiet => ?_)
    obtain ⟨⟨base, found, member⟩, same⟩ := Quiet.selectorType_inv quiet
    exact ⟨same, SymbolTable.memberType?_nominal (table.memberBase nominal found) member⟩
  | .call callee args, hint, nominal => by
    rw [inferForm]
    refine .given (fun s s' found table quiet => conversion?_nominal quiet) fun found named => ?_
    cases found with
    | some converted =>
      obtain ⟨nominal, undeclared⟩ := named converted rfl
      match args with
      | [arg] =>
        refine .of_eq (.rebuild (.mapResult (infer_defines ctx framed arg converted.2 nominal)
          fun _ _ => nominal)) ?_
        simp [ExprForm.walk, Expr.walkList, typeDecls_append, undeclared]
      | [] => exact HasNode.error
      | _ :: _ :: _ => exact HasNode.error
    | none =>
      refine .of_eq (.rebuild (.andThen (.conclude (V := fun signature : Signature =>
        args.length = signature.args.length ∧ Ty.allNominal signature.args = true ∧
          signature.resultType.nominal = true) (infer_defines ctx framed callee .unknown rfl)
            fun callee s s' signature table nominal quiet =>
              callSignature_nominal table nominal quiet) fun signature signed =>
                .mapResult (expectAll_defines ctx framed args signature.args signed.1 signed.2.1)
                  fun _ _ => signed.2.2)) ?_
      simp [definitions, ExprForm.walk, typeDecls_append]
  | .func func, hint, nominal => by
    rw [inferForm]
    refine .given (fun s s' found table quiet => funcType_nominal quiet) fun found typed => ?_
    refine .of_eq (HasNode.bind (checkBody_defines ctx func found.2 found.1 typed.2 typed.1)
      fun _ _ => HasNode.ok typed.2) ?_
    simp [definitions, ExprForm.walk]
  | .ident ident, hint, nominal => by
    rw [inferForm]
    refine .rebuild fun s s' ident' type table quiet => ?_
    obtain ⟨id, v, -, held, rfl, -, rfl⟩ := Quiet.inferIdent_inv quiet
    exact ⟨table, .refl table, table _ _ held⟩
  | .type spec, hint, nominal => by
    rw [inferForm]
    exact HasNode.error

theorem expectAll_defines (ctx : Context) (framed : ctx.Nominal) : ∀ (es : List Expr)
    (types : List Ty), es.length = types.length → Ty.allNominal types = true →
      (expectAll ctx es types).DefinesNode (Expr.walkList es) fun _ => True
  | e :: es, type :: types, length, nominal => by
    simp only [Ty.allNominal, Bool.and_eq_true] at nominal
    rw [expectAll]
    refine .of_eq (.rebuild (.andThen (DefinesNode.expecting nominal.1
      (infer_defines ctx framed e type nominal.1)) fun _ _ =>
        expectAll_defines ctx framed es types (Nat.succ.inj length) nominal.2)) ?_
    simp [definitions, Expr.walkList, typeDecls_append]
  | [], types, _, _ => HasNode.ok True.intro
  | _ :: _, [], length, _ => nomatch length

theorem waitingAll_defines (ctx : Context) (framed : ctx.Nominal) : ∀ es : List Expr,
    ∀ value ∈ waitingAll ctx es, value.Defines
  | [] => by
    rw [waitingAll]
    nofun
  | e :: es => by
    rw [waitingAll]
    exact List.forall_mem_cons.mpr ⟨infer_defines ctx framed e, waitingAll_defines ctx framed es⟩

/-- Values and targets are checked in pairs, and read one after the other. -/
theorem assignAll_defines (ctx : Context) (framed : ctx.Nominal) : ∀ (targets : List Expr)
    (values : List Waiting), targets.length = values.length → (∀ value ∈ values, value.Defines) →
      (assignAll ctx targets values).DefinesNode
        (Expr.walkList (values.map (·.expr)) ++ Expr.walkList targets) fun _ => True
  | target :: targets, value :: values, length, defines => by
    rw [assignAll]
    obtain ⟨first, others⟩ := List.forall_mem_cons.mp defines
    refine HasNode.mono (.rebuild (.andThen (.andThen (infer_defines ctx framed target .unknown rfl)
      fun type nominal => DefinesNode.expecting nominal (first type nominal)) fun _ _ =>
        assignAll_defines ctx framed targets values (Nat.succ.inj length) others))
          fun advances => advances.of_mem_iff fun pair => ?_
    simp only [definitions, typeDecls_append, Expr.walkList, List.map_cons, List.mem_append]
    tauto
  | [], [], _, _ => HasNode.ok True.intro
  | [], _ :: _, length, _ => nomatch length
  | _ :: _, [], length, _ => nomatch length

theorem checkElements_defines (ctx : Context) (framed : ctx.Nominal) (valueKeys : Bool) :
    ∀ (elements : List Element) (layout : Layout), layout.nominal = true →
      layout.Keyless elements → (checkElements ctx elements layout).DefinesNode
        (Element.walkList valueKeys elements) fun _ => True
  | [], layout, _, _ => HasNode.ok True.intro
  | ⟨key, value⟩ :: rest, layout, nominal, keyless => by
    intro s s' node a table quiet
    rw [checkElements] at quiet
    obtain ⟨⟨key', result⟩, _, keyed, behindKey⟩ := quiet.bind_inv
    obtain ⟨parts, behind, -⟩ := Quiet.rebuild_inv behindKey
    obtain ⟨⟨type, layout'⟩, s₁, asked, checked⟩ := Quiet.given_inv behind
    obtain ⟨found, rfl⟩ := Quiet.ofExcept_inv asked
    obtain ⟨_, rfl, next⟩ := Except.bind_eq_ok found
    obtain ⟨typed, laidOut⟩ := Layout.next_nominal nominal next
    -- a key without a type is a bare name, or there is none at all
    have first : (checkKey ctx layout key).Passes s key' () s₁ →
        s₁.symbols.Nominal ∧ Advances (typeDecls (Expr.walkKey valueKeys key)) s.symbols
          s₁.symbols := by
      intro keyed
      cases key with
      | none =>
        obtain ⟨-, rfl⟩ := Quiet.pure_inv keyed
        exact ⟨table, .refl table⟩
      | some key =>
        rw [Expr.typeDecls_walkKey]
        rw [checkKey] at keyed
        split at keyed
        case h_1 untyped =>
          obtain ⟨same, rfl⟩ := Quiet.pure_inv keyed
          obtain ⟨rfl, -⟩ := Prod.mk.inj same
          have unkeyed : ∀ fields, layout ≠ .positional fields := fun fields same =>
            nomatch keyless fields same _ List.mem_cons_self
          have named := Layout.next_ident? untyped unkeyed next
          obtain ⟨keyPosition, form, keyType⟩ := key
          cases form with
          | ident ident => exact ⟨table, .refl table⟩
          | _ => cases named
        case h_2 keyType asks =>
          have keyNominal := Layout.keyType?_nominal nominal asks
          obtain ⟨part, inside, -⟩ := Quiet.rebuild_inv keyed
          obtain ⟨_, inside, -⟩ := Quiet.mapResult_inv inside
          have defines : (expecting ctx keyType (infer ctx key)).DefinesNode key.walk
              (·.nominal = true) :=
            .expecting keyNominal (infer_defines ctx framed key keyType keyNominal)
          obtain ⟨behind, advances, -⟩ := defines s s₁ part _ table inside
          exact ⟨behind, advances⟩
    obtain ⟨between, leads⟩ := first keyed
    have defines : ((expecting ctx type (infer ctx value)).andThen rest fun _ =>
        checkElements ctx rest layout').HasNode definitions _ fun _ => True :=
      .andThen (DefinesNode.expecting typed (infer_defines ctx framed value type typed)) fun _ _ =>
        checkElements_defines ctx framed valueKeys rest layout' laidOut (keyless.next next)
    obtain ⟨behind, advances, -⟩ := defines s₁ s' parts a between checked
    refine ⟨behind, ?_, True.intro⟩
    rw [Element.walkList, typeDecls_append, typeDecls_append, List.append_assoc]
    exact leads.trans advances

theorem checkBody_defines (ctx : Context) : ∀ (func : Func) (signature : Signature)
    (receiver : Option Ty), signature.nominal = true →
      (∀ t, receiver = some t → t.nominal = true) →
        (checkBody ctx func signature receiver).Defines func.walk
  | ⟨name, receiver, params, results, body⟩, ⟨args, types⟩, receiverType, signed, received => by
    simp only [Signature.nominal, Bool.and_eq_true] at signed
    have framed : (ctx.ofBody results ⟨args, types⟩).Nominal := by
      rintro frame ⟨⟩
      exact signed.2
    rw [checkBody]
    refine withScope_defines (.of_eq (Has.bind (declareReceiver_defines received) fun _ _ =>
      Has.bind (declareParams_defines signed.1) fun _ _ =>
        Has.bind (declareParams_defines signed.2) fun _ _ =>
          Has.bind (checkStatements_defines _ framed body) fun _ _ => Has.pure True.intro) ?_)
    rw [Func.typeDecls_walk]
    simp [definitions, typeDecls]

theorem checkMethods_defines (ctx : Context) (this : Ty) : ∀ (methods : List Func)
    (signatures : List Signature), methods.length = signatures.length → this.nominal = true →
      (∀ signature ∈ signatures, signature.nominal = true) →
        (checkMethods ctx this methods signatures).DefinesNode (Func.walkList methods) fun _ => True
  | method :: methods, signature :: signatures, length, nominal, signed => by
    rw [checkMethods]
    obtain ⟨first, others⟩ := List.forall_mem_cons.mp signed
    refine .given (fun s s' found table quiet => receiverType_nominal quiet)
      fun receiver received => ?_
    have defaulted : ∀ t, (receiver.map fun type =>
        if type.isUnknown then .pointer this else type) = some t → t.nominal = true := by
      intro t given
      obtain ⟨type, found, rfl⟩ := Option.map_eq_some_iff.mp given
      split
      · exact nominal
      · exact received type found
    refine .of_eq (HasNode.bind (checkBody_defines ctx method signature _ first defaulted)
      fun _ _ => HasNode.rebuild (checkMethods_defines ctx this methods signatures
        (Nat.succ.inj length) nominal others)) ?_
    simp [definitions, Func.walkList, typeDecls_append]
  | [], _, _, _, _ => HasNode.ok True.intro
  | _ :: _, [], length, _, _ => nomatch length

theorem checkStatements_defines (ctx : Context) (framed : ctx.Nominal) : ∀ block : Block,
    (checkStatements ctx block).Defines (Stmt.walkList block.statements)
  | ⟨statements, _⟩ => by
    rw [checkStatements]
    refine .of_eq (Has.bind declareLabels_defines fun found length =>
      Has.bind (checkEach_defines { ctx with labels := found.1 :: ctx.labels } framed statements
        found.2 length.symm) fun _ _ => Has.pure True.intro) ?_
    simp [definitions]

theorem checkEach_defines (ctx : Context) (framed : ctx.Nominal) : ∀ (statements : List Stmt)
    (labels : List (Option StmtLabel)), statements.length = labels.length →
      (checkEach ctx statements labels).Defines (Stmt.walkList statements)
  | s :: rest, label :: labels, length => by
    rw [checkEach]
    refine .of_eq (Has.bind (checkStmt_defines ctx framed s).recorded fun _ _ =>
      Has.bind (checkEach_defines ctx framed rest labels (Nat.succ.inj length)) fun _ _ =>
        Has.pure True.intro) ?_
    simp [definitions, Stmt.walkList, typeDecls_append]
  | [], _, _ => Has.pure True.intro
  | _ :: _, [], length => nomatch length

theorem checkStmt_defines (ctx : Context) (framed : ctx.Nominal) : ∀ s : Stmt,
    (checkStmt ctx s).DefinesNode s.walk fun _ => True
  | ⟨id, position, label, form⟩ => by
    rw [checkStmt]
    intro s s' node a table quiet
    obtain ⟨⟨form', result⟩, s₁, inside, rest⟩ := quiet.bind_inv
    obtain ⟨same, rfl⟩ := rest.pure_inv
    cases same
    rw [Stmt.typeDecls_walk]
    exact checkForm_defines ctx framed id position _ form s s' form' a table inside

/-- The declarations of types are the forms that add to the definitions themselves. -/
theorem checkForm_defines (ctx : Context) (framed : ctx.Nominal) (id : StmtId)
    (position : Position) (label : Option String) : ∀ form : StmtForm,
      (checkForm ctx id position label form).HasNode definitions
        (form.typeDecl?.toList ++ typeDecls form.walk) fun _ => True
  | .assign lhs rhs op => by
    rw [checkForm]
    split
    case h_1 => exact HasNode.error
    case h_2 =>
    split
    case h_1 binary _ =>
      match lhs, rhs with
      | [target], [value] =>
        refine HasNode.mono (.rebuild (.conclude (.andThen
          (infer_defines ctx framed target .unknown rfl) fun type nominal =>
            DefinesNode.expecting nominal (infer_defines ctx framed value type nominal))
              fun operand s s' _ _ _ quiet => ⟨Quiet.checkOperand_inv quiet, True.intro⟩))
                fun advances => advances.of_mem_iff fun pair => ?_
        simp only [definitions, StmtForm.typeDecl?, StmtForm.walk, typeDecls_append, Expr.walkList,
          List.append_nil, Option.toList_none, List.nil_append, List.mem_append]
        tauto
      | [], rhs => exact HasNode.error
      | target :: second :: lhs, rhs => exact HasNode.error
      | [target], [] => exact HasNode.error
      | [target], value :: second :: rhs => exact HasNode.error
    case h_2 =>
    dsimp only
    split
    case isTrue length =>
      have waiting := congrArg List.length (waitingAll_exprs ctx rhs)
      rw [List.length_map] at waiting
      have pairs := assignAll_defines ctx framed lhs (waitingAll ctx rhs)
        (length.trans waiting.symm) (waitingAll_defines ctx framed rhs)
      rw [waitingAll_exprs] at pairs
      exact .rebuild pairs
    case isFalse =>
    match rhs with
    | [value] =>
      refine HasNode.of_eq (.rebuild (.andThen (infer_defines ctx framed value .unknown rfl)
        fun type nominal => ?_)) (w := typeDecls value.walk ++ typeDecls (Expr.walkList lhs)) ?_
      · cases type with
        | tuple members =>
          dsimp only
          split
          case isTrue length =>
            exact expectAll_defines ctx framed lhs members length.symm nominal
          case isFalse => exact HasNode.error
        | _ => exact HasNode.error
      · simp only [StmtForm.typeDecl?, StmtForm.walk, typeDecls_append, Expr.walkList,
          List.append_nil, Option.toList_none, List.nil_append]
    | [] => exact HasNode.error
    | value :: second :: rhs => exact HasNode.error
  | .struct ⟨name, fields, methods, symbol⟩ => by
    rw [checkForm]
    have definition : ∀ s s' found,
        Succeeds (structTarget ctx name position fields methods) s found s' →
          s'.symbols = s.symbols ∧ found.1.isDefinition = true ∧
            found.1.complete = StructDecl.filled ⟨name, fields, methods, symbol⟩ ∧
              (∀ signature ∈ found.2, signature.nominal = true) ∧
                found.2.length = methods.length :=
      fun s s' found quiet => structTarget_filled symbol quiet
    refine .of_eq (.rebuild (declareType_defines (Q := fun signatures =>
      (∀ signature ∈ signatures, signature.nominal = true) ∧ signatures.length = methods.length)
        definition fun id signatures signed => checkMethods_defines ctx (.custom name id) methods
          signatures signed.2.symm rfl signed.1)) ?_
    rw [StmtForm.walk, List.cons_append, typeDecls_cons_of_none rfl, typeDecls_append,
      TypeSpec.typeDecls_flatMap_walk]
    rfl
  | .typeAlias decl => by
    rw [checkForm, checkAlias]
    have definition : ∀ s s' found,
        Succeeds (aliasTarget ctx decl.name position decl.target) s found s' →
          s'.symbols = s.symbols ∧ found.1.isDefinition = true ∧
            found.1.complete = decl.target.filled ∧ True := by
      intro s s' found quiet
      obtain ⟨same, nominal, filled⟩ := resolve_filled (Quiet.aliasTarget_inv quiet)
      exact ⟨same, Ty.isDefinition_of_nominal nominal, filled, True.intro⟩
    have rooted : ∀ (id : SymbolId) (a : Unit), True →
        Check.DefinesNode (do return ((), ← (aliasRoot ctx id decl.name position).run)) []
          fun _ => True := by
      intro id _ _ s s' node a table quiet
      obtain ⟨result, s₁, leads, rest⟩ := quiet.bind_inv
      obtain ⟨same, rfl⟩ := rest.pure_inv
      cases same
      obtain rfl := Quiet.aliasRoot_inv leads
      exact ⟨table, .refl table, True.intro⟩
    refine .of_eq (.rebuild (.rebuild (declareType_defines definition rooted))) ?_
    rw [StmtForm.walk, typeDecls_cons_of_none rfl, TypeSpec.typeDecls_walk]
    rfl
  | .var vars => by
    rw [checkForm]
    exact .rebuild (checkVars_defines ctx framed id vars)
  | .pass => HasNode.ok True.intro
  | .cond branches => by
    rw [checkForm]
    refine .of_eq (HasNode.bind (checkBranches_defines ctx framed id branches) fun _ _ =>
      HasNode.ok True.intro) ?_
    simp [definitions, StmtForm.typeDecl?, StmtForm.walk]
  | .loop ⟨header, condition, step, body⟩ => by
    rw [checkForm]
    have inside := withScope_defines
      (checkStatements_defines { ctx with loops := (id, label) :: ctx.loops } framed body)
    intro s s' node a table quiet
    obtain ⟨s₁, inner, rfl⟩ := quiet.withScope_inv
    refine HasNode.of_eq (V := fun _ => True) (HasNode.bind (checkHeader_defines ctx framed id header) fun _ _ =>
      HasNode.bind (checkCondition_defines ctx framed condition) fun _ _ =>
        HasNode.bind (checkStep_defines ctx framed step) fun _ _ =>
          HasNode.bind inside fun _ _ => HasNode.ok True.intro) ?_ s.pushScope s₁ node a table inner
    rw [StmtForm.walk]
    simp [definitions, StmtForm.typeDecl?, typeDecls_append, Block.typeDecls_walk]
  | .expr e => by
    rw [checkForm]
    exact .rebuild (.mapResult (infer_defines ctx framed e .unknown rfl) fun _ _ => True.intro)
  | .jump jump => by
    rw [checkForm]
    intro s s' node a table quiet
    obtain ⟨-, rfl⟩ := quiet.pure_inv
    exact ⟨table, .refl table, True.intro⟩
  | .ret values => by
    rw [checkForm]
    refine .rebuild (HasNode.givenUnchanged (Q := fun types => values.length = types.length ∧
      Ty.allNominal types = true) (fun s s' types table quiet => ?_) fun types typed =>
        expectAll_defines ctx framed values types typed.1 typed.2)
    obtain ⟨returned, rfl⟩ := Quiet.ofExcept_inv quiet
    exact ⟨rfl, Quiet.length_returnTypes returned, returnTypes_nominal framed returned⟩

theorem checkVars_defines (ctx : Context) (framed : ctx.Nominal) (id : StmtId) : ∀ vars : VarForm,
    (checkVars ctx id vars).DefinesNode vars.walk fun _ => True
  | ⟨vars, isFunc⟩ => by
    rw [checkVars]
    intro s s' node a table quiet
    obtain ⟨read, s₁, state, rest⟩ := quiet.bind_inv
    obtain ⟨-, rfl⟩ := Quiet.state_inv state
    obtain ⟨⟨vars', result⟩, s₂, inside, behind⟩ := rest.bind_inv
    obtain ⟨_, s₃, noting, last⟩ := behind.bind_inv
    obtain ⟨-, rfl⟩ := last.pure_inv
    obtain ⟨⟨b, rfl⟩, rfl⟩ := Quiet.noteForm_inv noting
    rw [VarForm.typeDecls_walk]
    exact checkVarList_defines ctx framed id isFunc vars s₁ s' vars' b table inside

theorem checkVarList_defines (ctx : Context) (framed : ctx.Nominal) (id : StmtId)
    (isFunc : Bool) : ∀ vars : List VarDecl,
      (checkVarList ctx id isFunc vars).DefinesNode (VarDecl.walkList vars) fun _ => True
  | [] => HasNode.ok True.intro
  | ⟨name, position, spec, value, symbol⟩ :: rest => by
    have first : (if isFunc then checkFuncVar ctx id ⟨name, position, spec, value, symbol⟩
        else checkPlainVar ctx id ⟨name, position, spec, value, symbol⟩).DefinesNode
          (Expr.walkOption value) fun _ => True := by
      split
      · exact checkFuncVar_defines ctx id ⟨name, position, spec, value, symbol⟩
      · exact checkPlainVar_defines ctx framed id ⟨name, position, spec, value, symbol⟩
    rw [checkVarList]
    refine .of_eq (.rebuild (.alongside (.noted first)
      (checkVarList_defines ctx framed id isFunc rest))) ?_
    rw [VarDecl.walkList, typeDecls_append, typeDecls_append, TypeSpec.typeDecls_walkOption,
      List.nil_append]
    rfl

theorem checkPlainVar_defines (ctx : Context) (framed : ctx.Nominal) (id : StmtId) :
    ∀ decl : VarDecl,
      (checkPlainVar ctx id decl).DefinesNode (Expr.walkOption decl.value) fun _ => True
  | ⟨name, position, spec, value, symbol⟩ => by
    rw [checkPlainVar]
    intro s s' node a table quiet
    obtain ⟨result, s₁, resolved, rest⟩ := quiet.bind_inv
    cases result with
    | error err => cases (Quiet.declareVar_inv rest).1
    | ok declared =>
      obtain ⟨same, nominal⟩ := resolveOr_nominal rfl resolved
      have resolvedTable : s₁.symbols.Nominal := by rw [same]; exact table
      obtain ⟨⟨value', found⟩, s₂, inside, last⟩ := rest.bind_inv
      cases found with
      | error err => cases (Quiet.declareVar_inv last).1
      | ok type =>
        obtain ⟨between, advances, typed⟩ :=
          checkInit_defines ctx framed name position declared nominal value s₁ s₂ value' type
            resolvedTable inside
        obtain ⟨behind, declares, -⟩ := declareVar_defines typed s₂ s' node a between last
        have both : Advances (typeDecls (Expr.walkOption value) ++ []) s₁.symbols s'.symbols :=
          advances.trans declares
        rw [List.append_nil, same] at both
        exact ⟨behind, both, True.intro⟩

theorem checkInit_defines (ctx : Context) (framed : ctx.Nominal) (name : String)
    (position : Position) (declared : Ty) (nominal : declared.nominal = true) :
    ∀ value : Option Expr, (checkInit ctx name position declared value).DefinesNode
      (Expr.walkOption value) (·.nominal = true)
  | none => by
    rw [checkInit]
    split
    · exact HasNode.ok nominal
    · exact HasNode.error
  | some e => by
    rw [checkInit]
    exact .rebuild (DefinesNode.agreeing nominal (infer_defines ctx framed e declared nominal))

theorem checkFuncVar_defines (ctx : Context) (id : StmtId) : ∀ decl : VarDecl,
    (checkFuncVar ctx id decl).DefinesNode (Expr.walkOption decl.value) fun _ => True
  | ⟨name, position, spec, none, symbol⟩ => HasNode.error
  | ⟨name, position, spec, some ⟨valuePosition, form, type⟩, symbol⟩ => by
    cases form with
    | func func =>
      rw [checkFuncVar]
      intro s s' node a table quiet
      obtain ⟨result, s₁, resolved, rest⟩ := quiet.bind_inv
      cases result with
      | error err => cases (Quiet.declareVar_inv rest).1
      | ok found =>
        obtain ⟨same, received, signed⟩ := funcType_nominal resolved
        have typed : (Ty.func found.2).nominal = true := signed
        have resolvedTable : s₁.symbols.Nominal := by rw [same]; exact table
        obtain ⟨⟨decl', declared⟩, s₂, declaring, checking⟩ := rest.bind_inv
        cases declared with
        | error err => cases checking.pure_inv.1
        | ok declared =>
          obtain ⟨between, declares, -⟩ := declareVar_defines typed s₁ s₂ decl' declared
            resolvedTable declaring
          obtain ⟨func', s₃, inside, last⟩ := checking.bind_inv
          obtain ⟨-, rfl⟩ := last.pure_inv
          obtain ⟨behind, advances, -⟩ :=
            checkBody_defines ctx func found.2 found.1 signed received s₂ s' func' between inside
          have both : Advances ([] ++ typeDecls func.walk) s₁.symbols s'.symbols :=
            declares.trans advances
          rw [List.nil_append, same] at both
          refine ⟨behind, ?_, True.intro⟩
          rw [Expr.walkOption, Expr.typeDecls_walk, ExprForm.walk]
          exact both
    | _ => exact HasNode.error

theorem checkHeader_defines (ctx : Context) (framed : ctx.Nominal) (id : StmtId) :
    ∀ header : Option VarForm, (checkHeader ctx id header).Defines (VarForm.walkOption header)
  | none => Has.pure True.intro
  | some vars => by
    rw [checkHeader]
    refine .of_eq (Has.bind (checkVars_defines ctx framed id vars).recorded fun _ _ =>
      Has.pure True.intro) ?_
    simp [definitions, VarForm.walkOption]

theorem checkCondition_defines (ctx : Context) (framed : ctx.Nominal) :
    ∀ condition : Option Expr, (checkCondition ctx condition).Defines (Expr.walkOption condition)
  | none => Has.pure True.intro
  | some e => by
    rw [checkCondition]
    have inside : (expecting ctx .bool (infer ctx e)).DefinesNode e.walk (·.nominal = true) :=
      .expecting rfl (infer_defines ctx framed e .bool rfl)
    refine .of_eq (Has.bind inside.recorded fun _ _ => Has.pure True.intro) ?_
    simp [definitions, Expr.walkOption]

theorem checkStep_defines (ctx : Context) (framed : ctx.Nominal) : ∀ step : Option Stmt,
    (checkStep ctx step).Defines (Stmt.walkOption step)
  | none => Has.pure True.intro
  | some s => by
    rw [checkStep]
    refine .of_eq (Has.bind (checkStmt_defines ctx framed s).recorded fun _ _ =>
      Has.pure True.intro) ?_
    simp [definitions, Stmt.walkOption]

theorem checkBranches_defines (ctx : Context) (framed : ctx.Nominal) (id : StmtId) :
    ∀ branches : List Branch, (checkBranches ctx id branches).Defines (Branch.walkList branches)
  | [] => Has.pure True.intro
  | ⟨header, condition, body⟩ :: rest => by
    rw [checkBranches]
    have inside := withScope_defines (checkStatements_defines ctx framed body)
    refine .of_eq (Has.bind (withScope_defines (U := fun _ => True)
      (Has.bind (checkHeader_defines ctx framed id header) fun _ _ =>
        Has.bind (checkCondition_defines ctx framed condition) fun _ _ =>
          Has.bind inside fun _ _ => Has.pure True.intro)) fun _ _ =>
            Has.bind (checkBranches_defines ctx framed id rest) fun _ _ => Has.pure True.intro) ?_
    rw [Branch.walkList]
    simp [definitions, typeDecls_append, Block.typeDecls_walk]

end

end PackageCheck.Typing
