import PackageCheck.Proofs.Typing.Parallel
import PackageCheck.Proofs.Typing.RuleSoundness

/-! # Rules in parallel

Each rule asks a state for the types and the symbols that it is given handles of, and matching types have
matching answers. So each rule that succeeds does so in parallel, whatever the files and the positions
of which its errors would tell. -/

namespace PackageCheck.Typing

open Check

variable {w : Parallel} {nested : Bool} {ctx ctx' : Context} {position position' : Position}

/-! ## Surroundings -/

/-- Whether the surroundings of two runs correspond, wherever they are. -/
structure Parallel.Around (w : Parallel) (ctx ctx' : Context) : Prop where
  frame : Option.Rel (fun frame frame' => List.Forall₂ (Ty.Matches w.pairs) frame.types frame'.types ∧
    frame'.named = frame.named) ctx.frame ctx'.frame
  loops : ctx'.loops = ctx.loops
  labels : List.Forall₂ (fun labels labels' : NameMap SymbolId =>
    ∀ name, Option.Rel w.pairs (labels.find? name) (labels'.find? name)) ctx.labels ctx'.labels

theorem Parallel.Around.label? (around : w.Around ctx ctx') (name : String) :
    Option.Rel w.pairs (ctx.label? name) (ctx'.label? name) := by
  have all := around.labels
  unfold Context.label?
  generalize ctx.labels = labels, ctx'.labels = labels' at all ⊢
  induction all with
  | nil => exact .none
  | @cons first first' _ _ same _ hypothesis =>
    have here := same name
    rw [List.findSome?_cons, List.findSome?_cons]
    generalize first.find? name = id, first'.find? name = id' at here ⊢
    cases here with
    | none => exact hypothesis
    | some paired => exact .some paired

namespace ParallelsAttempt

/-- An attempt that begins with a look at the states. -/
theorem reads {V : β → β → Prop} {next next' : State → Attempt β}
    (tail : ∀ s s', w.States nested s s' → ∀ b t, Succeeds (next s) s b t → w.Covers t →
      ∃ b' t', Succeeds (next' s') s' b' t' ∧ w.States nested t t' ∧ V b b') :
    ParallelsAttempt w nested (do next (← state)) (do next' (← state)) V := by
  intro s s' states b t quiet covers
  obtain ⟨found, s₁, read, rest⟩ := quiet.attempt_inv
  obtain ⟨rfl, rfl⟩ := read.lift_inv.state_inv
  obtain ⟨b', t', rest', behind⟩ := tail _ s' states b t rest covers
  exact ⟨b', t', Quiet.attempt (Quiet.lift ⟨rfl, rfl⟩) rest', behind⟩

/-! ## Types -/

theorem resolveName (name : String) : ParallelsAttempt w nested (Typing.resolveName ctx name position)
    (Typing.resolveName ctx' name position') (Ty.Matches w.pairs) := by
  intro s s' states type t quiet covers
  obtain ⟨id, found, declared, rfl⟩ := quiet.resolveName_inv
  obtain ⟨symbol, held, -⟩ := states.named.findType? found
  obtain ⟨id', found', paired⟩ := states.findType? found (covers.uses (name, id) List.mem_cons_self)
  have same := states.symbols.declaredType? paired held
  rw [declared] at same
  generalize declared' : s'.symbols.declaredType? id' = result at same
  obtain ⟨matching⟩ := same
  refine ⟨_, s'.touch name id', ?_, states.touch paired (by rw [held]; rfl), matching⟩
  refine Quiet.attempt (Quiet.lift ⟨rfl, rfl⟩) ?_
  simp only [found']
  refine Quiet.attempt (Quiet.lift (Quiet.change rfl)) ?_
  simp only [declared']
  exact .pure

mutual

theorem resolve : ∀ spec : TypeSpec, ParallelsAttempt w nested (Typing.resolve ctx spec)
    (Typing.resolve ctx' spec) (Ty.Matches w.pairs)
  | .named name position => by
    rw [Typing.resolve, Typing.resolve]
    exact resolveName name
  | .array size of => by
    rw [Typing.resolve, Typing.resolve]
    exact attempt (resolve of) fun _ _ inside => succeed (.array size inside)
  | .slice of => by
    rw [Typing.resolve, Typing.resolve]
    exact attempt (resolve of) fun _ _ inside => succeed (.slice inside)
  | .map key value => by
    rw [Typing.resolve, Typing.resolve]
    exact attempt (resolve key) fun _ _ keys => attempt (resolve value) fun _ _ values =>
      succeed (.map keys values)
  | .pointer pointee => by
    rw [Typing.resolve, Typing.resolve]
    exact attempt (resolve pointee) fun _ _ inside => succeed (.pointer inside)
  | .tuple members => by
    rw [Typing.resolve, Typing.resolve]
    exact attempt (resolveList members) fun _ _ inside => succeed (.tuple inside)
  | .func args results => by
    rw [Typing.resolve, Typing.resolve]
    exact attempt (resolveList args) fun _ _ taken => attempt (resolveList results) fun _ _ given =>
      succeed (.func (.mk taken given))
  | .blank => by
    rw [Typing.resolve, Typing.resolve]
    exact succeed .unknown

theorem resolveList : ∀ specs : List TypeSpec, ParallelsAttempt w nested (Typing.resolveList ctx specs)
    (Typing.resolveList ctx' specs) (List.Forall₂ (Ty.Matches w.pairs))
  | [] => by
    rw [Typing.resolveList, Typing.resolveList]
    exact succeed .nil
  | spec :: rest => by
    rw [Typing.resolveList, Typing.resolveList]
    exact attempt (resolve spec) fun _ _ first => attempt (resolveList rest) fun _ _ others =>
      succeed (.cons first others)

end

theorem resolveOr {absent absent' : Ty} (same : Ty.Matches w.pairs absent absent')
    (spec : Option TypeSpec) : ParallelsAttempt w nested (Typing.resolveOr ctx absent spec)
      (Typing.resolveOr ctx' absent' spec) (Ty.Matches w.pairs) := by
  cases spec with
  | none => exact succeed same
  | some spec => exact resolve spec

theorem receiverType (receiver : Option Param) :
    ParallelsAttempt w nested (Typing.receiverType ctx receiver) (Typing.receiverType ctx' receiver)
      (Option.Rel (Ty.Matches w.pairs)) := by
  cases receiver with
  | none => exact succeed .none
  | some receiver => exact attempt (resolve _) fun _ _ same => succeed (.some same)

theorem signature (params results : List Param) :
    ParallelsAttempt w nested (Typing.signature ctx params results)
      (Typing.signature ctx' params results) (Signature.Matches w.pairs) :=
  attempt (resolveList _) fun _ _ taken => attempt (resolveList _) fun _ _ given =>
    succeed (.mk taken given)

theorem funcType (func : Func) :
    ParallelsAttempt w nested (Typing.funcType ctx func) (Typing.funcType ctx' func)
      fun found found' => Option.Rel (Ty.Matches w.pairs) found.1 found'.1 ∧
        Signature.Matches w.pairs found.2 found'.2 :=
  attempt (receiverType _) fun _ _ receiver => attempt (signature _ _) fun _ _ signed =>
    succeed ⟨receiver, signed⟩

/-! ## Declared types -/

/-- Fields and methods are looked for by name. -/
theorem any_name {R : α → α → Prop} {name : α → String} (named : ∀ a b, R a b → name b = name a)
    {items items' : List α} (related : List.Forall₂ R items items') (wanted : String) :
    items'.any (name · == wanted) = items.any (name · == wanted) := by
  induction related with
  | nil => rfl
  | cons first _ hypothesis => rw [List.any_cons, List.any_cons, named _ _ first, hypothesis]

theorem field_name : ∀ field field' : FieldTy, FieldTy.Matches w.pairs field field' →
    field'.name = field.name
  | _, _, .mk _ _ => rfl

theorem method_name : ∀ method method' : MethodTy, MethodTy.Matches w.pairs method method' →
    method'.name = method.name
  | _, _, .mk _ _ => rfl

theorem fieldTypes (fields : List FieldDecl) : ∀ {before before' : List FieldTy},
    List.Forall₂ (FieldTy.Matches w.pairs) before before' →
      ParallelsAttempt w nested (Typing.fieldTypes ctx before fields)
        (Typing.fieldTypes ctx' before' fields) (List.Forall₂ (FieldTy.Matches w.pairs)) := by
  induction fields with
  | nil => exact fun same => succeed same
  | cons field rest hypothesis =>
    intro before before' same
    have taken := any_name field_name same field.name
    rw [Typing.fieldTypes, Typing.fieldTypes]
    refine branch (by rw [taken]) (attempt (U := fun _ _ => False) fail fun _ _ => False.elim) ?_
    refine attempt (resolve _) fun _ _ type => hypothesis ?_
    exact List.rel_append same (.cons (.mk field.name type) .nil)

theorem methodTypes {fields fields' : List FieldTy} (methods : List Func)
    (typed : List.Forall₂ (FieldTy.Matches w.pairs) fields fields') : ∀ {before before' : List MethodTy},
      List.Forall₂ (MethodTy.Matches w.pairs) before before' →
        ParallelsAttempt w nested (Typing.methodTypes ctx position fields before methods)
          (Typing.methodTypes ctx' position' fields' before' methods)
            (List.Forall₂ (MethodTy.Matches w.pairs)) := by
  induction methods with
  | nil => exact fun same => succeed same
  | cons method rest hypothesis =>
    intro before before' same
    have taken := any_name field_name typed (method.name.getD "")
    have taken' := any_name method_name same (method.name.getD "")
    rw [Typing.methodTypes, Typing.methodTypes]
    refine branch (by rw [taken, taken']) (attempt (U := fun _ _ => False) fail fun _ _ => False.elim) ?_
    refine attempt (signature _ _) fun _ _ signed => hypothesis ?_
    exact List.rel_append same (.cons (.mk (method.name.getD "") signed) .nil)

/-- Whether the targets of two structs match, and the signatures of their methods. -/
def StructsMatch (w : Parallel) (found found' : Ty × List Signature) : Prop :=
  Ty.Matches w.pairs found.1 found'.1 ∧ List.Forall₂ (Signature.Matches w.pairs) found.2 found'.2

theorem structTarget (name : String) (fields : List FieldDecl) (methods : List Func) :
    ParallelsAttempt w nested (Typing.structTarget ctx name position fields methods)
      (Typing.structTarget ctx' name position' fields methods) (StructsMatch w) := by
  refine attempt (fieldTypes _ .nil) fun _ _ typed => attempt (methodTypes _ typed .nil)
    fun methods methods' signed => succeed ⟨.struct (.mk name typed signed), ?_⟩
  rw [List.forall₂_map_left_iff, List.forall₂_map_right_iff]
  refine signed.imp ?_
  rintro _ _ ⟨_, signed⟩
  exact signed

theorem aliasTarget (name : String) (target : TypeSpec) :
    ParallelsAttempt w nested (Typing.aliasTarget ctx name position target)
      (Typing.aliasTarget ctx' name position' target) fun found found' =>
        Ty.Matches w.pairs found.1 found'.1 := by
  refine attempt (resolve _) fun type type' same => branch (by rw [same.isUnknown])
    (attempt (U := fun _ _ => False) fail fun _ _ => False.elim) ?_
  exact succeed same

theorem aliasRoot {id id' : SymbolId} (paired : w.pairs id id') (name : String) :
    ParallelsAttempt w nested (Typing.aliasRoot ctx id name position)
      (Typing.aliasRoot ctx' id' name position') fun _ _ => True := by
  refine reads fun s s' states _ t quiet _ => ?_
  split at quiet
  case h_1 root found =>
    obtain ⟨rfl, rfl⟩ := quiet.succeed_inv
    obtain ⟨root', found', -⟩ := states.symbols.underlying (.custom name paired) found
    refine ⟨(), s', ?_, states, True.intro⟩
    rw [show s'.symbols.rootType name id' = .ok root' from found']
    exact .pure
  case h_2 => exact absurd quiet Quiet.not_fail

/-! ## Operands -/

section Operands

variable {type type' : Ty} (same : Ty.Matches w.pairs type type')

include same

theorem underlying : ParallelsAttempt w nested (Typing.underlying ctx type position)
    (Typing.underlying ctx' type' position') (Ty.Matches w.pairs) := by
  refine reads fun s s' states root t quiet _ => ?_
  split at quiet
  case h_1 root found =>
    obtain ⟨rfl, rfl⟩ := quiet.succeed_inv
    obtain ⟨root', found', matching⟩ := states.symbols.underlying same found
    refine ⟨root', s', ?_, states, matching⟩
    rw [found']
    exact .pure
  case h_2 => exact absurd quiet Quiet.not_fail

theorem memberBase : ParallelsAttempt w nested (Typing.memberBase ctx type position)
    (Typing.memberBase ctx' type' position') (Ty.Matches w.pairs) := by
  refine reads fun s s' states root t quiet _ => ?_
  split at quiet
  case h_1 root found =>
    obtain ⟨rfl, rfl⟩ := quiet.succeed_inv
    obtain ⟨root', found', matching⟩ := states.symbols.memberBase same found
    refine ⟨root', s', ?_, states, matching⟩
    rw [found']
    exact .pure
  case h_2 => exact absurd quiet Quiet.not_fail

theorem checkOperand (op op' : String) (allowString : Bool) :
    ParallelsAttempt w nested (Typing.checkOperand ctx op allowString type position)
      (Typing.checkOperand ctx' op' allowString type' position') fun _ _ => True := by
  refine attempt (underlying same) fun root root' matching => branch ?_ fail (succeed True.intro)
  have arithmetic : isArithmetic allowString root' = isArithmetic allowString root := by
    cases matching <;> rfl
  rw [arithmetic]

theorem binaryType (op : BinaryOp) : ParallelsAttempt w nested (Typing.binaryType ctx op type position)
    (Typing.binaryType ctx' op type' position') (Ty.Matches w.pairs) :=
  branch Iff.rfl (succeed (.simple .bool))
    (attempt (checkOperand same _ _ _) fun _ _ _ => succeed same)

theorem signType (op : UnaryOp) : ParallelsAttempt w nested (Typing.signType ctx op type position)
    (Typing.signType ctx' op type' position') (Ty.Matches w.pairs) :=
  attempt (checkOperand same _ _ _) fun _ _ _ => succeed same

theorem derefType : ParallelsAttempt w nested (Typing.derefType ctx type position)
    (Typing.derefType ctx' type' position') (Ty.Matches w.pairs) := by
  refine attempt (underlying same) fun root root' matching => ?_
  cases matching with
  | pointer inside => exact succeed inside
  | _ => exact fail

theorem indexTypes : ParallelsAttempt w nested (Typing.indexTypes ctx type position)
    (Typing.indexTypes ctx' type' position') fun types types' =>
      Ty.Matches w.pairs types.1 types'.1 ∧ Ty.Matches w.pairs types.2 types'.2 := by
  refine attempt (underlying same) fun root root' matching => ?_
  cases matching with
  | array size inside => exact succeed ⟨.simple .int, inside⟩
  | slice inside => exact succeed ⟨.simple .int, inside⟩
  | map keys values => exact succeed ⟨keys, values⟩
  | simple name =>
    cases name with
    | string => exact succeed ⟨.simple .int, .simple .byte⟩
    | _ => exact fail
  | _ => exact fail

theorem selectorType (member : String) :
    ParallelsAttempt w nested (Typing.selectorType ctx type member position)
      (Typing.selectorType ctx' type' member position') (Ty.Matches w.pairs) := by
  refine attempt (memberBase same) fun base base' matching => ?_
  have found := matching.memberType? member
  generalize memberType? base member = type, memberType? base' member = type' at found ⊢
  cases found with
  | some inside => exact succeed inside
  | none => exact fail

theorem callSignature (count : Nat) :
    ParallelsAttempt w nested (Typing.callSignature ctx type count position)
      (Typing.callSignature ctx' type' count position') (Signature.Matches w.pairs) := by
  refine attempt (underlying same) fun root root' matching => ?_
  cases matching with
  | func inside =>
    have args : ∀ {signature signature' : Signature},
        Signature.Matches w.pairs signature signature' →
          signature'.args.length = signature.args.length := by
      rintro _ _ ⟨taken, -⟩
      exact taken.length_eq.symm
    exact branch (by rw [args inside]) (succeed inside) fail
  | _ => exact fail

theorem compoundType (spec : Option TypeSpec) :
    ParallelsAttempt w nested (Typing.compoundType ctx spec type position)
      (Typing.compoundType ctx' spec type' position') (Ty.Matches w.pairs) :=
  attempt (resolveOr same spec) fun _ _ matching =>
    branch (by rw [matching.known]) (succeed matching) fail

end Operands

end ParallelsAttempt

/-! ## Composite literals -/

/-- Whether two layouts ask for matching types. -/
inductive Layout.Matches (w : Parallel) : Layout → Layout → Prop
  | array (size : UInt64) {of of' : Ty} (index : Nat) (inside : Ty.Matches w.pairs of of') :
    Layout.Matches w (.array size of index) (.array size of' index)
  | slice {of of' : Ty} (inside : Ty.Matches w.pairs of of') : Layout.Matches w (.slice of) (.slice of')
  | map {key key' value value' : Ty} (keys : Ty.Matches w.pairs key key')
    (values : Ty.Matches w.pairs value value') : Layout.Matches w (.map key value) (.map key' value')
  | positional {fields fields' : List FieldTy}
    (typed : List.Forall₂ (FieldTy.Matches w.pairs) fields fields') :
    Layout.Matches w (.positional fields) (.positional fields')
  | keyed {layout layout' : StructTy} (inside : StructTy.Matches w.pairs layout layout') :
    Layout.Matches w (.keyed layout) (.keyed layout')

namespace Layout.Matches

variable {layout layout' : Layout} (same : Layout.Matches w layout layout')

include same

theorem shape : layout'.shape = layout.shape := by
  cases same <;> rfl

theorem keyType? : Option.Rel (Ty.Matches w.pairs) layout.keyType? layout'.keyType? := by
  cases same with
  | array | slice => exact .some (.simple .int)
  | map keys values => exact .some keys
  | positional | keyed => exact .none

/-- A name of a field takes matching types. -/
theorem typeKey (key : Expr) : Expr.NoWorse (layout.typeKey key) (layout'.typeKey key) := by
  cases same with
  | @keyed fields fields' inside =>
    simp only [Layout.typeKey]
    cases key.ident? with
    | none => exact .refl key
    | some ident =>
      have found := inside.field? ident.name
      simp only [Option.bind_some]
      generalize fields.field? ident.name = type, fields'.field? ident.name = type' at found ⊢
      cases found with
      | none => exact .refl key
      | some matching => exact (Expr.NoWorse.refl key).withType fun known => matching.known.trans known
  | _ => exact .refl key

/-- The next element must have matching types, as far as its key looks the same. -/
theorem next {key key' : Option Expr} (alike : Option.Rel (Expr.Alike false) key key')
    {found : Ty × Layout} (laidOut : layout.next ctx key position = .ok found) :
    ∃ found', layout'.next ctx' key' position' = .ok found' ∧
      Ty.Matches w.pairs found.1 found'.1 ∧ Layout.Matches w found.2 found'.2 := by
  have answer : ∃ found', layout'.next ctx' key position' = .ok found' ∧
      Ty.Matches w.pairs found.1 found'.1 ∧ Layout.Matches w found.2 found'.2 := by
    cases same with
    | array size index inside =>
      simp only [Layout.next] at laidOut ⊢
      split at laidOut
      case isTrue bound =>
        cases laidOut
        exact ⟨_, if_pos bound, inside, .array size _ inside⟩
      case isFalse => cases laidOut
    | slice inside =>
      cases laidOut
      exact ⟨_, rfl, inside, .slice inside⟩
    | map keys values =>
      cases key with
      | none => cases laidOut
      | some key =>
        cases laidOut
        exact ⟨_, rfl, values, .map keys values⟩
    | positional typed =>
      cases typed with
      | nil => cases laidOut
      | cons first others =>
        cases laidOut
        obtain ⟨name, typed⟩ := first
        exact ⟨_, rfl, typed, .positional others⟩
    | @keyed fields fields' inside =>
      cases key with
      | none => cases laidOut
      | some key =>
        simp only [Layout.next] at laidOut ⊢
        cases named : key.ident? with
        | none =>
          rw [named] at laidOut
          cases laidOut
        | some ident =>
          rw [named] at laidOut
          have typed := inside.field? ident.name
          dsimp only at laidOut ⊢
          generalize fields.field? ident.name = type, fields'.field? ident.name = type'
            at typed laidOut ⊢
          cases typed with
          | none => cases laidOut
          | some matching =>
            cases laidOut
            exact ⟨_, rfl, matching, .keyed inside⟩
  rwa [Layout.next_alike alike]

end Layout.Matches

theorem structLayout_parallels {layout layout' : StructTy} {elements : List Element} {found : Layout}
    (same : StructTy.Matches w.pairs layout layout')
    (laidOut : structLayout ctx layout elements position = .ok found) :
    ∃ found', structLayout ctx' layout' elements position' = .ok found' ∧
      Layout.Matches w found found' := by
  have fields := same.fields
  simp only [structLayout, ← fields.length_eq] at laidOut ⊢
  split at laidOut
  case isTrue keyless =>
    rw [if_pos keyless]
    split at laidOut
    case isTrue full =>
      cases laidOut
      exact ⟨_, if_pos full, .positional fields⟩
    case isFalse => cases laidOut
  case isFalse keyed =>
    rw [if_neg keyed]
    split at laidOut
    case isTrue all =>
      cases laidOut
      exact ⟨_, if_pos all, .keyed same⟩
    case isFalse => cases laidOut

theorem ParallelsAttempt.layoutOf {type type' : Ty} (same : Ty.Matches w.pairs type type')
    (elements : List Element) :
    ParallelsAttempt w nested (Typing.layoutOf ctx type elements position)
      (Typing.layoutOf ctx' type' elements position') (Layout.Matches w) := by
  refine attempt (underlying same) fun root root' matching => ?_
  cases matching with
  | array size inside => exact succeed (.array size 0 inside)
  | slice inside => exact succeed (.slice inside)
  | map keys values => exact succeed (.map keys values)
  | struct inside => exact ofExcept fun _ laidOut => structLayout_parallels inside laidOut
  | _ => exact fail

/-! ## Names and jumps -/

theorem inferIdent_parallels (ident : Ident) :
    (inferIdent ctx ident position).ParallelsNode w nested (inferIdent ctx' ident position')
      (fun bound bound' => bound'.name = bound.name ∧ bound'.isBound = true) (Ty.Matches w.pairs) := by
  intro s s' states bound type t quiet covers
  obtain ⟨id, v, found, held, rfl, rfl, rfl⟩ := quiet.inferIdent_inv
  obtain ⟨id', found', paired⟩ :=
    states.find? found (covers.uses (ident.name, id) List.mem_cons_self)
  obtain ⟨v', held', same⟩ := states.symbols.var paired held
  refine ⟨ident.bind id', v'.type, s'.touch ident.name id', ?_, states.touch paired (by rw [held]; rfl),
    ⟨rfl, rfl⟩, same⟩
  refine Quiet.bind ⟨rfl, rfl⟩ ?_
  simp only [found']
  refine Quiet.bind (Quiet.change rfl) ?_
  rw [held']
  exact .pure

/-- The target of a conversion has a counterpart, and so has a callee that is none, if it is found. -/
theorem conversion?_parallels {callee : Expr} {s s' t : State} {found : Option (Expr × Ty)}
    (states : w.States nested s s') (quiet : Succeeds (conversion? ctx callee) s found t)
    (covers : w.Covers t)
    (defined : ∀ ident, callee.form = .ident ident → (s.scopes.find? ident.name).isSome) :
    ∃ found' t', Succeeds (conversion? ctx' callee) s' found' t' ∧ w.States nested t t' ∧
      Option.Rel (fun node node' => Expr.NoWorse node.1 node'.1 ∧ Ty.Matches w.pairs node.2 node'.2)
        found found' := by
  obtain ⟨place, form, old⟩ := callee
  unfold conversion? at quiet ⊢
  cases form with
  | type spec =>
    refine ParallelsAttempt.attempt (.resolve spec) (fun target target' same => .succeed (.some ?_))
      s s' states found t quiet covers
    exact ⟨(Expr.NoWorse.refl _).withType fun known => same.known.trans known, same⟩
  | ident ident =>
    obtain ⟨id, held⟩ := Option.isSome_iff_exists.mp (defined ident rfl)
    obtain ⟨_, s, read, rest⟩ := quiet.attempt_inv
    obtain ⟨rfl, rfl⟩ := read.lift_inv.state_inv
    simp only [held] at rest
    obtain ⟨_, s₂, touched, rest⟩ := rest.attempt_inv
    obtain rfl := touched.lift_inv.change_inv
    obtain ⟨id', held', paired⟩ := states.find? held fun old =>
      (covers.of_grows rest.grows).uses (ident.name, id) List.mem_cons_self old
    obtain ⟨symbol, there, -⟩ := states.named.find? held
    have touched : w.States nested (s.touch ident.name id) (s'.touch ident.name id') :=
      states.touch paired (by rw [there]; rfl)
    have same := states.symbols.declaredType? paired there
    generalize declared : s.symbols.declaredType? id = target,
      declared' : s'.symbols.declaredType? id' = target' at same
    simp only [declared] at rest
    -- the callee is a type on both sides or on none
    cases same with
    | none =>
      obtain ⟨rfl, rfl⟩ := rest.succeed_inv
      refine ⟨none, _, Quiet.attempt (Quiet.lift ⟨rfl, rfl⟩) ?_, touched, .none⟩
      simp only [held']
      refine Quiet.attempt (Quiet.lift (Quiet.change rfl)) ?_
      simp only [declared']
      exact .pure
    | @some target target' matching =>
      obtain ⟨rfl, rfl⟩ := rest.succeed_inv
      refine ⟨some (⟨place, .ident (ident.bind id'), target'⟩, target'), _,
        Quiet.attempt (Quiet.lift ⟨rfl, rfl⟩) ?_, touched, .some ⟨.mk_form (.ident rfl rfl) ?_, matching⟩⟩
      · simp only [held']
        refine Quiet.attempt (Quiet.lift (Quiet.change rfl)) ?_
        simp only [declared']
        exact .pure
      · exact fun known => matching.known.trans known
  | _ => exact ParallelsAttempt.succeed .none s s' states found t quiet covers

/-- A jump finds a loop or a label wherever the other one does. -/
theorem resolveJump_parallels (around : w.Around ctx ctx') {jump : Jump} (a : Unit)
    (resolved : (resolveJump ctx jump position).2 = .ok a) :
    (resolveJump ctx' jump position').2 = .ok () := by
  have loops : ∀ label, ctx'.loop? label = ctx.loop? label := by
    intro label
    cases label <;> simp only [Context.loop?, around.loops]
  simp only [resolveJump, loops] at resolved ⊢
  obtain ⟨kind, label, symbol, target⟩ := jump
  cases kind with
  | goto =>
    cases label with
    | none => cases resolved
    | some name =>
      have found := around.label? name
      dsimp only [Option.bind_some] at resolved ⊢
      generalize ctx.label? name = id, ctx'.label? name = id' at found resolved ⊢
      cases found with
      | none => cases resolved
      | some => rfl
  | _ =>
    dsimp only at resolved ⊢
    cases found : ctx.loop? label with
    | none =>
      rw [found] at resolved
      cases resolved
    | some => rfl

theorem returnTypes_parallels (around : w.Around ctx ctx') {count : Nat} {types : List Ty}
    (returned : returnTypes ctx count position = .ok types) :
    ∃ types', returnTypes ctx' count position' = .ok types' ∧
      List.Forall₂ (Ty.Matches w.pairs) types types' := by
  have frames := around.frame
  unfold returnTypes at returned ⊢
  generalize ctx.frame = frame, ctx'.frame = frame' at frames returned ⊢
  cases frames with
  | none => cases returned
  | @some frame frame' same =>
    obtain ⟨same, named⟩ := same
    have empty : frame'.types = [] ↔ frame.types = [] := by
      rw [← List.length_eq_zero_iff, ← List.length_eq_zero_iff, same.length_eq]
    simp only [← same.length_eq, named, empty] at returned ⊢
    split at returned
    case isTrue bare =>
      cases returned
      exact ⟨[], if_pos bare, .nil⟩
    case isFalse full =>
      rw [if_neg full]
      split at returned
      case isTrue one =>
        cases returned
        exact ⟨_, if_pos one, .cons (.tuple same) .nil⟩
      case isFalse several =>
        rw [if_neg several]
        split at returned
        case isTrue each =>
          cases returned
          exact ⟨_, if_pos each, same⟩
        case isFalse => cases returned

/-! ## Declarations -/

/-- A name that is looked at is free in both runs, if there is room for it. -/
theorem ParallelsAttempt.declare {symbol symbol' : Symbol}
    (same : Symbol.Matches w.pairs symbol symbol') (seen : nested = true ∨ w.shared symbol.name) :
    ParallelsAttempt w nested (Typing.declare ctx symbol position (.ok ()))
      (Typing.declare ctx' symbol' position' (.ok ())) fun _ _ => True := by
  intro s s' states id t quiet covers
  obtain ⟨free, rfl, rfl⟩ := quiet.declare_inv
  obtain ⟨free', behind⟩ := states.insertNamed (Parallel.room_of_insert covers.size) same free seen
  exact ⟨_, _, ⟨run_declare_of_free free' position' (.ok ()), rfl⟩, behind, True.intro⟩

theorem declareParam_parallels (param : Param) {type type' : Ty} (same : Ty.Matches w.pairs type type') :
    (declareParam ctx param type).ParallelsNode w true (declareParam ctx' param type')
      (fun _ _ => True) fun _ _ => True := by
  unfold declareParam
  split
  · exact .pure True.intro True.intro
  · exact .given (.declare (.var rfl same) (Or.inl rfl)) fun _ _ _ => .pure True.intro True.intro

theorem declareParams_parallels (params : List Param) : ∀ {types types' : List Ty},
    List.Forall₂ (Ty.Matches w.pairs) types types' →
      (declareParams ctx params types).Parallels w true (declareParams ctx' params types')
        fun _ _ => True := by
  induction params with
  | nil => exact fun _ => .pure True.intro
  | cons param params hypothesis =>
    intro types types' typed
    cases typed with
    | nil => exact .pure True.intro
    | cons first others =>
      exact .bind (declareParam_parallels param first).recorded fun _ _ _ =>
        .bind (hypothesis others) fun _ _ _ => .pure True.intro

theorem declareReceiver_parallels (receiver : Option Param) {type type' : Option Ty}
    (same : Option.Rel (Ty.Matches w.pairs) type type') :
    (declareReceiver ctx receiver type).Parallels w true (declareReceiver ctx' receiver type')
      fun _ _ => True := by
  cases receiver with
  | none => exact .pure True.intro
  | some param =>
    cases same with
    | none => exact .pure True.intro
    | some same =>
      exact .bind (declareParam_parallels param same).recorded fun _ _ _ => .pure True.intro

/-- Whether two declarations declare the same name and nothing more is left over of the initial value. -/
def VarDecl.NoWorse (decl decl' : VarDecl) : Prop :=
  decl'.name = decl.name ∧ NoMoreLeft Expr.walkOption decl.value decl'.value

/-- A variable is declared by a run only where its check has succeeded. -/
theorem declareVar_parallels {decl decl' : VarDecl} {type type' : Ty} {init init' : Option StmtId}
    {result : Except Diagnostic Unit} (same : VarDecl.NoWorse decl decl')
    (typed : Ty.Matches w.pairs type type') (seen : nested = true ∨ w.shared decl.name) :
    (declareVar ctx decl type init result).ParallelsNode w nested
      (declareVar ctx' decl' type' init' (.ok ())) VarDecl.NoWorse fun _ _ => True := by
  cases result with
  | ok =>
    exact .given (.declare (.var same.1 typed) seen) fun _ _ _ => .pure same True.intro
  | error err =>
    intro s s' states node a t quiet covers
    cases quiet.declareVar_inv.1

theorem declareLabels_parallels (statements : List Stmt) : ∀ {labels labels' : NameMap SymbolId},
    (∀ name, Option.Rel w.pairs (labels.find? name) (labels'.find? name)) →
      (declareLabels ctx labels statements).Parallels w nested (declareLabels ctx' labels' statements)
        fun found found' => (∀ name, Option.Rel w.pairs (found.1.find? name) (found'.1.find? name)) ∧
          found'.2.length = found.2.length := by
  induction statements with
  | nil => exact fun same => .pure ⟨same, rfl⟩
  | cons s rest hypothesis =>
    intro labels labels' same
    rw [declareLabels, declareLabels]
    cases s.label with
    | none =>
      refine .bind (hypothesis same) ?_
      rintro ⟨_, _⟩ ⟨_, _⟩ ⟨found, length⟩
      exact .pure ⟨found, congrArg (· + 1) length⟩
    | some label =>
      refine .bind (.insertSymbol (.label rfl)) fun id id' paired => ?_
      have here := same label.name
      generalize held : labels.find? label.name = previous,
        held' : labels'.find? label.name = previous' at here
      cases here with
      | none =>
        refine .bind (hypothesis fun name => ?_) ?_
        · by_cases own : name = label.name
          · subst own
            rw [NameMap.find?_insert_self, NameMap.find?_insert_self]
            exact .some paired
          · rw [NameMap.find?_insert_of_ne _ _ own, NameMap.find?_insert_of_ne _ _ own]
            exact same name
        · rintro ⟨_, _⟩ ⟨_, _⟩ ⟨found, length⟩
          exact .pure ⟨found, congrArg (· + 1) length⟩
      | some previous =>
        -- a label that is there already is reported, and the check goes on
        refine .bind .state fun _ _ _ => .bind (.report _ _) fun _ _ _ => .bind (hypothesis same) ?_
        rintro ⟨_, _⟩ ⟨_, _⟩ ⟨found, length⟩
        exact .pure ⟨found, congrArg (· + 1) length⟩

/-! ## Types that mention themselves -/

/-- A definition that succeeds in parallel, and what is left to check behind it. -/
theorem declareType_parallels {name : String} {node node' : ν}
    {define define' : Attempt (Ty × α)} {next next' : SymbolId → α → Check (Checked ν Unit)}
    {N : ν → ν → Prop} {U : α → α → Prop} (seen : nested = true ∨ w.shared name)
    (definition : ParallelsAttempt w nested define define' fun found found' =>
      Ty.Matches w.pairs found.1 found'.1 ∧ U found.2 found'.2)
    (rest : ∀ id id' a a', w.pairs id id' → U a a' →
      (next id a).ParallelsNode w nested (next' id' a') N fun _ _ => True) :
    (declareType ctx name position node define next).ParallelsNode w nested
      (declareType ctx' name position' node' define' next') (fun both both' => N both.2 both'.2)
        fun _ _ => True := by
  intro s s' states ⟨declared, checked⟩ a t quiet covers
  obtain ⟨-, free, target, found, s₁, defined, checks⟩ := quiet.declareType_inv
  have covered : w.Covers s₁ := by
    have behind := covers.of_grows checks.grows
    refine ⟨behind.uses, ?_⟩
    have size := behind.size
    rwa [State.setAliased, SymbolTable.size_setAliased] at size
  have room := Parallel.room_of_insert (covered.of_grows defined.grows).size
  have untargeted : Symbol.Matches w.pairs (.type ⟨name, some .unknown, some (ctx.site position)⟩)
      (.type ⟨name, some .unknown, some (ctx'.site position')⟩) := .type rfl (.some .unknown)
  obtain ⟨free', declaring⟩ : s'.clash? name = none ∧
      w.States nested (s.declaring ctx name position) (s'.declaring ctx' name position') :=
    states.insertNamed room untargeted free seen
  obtain ⟨⟨target', found'⟩, s₁', defined', states₁, same, related⟩ :=
    definition _ _ declaring (target, found) s₁ defined covered
  -- the declaration is still there, without a target
  have held : s₁.symbols.get? s.symbols.nextId =
      some (.type ⟨name, some .unknown, some (ctx.site position)⟩) :=
    defined.grows.symbols.kept _ _ (s.symbols.get?_insert_nextId _)
  have paired := states.nextId room
  obtain ⟨checked', a', t', checks', states', kept, -⟩ := rest _ _ found found' paired related _ _
    (states₁.setAliased paired held same) checked a t checks covers
  exact ⟨(some s'.symbols.nextId, checked'), a', t', Quiet.declareType free' defined' checks', states',
    kept, True.intro⟩

theorem checkAlias_parallels (decl : AliasDecl) (seen : nested = true ∨ w.shared decl.name) :
    (checkAlias ctx decl position).ParallelsNode w nested (checkAlias ctx' decl position')
      (fun _ _ => True) fun _ _ => True := by
  refine .rebuild (N := fun _ _ => True) (declareType_parallels (N := fun _ _ => True)
    (U := fun _ _ => True) seen ?_ fun id id' _ _ paired _ => ?_) fun _ _ _ => True.intro
  · intro s s' states found t quiet covers
    obtain ⟨found', t', quiet', behind, same⟩ :=
      ParallelsAttempt.aliasTarget decl.name decl.target s s' states found t quiet covers
    exact ⟨found', t', quiet', behind, same, True.intro⟩
  · intro s s' states node a t quiet covers
    obtain ⟨result, s₁, rooted, rest⟩ := quiet.bind_inv
    obtain ⟨same, rfl⟩ := rest.pure_inv
    obtain ⟨-, rfl⟩ := Prod.mk.inj same
    obtain ⟨a', t', rooted', behind, -⟩ :=
      ParallelsAttempt.aliasRoot paired decl.name s s' states a _ rooted covers
    exact ⟨(), a', t', Quiet.bind rooted' .pure, behind, True.intro, True.intro⟩

end PackageCheck.Typing
