import PackageCheck.Proofs.Typing.Upkeep

/-! # What single rules come to is valid

The handles in what the checks of specifications, names, operators, layouts and declarations come
to. None of them goes into the parts of a tree. -/

namespace PackageCheck.Typing

open Check

variable {world : World} {ctx : Context}

/-! ## Surroundings -/

/-- Whether the loops, the labels and the results around a node are valid. -/
structure Context.ValidIn (ctx : Context) (world : World) : Prop where
  loops : ∀ loop ∈ ctx.loops, world.IsLoop loop.1
  labels : ∀ labels ∈ ctx.labels, ∀ name id, labels.find? name = some id → world.HasLabel id name
  frame : ∀ frame, ctx.frame = some frame → Ty.AllValidIn world frame.types

namespace Context.ValidIn

/-- At the top of a file. -/
theorem top (file : String) : Context.ValidIn { file := file } world where
  loops := nofun
  labels := nofun
  frame := nofun

theorem ofBody {results : List Param} {signature : Signature}
    (valid : Ty.AllValidIn world signature.results) :
    (ctx.ofBody results signature).ValidIn world where
  loops := nofun
  labels := nofun
  frame frame same := by
    cases same
    exact valid

theorem addLabels {labels : NameMap SymbolId} (around : ctx.ValidIn world)
    (own : ∀ name id, labels.find? name = some id → world.HasLabel id name) :
    Context.ValidIn { ctx with labels := labels :: ctx.labels } world where
  loops := around.loops
  labels := List.forall_mem_cons.mpr ⟨own, around.labels⟩
  frame := around.frame

theorem addLoop {id : StmtId} (around : ctx.ValidIn world) (label : Option String)
    (own : world.IsLoop id) :
    Context.ValidIn { ctx with loops := (id, label) :: ctx.loops } world where
  loops := List.forall_mem_cons.mpr ⟨own, around.loops⟩
  labels := around.labels
  frame := around.frame

theorem label? {name : String} {id : SymbolId} (around : ctx.ValidIn world)
    (found : ctx.label? name = some id) : world.HasLabel id name := by
  obtain ⟨labels, member, held⟩ := List.exists_of_findSome?_eq_some found
  exact around.labels labels member name id held

theorem loop? {label : Option String} {id : StmtId} (around : ctx.ValidIn world)
    (found : ctx.loop? label = some id) : world.IsLoop id := by
  cases label with
  | none =>
    obtain ⟨loop, first, rfl⟩ := Option.map_eq_some_iff.mp found
    exact around.loops loop (List.mem_of_mem_head? first)
  | some name =>
    obtain ⟨loop, first, rfl⟩ := Option.map_eq_some_iff.mp found
    exact around.loops loop (List.mem_of_find?_eq_some first)

end Context.ValidIn

/-! ## Specifications -/

theorem resolveName_valid (name : String) (position : Position) :
    (resolveName ctx name position).run.Upholds world (Succeeding (Ty.ValidIn world)) := by
  refine .attempt (.lift .state) fun s ⟨_, kept⟩ => ?_
  split
  case h_1 id _ =>
    refine .attempt (.lift (.touch _ _)) fun _ _ => ?_
    split
    case h_1 type declared => exact .succeed (kept.validIn_declaredType? declared)
    case h_2 => exact .fail _
  case h_2 =>
    split
    · exact .fail _
    · exact .fail _

mutual

theorem resolve_valid : ∀ spec : TypeSpec,
    (resolve ctx spec).run.Upholds world (Succeeding (Ty.ValidIn world))
  | .named name position => by
    rw [resolve]
    exact resolveName_valid name position
  | .array size of => by
    rw [resolve]
    exact .attempt (resolve_valid of) fun type valid => .succeed valid
  | .slice of => by
    rw [resolve]
    exact .attempt (resolve_valid of) fun type valid => .succeed valid
  | .map key value => by
    rw [resolve]
    refine .attempt (resolve_valid key) fun keyType validKey => ?_
    exact .attempt (resolve_valid value) fun type valid => .succeed ⟨validKey, valid⟩
  | .pointer pointee => by
    rw [resolve]
    exact .attempt (resolve_valid pointee) fun type valid => .succeed valid
  | .tuple members => by
    rw [resolve]
    exact .attempt (resolveList_valid members) fun types valid => .succeed valid
  | .func args results => by
    rw [resolve]
    refine .attempt (resolveList_valid args) fun argTypes validArgs => ?_
    exact .attempt (resolveList_valid results) fun types valid => .succeed ⟨validArgs, valid⟩
  | .blank => by
    rw [resolve]
    exact .succeed True.intro

theorem resolveList_valid : ∀ specs : List TypeSpec,
    (resolveList ctx specs).run.Upholds world (Succeeding (Ty.AllValidIn world))
  | [] => by
    rw [resolveList]
    exact .succeed True.intro
  | spec :: rest => by
    rw [resolveList]
    refine .attempt (resolve_valid spec) fun type own => ?_
    exact .attempt (resolveList_valid rest) fun types others => .succeed ⟨own, others⟩

end

theorem resolveOr_valid {absent : Ty} (spec : Option TypeSpec) (own : absent.ValidIn world) :
    (resolveOr ctx absent spec).run.Upholds world (Succeeding (Ty.ValidIn world)) := by
  cases spec with
  | none => exact .succeed own
  | some spec => exact resolve_valid spec

theorem receiverType_valid (receiver : Option Param) :
    (receiverType ctx receiver).run.Upholds world
      (Succeeding fun found => ∀ type, found = some type → type.ValidIn world) := by
  cases receiver with
  | none => exact .succeed nofun
  | some receiver =>
    refine .attempt (resolve_valid _) fun type valid => .succeed fun type' same => ?_
    exact Option.some.inj same ▸ valid

theorem signature_valid (params results : List Param) :
    (signature ctx params results).run.Upholds world (Succeeding (Signature.ValidIn world)) := by
  refine .attempt (resolveList_valid _) fun args validArgs => ?_
  exact .attempt (resolveList_valid _) fun types valid => .succeed ⟨validArgs, valid⟩

theorem funcType_valid (func : Func) :
    (funcType ctx func).run.Upholds world (Succeeding fun found =>
      (∀ type, found.1 = some type → type.ValidIn world) ∧ found.2.ValidIn world) := by
  refine .attempt (receiverType_valid _) fun receiver own => ?_
  exact .attempt (signature_valid _ _) fun found valid => .succeed ⟨own, valid⟩

/-! ## Declared types -/

theorem fieldTypes_valid (fields : List FieldDecl) : ∀ before : List FieldTy,
    (∀ field ∈ before, field.type.ValidIn world) →
      (fieldTypes ctx before fields).run.Upholds world
        (Succeeding fun found => ∀ field ∈ found, field.type.ValidIn world) := by
  induction fields with
  | nil => exact fun before valid => .succeed valid
  | cons field rest hypothesis =>
    intro before valid
    have others : ∀ type : Ty, type.ValidIn world →
        (fieldTypes ctx (before ++ [⟨field.name, type⟩]) rest).run.Upholds world
          (Succeeding fun found => ∀ field ∈ found, field.type.ValidIn world) := by
      intro type own
      refine hypothesis _ fun other member => ?_
      rcases List.mem_append.mp member with member | member
      · exact valid other member
      · rw [List.mem_singleton.mp member]
        exact own
    -- a name that was there before ends the walk
    rw [fieldTypes]
    split
    · exact .attempt (.fail (Q := fun _ => True) _) fun _ _ => .attempt (resolve_valid _) others
    · exact .attempt (resolve_valid _) others

theorem methodTypes_valid (position : Position) (fields : List FieldTy) (methods : List Func) :
    ∀ before : List MethodTy, (∀ method ∈ before, method.signature.ValidIn world) →
      (methodTypes ctx position fields before methods).run.Upholds world
        (Succeeding fun found => ∀ method ∈ found, method.signature.ValidIn world) := by
  induction methods with
  | nil => exact fun before valid => .succeed valid
  | cons method rest hypothesis =>
    intro before valid
    have others : ∀ type : Signature, type.ValidIn world →
        (methodTypes ctx position fields (before ++ [⟨method.name.getD "", type⟩]) rest).run.Upholds
          world (Succeeding fun found => ∀ method ∈ found, method.signature.ValidIn world) := by
      intro type own
      refine hypothesis _ fun other member => ?_
      rcases List.mem_append.mp member with member | member
      · exact valid other member
      · rw [List.mem_singleton.mp member]
        exact own
    rw [methodTypes]
    split
    · exact .attempt (.fail (Q := fun _ => True) _) fun _ _ => .attempt (signature_valid _ _) others
    · exact .attempt (signature_valid _ _) others

theorem structTarget_valid (name : String) (position : Position) (fields : List FieldDecl)
    (methods : List Func) :
    (structTarget ctx name position fields methods).run.Upholds world (Succeeding fun found =>
      found.1.ValidIn world ∧ ∀ signature ∈ found.2, signature.ValidIn world) := by
  refine .attempt (fieldTypes_valid fields [] nofun) fun fields validFields => ?_
  refine .attempt (methodTypes_valid position fields methods [] nofun) fun methods valid => ?_
  refine .succeed ⟨⟨?_, ?_⟩, List.forall_mem_map.mpr valid⟩
  · exact FieldTy.allValidIn_iff.mpr validFields
  · exact MethodTy.allValidIn_iff.mpr valid

theorem aliasTarget_valid (name : String) (position : Position) (target : TypeSpec) :
    (aliasTarget ctx name position target).run.Upholds world
      (Succeeding fun found => found.1.ValidIn world ∧ True) := by
  refine .attempt (resolve_valid _) fun type valid => ?_
  split
  · exact .attempt (.fail (Q := fun _ => True) _) fun _ _ => .succeed ⟨valid, True.intro⟩
  · exact .succeed ⟨valid, True.intro⟩

theorem aliasRoot_valid (id : SymbolId) (name : String) (position : Position) :
    (aliasRoot ctx id name position).run.Upholds world (Succeeding fun _ => True) := by
  refine .attempt (.lift .state) fun s _ => ?_
  split
  · exact .succeed True.intro
  · exact .fail _

theorem checkAlias_valid {decl : AliasDecl} (position : Position)
    (own : (Finding.typeDecl decl.name decl.symbol).ValidIn world) :
    (checkAlias ctx decl position).UpholdsNode world
      (fun decl => (Finding.typeDecl decl.name decl.symbol).ValidIn world) fun _ => True := by
  refine .rebuild (.declareType (N := fun _ => True) (W := fun _ => True) True.intro
    (aliasTarget_valid _ _ _) fun id _ _ _ => ?_) fun (declared, _) ⟨named, _⟩ => ?_
  · exact .bind (aliasRoot_valid _ _ _) fun _ _ => .pure True.intro (succeeding_true _)
  · intro id found
    rcases Option.or_eq_some_iff.mp found with new | ⟨-, old⟩
    · exact named id new
    · exact own id old

/-! ## Names -/

theorem inferIdent_valid {ident : Ident} (position : Position)
    (own : (Finding.ident ident).ValidIn world) :
    (inferIdent ctx ident position).UpholdsNode world
      (fun ident => (Finding.ident ident).ValidIn world) (Ty.ValidIn world) := by
  refine UpholdsNode.bind .state fun s ⟨valid, kept⟩ => ?_
  split
  case h_1 => exact .pure own True.intro
  case h_2 id found =>
    refine UpholdsNode.bind (.touch _ _) fun _ _ => .pure (fun other same => ?_) ?_
    -- the name is bound to what was found, also if that is no variable
    · exact Option.some.inj same ▸ valid.find? kept found
    · split
      case h_1 var held => exact (valid.symbols id _ held).1
      case h_2 => exact True.intro
      case h_3 => exact True.intro

theorem conversion?_valid {callee : Expr} (listed : world.Allows callee.findings) :
    (conversion? ctx callee).run.Upholds world (Succeeding fun found =>
      ∀ target, found = some target →
        world.Allows target.1.findings ∧ target.2.ValidIn world) := by
  obtain ⟨position, form, type⟩ := callee
  have inside : world.Allows form.findings := (World.allows_cons.mp listed).2
  unfold conversion?
  split
  case h_1 spec same =>
    refine .attempt (resolve_valid spec) fun type valid => .succeed fun target found => ?_
    cases found
    exact ⟨World.allows_cons.mpr ⟨valid, inside⟩, valid⟩
  case h_2 ident same =>
    refine .attempt (.lift .state) fun s ⟨valid, kept⟩ => ?_
    split
    · exact .succeed nofun
    case h_2 id found =>
      refine .attempt (.lift (.touch _ _)) fun _ _ => ?_
      split
      · exact .succeed nofun
      case h_2 type declared =>
        refine .succeed fun target same => ?_
        cases same
        have own := kept.validIn_declaredType? declared
        refine ⟨World.allows_cons.mpr ⟨own, World.allows_cons.mpr ⟨?_, World.allows_nil⟩⟩, own⟩
        intro other same
        exact Option.some.inj same ▸ valid.find? kept found
  case h_3 => exact .succeed nofun

/-! ## Operators -/

theorem underlying_valid {type : Ty} (position : Position) (own : type.ValidIn world) :
    (underlying ctx type position).run.Upholds world (Succeeding (Ty.ValidIn world)) := by
  refine .attempt (.lift .state) fun s ⟨valid, _⟩ => ?_
  split
  case h_1 root found => exact .succeed (valid.symbols.underlying own found)
  case h_2 => exact .fail _

theorem checkOperand_valid {type : Ty} (op : String) (allowString : Bool) (position : Position)
    (own : type.ValidIn world) :
    (checkOperand ctx op allowString type position).run.Upholds world
      (Succeeding fun _ => True) := by
  refine .attempt (underlying_valid _ own) fun root _ => ?_
  split
  · exact .fail _
  · exact .succeed True.intro

theorem binaryType_valid {operand : Ty} (op : BinaryOp) (position : Position)
    (own : operand.ValidIn world) :
    (binaryType ctx op operand position).run.Upholds world (Succeeding (Ty.ValidIn world)) := by
  unfold binaryType
  split
  · exact .succeed True.intro
  · exact .attempt (checkOperand_valid _ _ _ own) fun _ _ => .succeed own

theorem signType_valid {operand : Ty} (op : UnaryOp) (position : Position)
    (own : operand.ValidIn world) :
    (signType ctx op operand position).run.Upholds world (Succeeding (Ty.ValidIn world)) :=
  .attempt (checkOperand_valid _ _ _ own) fun _ _ => .succeed own

theorem derefType_valid {operand : Ty} (position : Position) (own : operand.ValidIn world) :
    (derefType ctx operand position).run.Upholds world (Succeeding (Ty.ValidIn world)) := by
  refine .attempt (underlying_valid _ own) fun root valid => ?_
  split
  · exact .succeed valid
  · exact .fail _

theorem pointeeHint_valid {hint : Ty} (own : hint.ValidIn world) :
    (pointeeHint hint).ValidIn world := by
  cases hint with
  | pointer pointee => exact own
  | _ => exact True.intro

/-! ## Members -/

theorem indexTypes_valid {left : Ty} (position : Position) (own : left.ValidIn world) :
    (indexTypes ctx left position).run.Upholds world
      (Succeeding fun found => found.1.ValidIn world ∧ found.2.ValidIn world) := by
  refine .attempt (underlying_valid _ own) fun root valid => ?_
  split
  · exact .succeed ⟨True.intro, valid⟩
  · exact .succeed ⟨True.intro, valid⟩
  · exact .succeed valid
  · exact .succeed ⟨True.intro, True.intro⟩
  · exact .fail _

theorem memberType?_valid {base type : Ty} {member : String} (valid : base.ValidIn world)
    (found : memberType? base member = some type) : type.ValidIn world := by
  cases base with
  | struct layout =>
    rcases Option.or_eq_some_iff.mp found with field | ⟨-, method⟩
    · exact StructTy.ValidIn.field? valid field
    · obtain ⟨signature, named, rfl⟩ := Option.map_eq_some_iff.mp method
      exact StructTy.ValidIn.method? valid named
  | _ => cases found

theorem selectorType_valid {left : Ty} (member : String) (position : Position)
    (own : left.ValidIn world) :
    (selectorType ctx left member position).run.Upholds world (Succeeding (Ty.ValidIn world)) := by
  have reached : (memberBase ctx left position).run.Upholds world
      (Succeeding (Ty.ValidIn world)) := by
    refine .attempt (.lift .state) fun s ⟨valid, _⟩ => ?_
    split
    case h_1 base found => exact .succeed (valid.symbols.memberBase own found)
    case h_2 => exact .fail _
  refine .attempt reached fun base valid => ?_
  split
  case h_1 type typed => exact .succeed (memberType?_valid valid typed)
  case h_2 => exact .fail _

theorem callSignature_valid {callee : Ty} (count : Nat) (position : Position)
    (own : callee.ValidIn world) :
    (callSignature ctx callee count position).run.Upholds world
      (Succeeding (Signature.ValidIn world)) := by
  refine .attempt (underlying_valid _ own) fun root valid => ?_
  split
  · split
    · exact .succeed valid
    · exact .fail _
  · exact .fail _

/-! ## Agreement -/

/-- Whether the check of an expression keeps all handles valid, and comes to valid findings and a
    valid type. -/
abbrev Check.UpholdsExpr (world : World) (check : Check (Checked Expr Ty)) : Prop :=
  check.UpholdsNode world (fun e => world.Allows e.findings) (Ty.ValidIn world)

theorem settle_valid {expected found : Ty} {e : Expr} (what : String) (site : Site)
    (own : expected.ValidIn world) (listed : world.Allows e.findings)
    (valid : found.ValidIn world) :
    world.Allows (settle what site expected e found).1.findings ∧
      Succeeding (Ty.ValidIn world) (settle what site expected e found).2 := by
  obtain ⟨position, form, type⟩ := e
  unfold settle
  split
  case h_1 common agreed =>
    have type := Ty.validIn_negotiate own valid agreed
    refine ⟨?_, type⟩
    split
    · exact listed
    · exact World.allows_cons.mpr ⟨type, (World.allows_cons.mp listed).2⟩
  case h_2 => exact ⟨listed, True.intro⟩

theorem agreeing_valid {expected : Ty} {check : Check (Checked Expr Ty)} (what : String)
    (site : Expr → Site) (own : expected.ValidIn world) (inside : check.UpholdsExpr world) :
    (agreeing what site expected check).UpholdsExpr world := by
  refine UpholdsNode.bind inside fun (e, result) ⟨listed, value⟩ => ?_
  cases result with
  | ok found =>
    have ⟨node, type⟩ := settle_valid what (site e) own listed value
    exact .pure node type
  | error err => exact .pure listed True.intro

theorem expecting_valid {expected : Ty} {infer : Ty → Check (Checked Expr Ty)}
    (own : expected.ValidIn world) (inside : (infer expected).UpholdsExpr world) :
    (expecting ctx expected infer).UpholdsExpr world :=
  agreeing_valid _ _ own inside

/-! ## Jumps and returns -/

theorem resolveJump_valid {jump : Jump} (around : ctx.ValidIn world) (position : Position)
    (own : (Finding.jump jump).ValidIn world) :
    (Finding.jump (resolveJump ctx jump position).1).ValidIn world := by
  have labelled : ∀ id, jump.label.bind ctx.label? = some id →
      ∃ name, jump.label = some name ∧ world.HasLabel id name := by
    intro id found
    obtain ⟨name, written, held⟩ := Option.bind_eq_some_iff.mp found
    exact ⟨name, written, around.label? held⟩
  unfold resolveJump
  dsimp only
  split
  -- a goto has a label and no loop
  · split
    case h_1 id found =>
      exact ⟨fun other same => labelled other (found.trans same), nofun⟩
    case h_2 => exact own
  · split
    case h_1 target found =>
      exact ⟨labelled, fun id same => around.loop? (found.trans same)⟩
    case h_2 => exact own

theorem returnTypes_valid (around : ctx.ValidIn world) (count : Nat) (position : Position) :
    Succeeding (Ty.AllValidIn world) (returnTypes ctx count position) := by
  unfold returnTypes
  split
  case h_1 => exact True.intro
  case h_2 frame held =>
    have valid := around.frame frame held
    split
    · exact True.intro
    · split
      · exact ⟨valid, True.intro⟩
      · split
        · exact valid
        · exact True.intro

/-! ## Layouts -/

/-- Whether the types that a layout wants are valid. -/
def Layout.ValidIn (world : World) : Layout → Prop
  | .array _ of _ | .slice of => of.ValidIn world
  | .map key value => key.ValidIn world ∧ value.ValidIn world
  | .positional fields => FieldTy.AllValidIn world fields
  | .keyed layout => layout.ValidIn world

namespace Layout.ValidIn

variable {layout : Layout}

theorem keyType? {type : Ty} (valid : layout.ValidIn world) (keyed : layout.keyType? = some type) :
    type.ValidIn world := by
  cases layout with
  | array size of index =>
    cases keyed
    exact True.intro
  | slice of =>
    cases keyed
    exact True.intro
  | map key value =>
    cases keyed
    exact valid.1
  | positional fields => cases keyed
  | keyed fields => cases keyed

theorem typeKey {key : Expr} (valid : layout.ValidIn world)
    (listed : world.Allows key.findings) :
    world.Allows (layout.typeKey key).findings := by
  obtain ⟨position, form, type⟩ := key
  unfold Layout.typeKey
  split
  case h_1 fields =>
    split
    case h_1 type found =>
      obtain ⟨ident, -, field⟩ := Option.bind_eq_some_iff.mp found
      have own := StructTy.ValidIn.field? valid field
      exact World.allows_cons.mpr ⟨own, (World.allows_cons.mp listed).2⟩
    case h_2 => exact listed
  case h_2 => exact listed

theorem next (valid : layout.ValidIn world) (key : Option Expr) (position : Position) :
    Succeeding (fun found => found.1.ValidIn world ∧ found.2.ValidIn world)
      (layout.next ctx key position) := by
  cases layout with
  | array size of index =>
    unfold Layout.next
    dsimp only
    split
    · exact ⟨valid, valid⟩
    · exact True.intro
  | slice of => exact ⟨valid, valid⟩
  | map keyType valueType =>
    cases key with
    | none => exact True.intro
    | some key => exact ⟨valid.2, valid⟩
  | positional fields =>
    cases fields with
    | nil => exact True.intro
    | cons field rest =>
      obtain ⟨name, type⟩ := field
      exact valid
  | keyed fields =>
    unfold Layout.next
    dsimp only
    split
    · exact True.intro
    · split
      · exact True.intro
      · split
        case h_1 => exact True.intro
        case h_2 found => exact ⟨StructTy.ValidIn.field? valid found, valid⟩

end Layout.ValidIn

theorem structLayout_valid {struct : StructTy} (valid : struct.ValidIn world)
    (elements : List Element) (position : Position) :
    Succeeding (Layout.ValidIn world) (structLayout ctx struct elements position) := by
  obtain ⟨name, fields, methods⟩ := struct
  unfold structLayout
  dsimp only
  split
  · split
    · exact valid.1
    · exact True.intro
  · split
    · exact valid
    · exact True.intro

theorem layoutOf_valid {type : Ty} (elements : List Element) (position : Position)
    (own : type.ValidIn world) :
    (layoutOf ctx type elements position).run.Upholds world
      (Succeeding (Layout.ValidIn world)) := by
  refine .attempt (underlying_valid _ own) fun root valid => ?_
  split
  · exact .succeed valid
  · exact .succeed valid
  · exact .succeed valid
  · exact .ofExcept (structLayout_valid valid _ _)
  · exact .fail _

theorem compoundType_valid {hint : Ty} (spec : Option TypeSpec) (position : Position)
    (own : hint.ValidIn world) :
    (compoundType ctx spec hint position).run.Upholds world (Succeeding (Ty.ValidIn world)) := by
  refine .attempt (resolveOr_valid spec own) fun type valid => ?_
  split
  · exact .succeed valid
  · exact .fail _

/-! ## Declarations -/

theorem declareParam_valid {param : Param} {type : Ty} (ctx : Context)
    (own : (Finding.param param).ValidIn world) (typed : type.ValidIn world) :
    (declareParam ctx param type).UpholdsNode world
      (fun param => (Finding.param param).ValidIn world) fun _ => True := by
  unfold declareParam
  split
  case h_1 => exact .pure own True.intro
  case h_2 name named =>
    refine .given (.declare ⟨typed, nofun⟩ fun id there => Or.inl there) own fun id there => ?_
    refine .pure (fun other same => ?_) True.intro
    exact ⟨name, named, Option.some.inj same ▸ there⟩

theorem declareParams_valid (ctx : Context) (params : List Param) : ∀ types : List Ty,
    (∀ param ∈ params, (Finding.param param).ValidIn world) → Ty.AllValidIn world types →
      (declareParams ctx params types).Upholds world fun params =>
        ∀ param ∈ params, (Finding.param param).ValidIn world := by
  induction params with
  | nil => exact fun types own _ => .pure own
  | cons param params hypothesis =>
    intro types own typed
    cases types with
    | nil => exact .pure own
    | cons type types =>
      have ⟨head, tail⟩ := List.forall_mem_cons.mp own
      refine .bind (declareParam_valid ctx head typed.1).recorded fun param' first => ?_
      refine .bind (hypothesis types tail typed.2) fun params' others => ?_
      exact .pure (List.forall_mem_cons.mpr ⟨first, others⟩)

theorem declareReceiver_valid {receiver : Option Param} {type : Option Ty} (ctx : Context)
    (own : ∀ param ∈ receiver.toList, (Finding.param param).ValidIn world)
    (typed : ∀ found, type = some found → found.ValidIn world) :
    (declareReceiver ctx receiver type).Upholds world fun receiver =>
      ∀ param ∈ receiver.toList, (Finding.param param).ValidIn world := by
  unfold declareReceiver
  split
  case h_1 param found =>
    have first := own param (Option.mem_toList.mpr rfl)
    refine .bind (declareParam_valid ctx first (typed found rfl)).recorded fun param' valid => ?_
    exact .pure fun other member => Option.some.inj (Option.mem_toList.mp member) ▸ valid
  case h_2 => exact .pure own

theorem declareVar_valid {decl : VarDecl} {type : Ty} {init : Option StmtId} (ctx : Context)
    (result : Except Diagnostic Unit) (own : world.AllowsVar decl) (typed : type.ValidIn world)
    (listed : ∀ id, init = some id → world.IsStmt id) :
    (declareVar ctx decl type init result).UpholdsNode world world.AllowsVar fun _ => True := by
  refine .given (.declare ⟨typed, listed⟩ fun id there => Or.inl there) own fun id there => ?_
  refine .pure ⟨fun other same => ?_, own.2⟩ (succeeding_true _)
  exact Option.some.inj same ▸ there

/-- The labels of a block lead to its labels, and each statement gets a label back that does. -/
theorem declareLabels_valid (ctx : Context) (statements : List Stmt) :
    ∀ labels : NameMap SymbolId, world.Allows (Stmt.findingsList statements) →
      (∀ name id, labels.find? name = some id → world.HasLabel id name) →
        (declareLabels ctx labels statements).Upholds world fun declared =>
          (∀ name id, declared.1.find? name = some id → world.HasLabel id name) ∧
            ∀ label, some label ∈ declared.2 → (Finding.label label).ValidIn world := by
  induction statements with
  | nil => exact fun labels _ held => .pure ⟨held, nofun⟩
  | cons s rest hypothesis =>
    intro labels listed held
    have ⟨own, others⟩ := World.allows_append.mp listed
    obtain ⟨id, position, label, form⟩ := s
    have ⟨number, inside⟩ := World.allows_cons.mp own
    rw [declareLabels]
    cases label with
    | none =>
      refine .bind (hypothesis labels others held) fun declared ⟨found, labelled⟩ => ?_
      refine .pure ⟨found, fun label member => ?_⟩
      rcases List.mem_cons.mp member with same | member
      · cases same
      · exact labelled label member
    | some label =>
      have written : (Finding.label label).ValidIn world :=
        (World.allows_append.mp inside).1 _ List.mem_cons_self
      refine .bind (.insertSymbol fun loop same => ?_) fun symbol there => ?_
      · split at same
        case isTrue isLoop => exact Option.some.inj same ▸ number.2 isLoop
        case isFalse => cases same
      · dsimp only
        split
        -- only the first label of a name gets into the block
        · refine .bind (hypothesis _ others fun name id found => ?_)
            fun declared ⟨found, labelled⟩ => .pure ⟨found, fun other member => ?_⟩
          · by_cases same : name = label.name
            · subst same
              rw [NameMap.find?_insert_self] at found
              exact Option.some.inj found ▸ there
            · rw [NameMap.find?_insert_of_ne _ _ same] at found
              exact held name id found
          · rcases List.mem_cons.mp member with same | member
            · cases same
              intro found same
              exact Option.some.inj same ▸ there
            · exact labelled other member
        · refine .bind .state fun _ _ => .bind (.report _) fun _ _ => ?_
          refine .bind (hypothesis labels others held) fun declared ⟨found, labelled⟩ => ?_
          refine .pure ⟨found, fun other member => ?_⟩
          rcases List.mem_cons.mp member with same | member
          · cases same
            exact written
          · exact labelled other member

end PackageCheck.Typing
