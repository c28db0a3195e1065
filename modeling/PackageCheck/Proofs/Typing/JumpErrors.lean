import PackageCheck.Proofs.Tree.OwnJump
import PackageCheck.Proofs.Typing.Counting
import PackageCheck.Proofs.Typing.Preservation

/-! # The errors of a checked tree

Each error of a jump in a check belongs to a jump of the checked tree that leads nowhere. The proofs
follow the check: the context mirrors what is around a node, wherever jumps are watched. -/

namespace PackageCheck

namespace Typing

open Check

variable {table : SymbolTable}

/-! ## Jumps that lead nowhere -/

/-- A jump is resolved exactly if it leads anywhere, where all labels have symbols. -/
theorem isSome_resolve {around : Surroundings} (declared : around.Declared table) (jump : Jump) :
    (around.resolve jump).isSome = around.permits jump := by
  obtain ⟨kind, label, symbol, target⟩ := jump
  cases kind with
  | goto =>
    change (Option.map _ (label.bind around.labelSymbol?)).isSome =
      (label.bind around.labelled?).isSome
    rw [Option.isSome_map]
    cases label with
    | none => rfl
    | some name =>
      simp only [Option.bind_some, Surroundings.labelSymbol?]
      cases seen : around.labelled? name with
      | none => rfl
      | some first =>
        obtain ⟨id, _, held, _⟩ := declared name first seen
        simp [held]
  | _ =>
    change (Option.map _ (around.loop? label)).isSome = (around.loop? label).isSome
    rw [Option.isSome_map]

/-- Whether each error of a kind that is the error of a jump belongs to a jump that is counted, and
    the other ones are those of names. -/
structure Accounted (p : Diagnostic → Bool) (names : String → Prop) (q : JumpSite → Bool) : Prop
    extends Watches p names where
  counted : ∀ (site : JumpSite) (at' : Site), site.permitted = false →
    p (.invalidJump site.jump.kind site.jump.label at') = true → q site = true

/-- Whether a context shows what is around a node, if errors of jumps are of the kind at all. -/
def Context.Reflects (p : Diagnostic → Bool) (table : SymbolTable) (ctx : Context)
    (around : Surroundings) : Prop :=
  (∃ kind label site, p (.invalidJump kind label site) = true) → ctx.Mirrors table around

variable {p : Diagnostic → Bool} {names : String → Prop} {q : JumpSite → Bool}

theorem Context.Reflects.outermost (file : String) (frame : Option Frame) :
    Reflects p table { file := file, frame := frame } {} :=
  fun _ => .outermost file frame

theorem Context.Reflects.inLoop {ctx : Context} {around : Surroundings}
    (reflects : ctx.Reflects p table around) (id : StmtId) (label : Option String) :
    Reflects p table { ctx with loops := (id, label) :: ctx.loops } (around.inLoop id label) :=
  fun watched => (reflects watched).inLoop id label

theorem Context.Reflects.inBlock {ctx : Context} {around : Surroundings} {labels : NameMap SymbolId}
    {block : List LabelledStmt} (reflects : ctx.Reflects p table around)
    (shown : LabelsAfter table .empty block labels) :
    Reflects p table { ctx with labels := labels :: ctx.labels } (around.inBlock block) :=
  fun watched => (reflects watched).inBlock shown

/-- The error of a jump is counted where the jump stands. -/
theorem resolveJump_adds {ctx : Context} {around : Surroundings}
    (accounted : Accounted p names q) (reflects : ctx.Reflects p table around) (jump : Jump)
    (position : Position) :
    pending p (resolveJump ctx jump position).2 ≤
      [(⟨(resolveJump ctx jump position).1, around⟩ : JumpSite)].countP q := by
  by_cases watched : ∃ kind label site, p (.invalidJump kind label site) = true
  · have mirrors := reflects watched
    rw [resolveJump_eq mirrors]
    have leads := isSome_resolve mirrors.declared jump
    cases resolved : around.resolve jump with
    | some jump' => exact Nat.zero_le _
    | none =>
      rw [resolved] at leads
      simp only [pending, List.countP_singleton]
      split
      · rename_i err
        have counted : q ⟨jump, around⟩ = true := accounted.counted ⟨jump, around⟩ _ leads.symm err
        rw [counted]
        exact Nat.le_refl 1
      · exact Nat.zero_le _
  · have unwatched : ∀ site, p (.invalidJump jump.kind jump.label site) = false := by
      intro site
      by_contra seen
      exact watched ⟨_, _, _, by simpa using seen⟩
    have none : pending p (resolveJump ctx jump position).2 = 0 := by
      unfold resolveJump
      dsimp only
      split
      · split
        · rfl
        · simp [pending, unwatched]
      · split
        · rfl
        · simp [pending, unwatched]
    rw [none]
    exact Nat.zero_le _

/-! ## Declarations -/

section Declarations

variable {ctx : Context} (watches : Watches p names)

include watches

/-- A declaration adds no error on its way, and ends in no error but the one in front of it. -/
theorem declareVar_tallies (decl : VarDecl) (type : Ty) (init : Option StmtId)
    (result : Except Diagnostic Unit) :
    (declareVar ctx decl type init result).Tallies table p names fun checked n =>
      n = 0 ∧ pending p checked.2 ≤ pending p result ∧ checked.1.value = decl.value := by
  refine .attempted (Silent.declare watches _ _ _) fun declared none => ?_
  cases declared with
  | ok id => exact .pure ⟨rfl, Nat.le_refl _, rfl⟩
  | error err =>
    rw [pending_error] at none
    refine .pure ⟨rfl, ?_, rfl⟩
    rw [pending_error, none]
    exact Nat.zero_le _

theorem declareVar_adds {n : Nat} {decl : VarDecl} {type : Ty} {init : Option StmtId}
    {result : Except Diagnostic Unit}
    (few : n + pending p result ≤ (Expr.jumpSitesOption decl.value).countP q) :
    (declareVar ctx decl type init result).Tallies table p names fun checked m =>
      n + m + pending p checked.2 ≤ (Expr.jumpSitesOption checked.1.value).countP q := by
  refine (declareVar_tallies watches decl type init result).imp fun checked m holds => ?_
  obtain ⟨rfl, fewer, kept⟩ := holds
  rw [kept]
  omega

theorem declareVar_addsNode {decl : VarDecl} {type : Ty} {init : Option StmtId}
    {result : Except Diagnostic Unit} (none : pending p result = 0) :
    (declareVar ctx decl type init result).AddsNode table p names
      fun decl' => (Expr.jumpSitesOption decl'.value).countP q := by
  have few : 0 + pending p result ≤ (Expr.jumpSitesOption decl.value).countP q := by
    rw [none]
    exact Nat.zero_le _
  simpa only [Nat.zero_add] using declareVar_adds watches few

theorem declareParam_adds (param : Param) (type : Ty) :
    (declareParam ctx param type).AddsNode table p names fun _ => 0 := by
  unfold declareParam
  split
  · exact .ok
  · exact .given (.declare watches _ _ _) fun _ => .ok

theorem declareParams_adds (params : List Param) (types : List Ty) :
    (declareParams ctx params types).Adds table p names fun _ => 0 := by
  induction params generalizing types with
  | nil => exact .pure (Nat.le_refl 0)
  | cons param params hypothesis =>
    cases types with
    | nil => exact .pure (Nat.le_refl 0)
    | cons type types =>
      refine .bind (declareParam_adds watches param type).recorded fun _ n none => ?_
      exact .bind (hypothesis types) fun _ m none' => .pure (Nat.add_le_add none none')

theorem declareReceiver_adds (receiver : Option Param) (type : Option Ty) :
    (declareReceiver ctx receiver type).Adds table p names fun _ => 0 := by
  unfold declareReceiver
  split
  · exact .bind (declareParam_adds watches _ _).recorded fun _ n none => .pure none
  · exact .pure (Nat.le_refl 0)

/-- A label that a block has twice is another kind of error. -/
theorem declareLabels_tally (labels : NameMap SymbolId) (statements : List Stmt) :
    ∀ s, ((declareLabels ctx labels statements).run s).2.tally p = s.tally p := by
  suffices kept : ∀ n, Preserves (·.tally p = n) (declareLabels ctx labels statements) from
    fun s => kept _ s rfl
  intro n
  induction statements generalizing labels with
  | nil => exact .pure _
  | cons s rest hypothesis =>
    rw [declareLabels]
    split
    · exact .bind (hypothesis labels) fun _ => .pure _
    · refine .bind (fun _ same => same) fun id => ?_
      split
      · exact .bind (hypothesis _) fun _ => .pure _
      · rename_i label _ _ previous _
        refine .bind .state fun s' => .bind (.change fun before same => ?_) fun _ => ?_
        · have other := watches.plain (redeclaration ctx s' label.name s.position previous) rfl
          rw [← same]
          simp [State.tally, State.errors, State.report, List.countP_append, other]
        · exact .bind (hypothesis labels) fun _ => .pure _

end Declarations

/-! ## Trees -/

theorem countP_jumpSites_typed (e : Expr) (type : Ty) :
    (Expr.jumpSites { e with type := type }).countP q = e.jumpSites.countP q := by
  obtain ⟨position, form, _⟩ := e
  rfl

theorem agreeing_adds {what : String} {site : Expr → Site} {expected : Ty}
    {check : Check (Checked Expr Ty)} (accounted : Accounted p names q)
    (inside : check.AddsNode table p names (·.jumpSites.countP q)) :
    (agreeing what site expected check).AddsNode table p names (·.jumpSites.countP q) :=
  .agreeing accounted.toWatches countP_jumpSites_typed inside

theorem countP_le_append (sites sites' : List JumpSite) :
    sites.countP q + sites'.countP q ≤ (sites ++ sites').countP q :=
  Nat.le_of_eq List.countP_append.symm

theorem inferIdent_adds {ctx : Context} {most : Ident → Nat} (watches : Watches p names)
    (ident : Ident) (position : Position) :
    (inferIdent ctx ident position).AddsNode table p names most := by
  refine .state fun s binds => ?_
  split
  · rename_i free
    have none : pending p (.error (.undefinedSymbol ident.name (ctx.site position)) :
        Except Diagnostic Ty) = 0 := watches.pending_undefined binds _ (by simp [free])
    exact .pure (by simp [none])
  · refine .mute (fun _ => rfl) fun _ => .pure ?_
    rw [Nat.zero_add]
    split
    · exact Nat.zero_le _
    · exact watches.pending_le rfl _
    · exact watches.pending_le rfl _

mutual

theorem infer_adds (accounted : Accounted p names q) (ctx : Context) : ∀ (e : Expr) (hint : Ty),
    (infer ctx e hint).AddsNode table p names (·.jumpSites.countP q)
  | ⟨position, form, type⟩, hint => by
    rw [infer]
    refine .bind (inferForm_adds accounted ctx position form hint) fun checked n few => ?_
    obtain ⟨form', result⟩ := checked
    cases result with
    | ok found => exact .pure few
    | error err => exact .pure few

theorem inferForm_adds (accounted : Accounted p names q) (ctx : Context) (position : Position) :
    ∀ (form : ExprForm) (hint : Ty),
      (inferForm ctx position form hint).AddsNode table p names (·.jumpSites.countP q)
  | .literal literal, hint => .ok
  | .blank, hint => .ok
  | .compound spec shape elements, hint => by
    rw [inferForm]
    refine .given (.compoundType accounted.toWatches _ _ _) fun type => ?_
    split
    · exact .ok
    · refine .given (.layoutOf accounted.toWatches _ _ _) fun layout => ?_
      exact .rebuild (.mapResult (checkElements_adds accounted ctx elements layout)) fun _ =>
        Nat.le_refl _
  | .binary op left right, hint => by
    rw [inferForm]
    split
    · exact .rebuild (.mapResult (.andThen
        (agreeing_adds accounted (infer_adds accounted ctx left _))
        fun _ => agreeing_adds accounted (infer_adds accounted ctx right _))) fun _ =>
          countP_le_append _ _
    · exact .rebuild (.conclude (.andThen (infer_adds accounted ctx left _)
        fun _ => agreeing_adds accounted (infer_adds accounted ctx right _))
        fun _ => .binaryType accounted.toWatches _ _ _) fun _ => countP_le_append _ _
  | .unary op operand, hint => by
    have inside := fun hint => infer_adds accounted ctx operand hint
    cases op with
    | plus =>
      exact .rebuild (.conclude (inside _) fun _ => .signType accounted.toWatches _ _ _) fun _ =>
        Nat.le_refl _
    | minus =>
      exact .rebuild (.conclude (inside _) fun _ => .signType accounted.toWatches _ _ _) fun _ =>
        Nat.le_refl _
    | not => exact .rebuild (agreeing_adds accounted (inside _)) fun _ => Nat.le_refl _
    | addressOf => exact .rebuild (.mapResult (inside _)) fun _ => Nat.le_refl _
    | deref =>
      exact .rebuild (.conclude (inside _) fun _ => .derefType accounted.toWatches _ _) fun _ =>
        Nat.le_refl _
  | .index left index, hint => by
    rw [inferForm]
    exact .rebuild (.andThen (.conclude (infer_adds accounted ctx left _)
      fun _ => .indexTypes accounted.toWatches _ _) fun _ =>
        .mapResult (agreeing_adds accounted (infer_adds accounted ctx index _))) fun _ =>
          countP_le_append _ _
  | .selector left field, hint => by
    rw [inferForm]
    exact .rebuild (.conclude (infer_adds accounted ctx left _)
      fun _ => .selectorType accounted.toWatches _ _ _) fun _ => Nat.le_refl _
  | .call callee args, hint => by
    rw [inferForm]
    refine .given (.conversion? accounted.toWatches _) fun target => ?_
    cases target with
    | some target =>
      obtain ⟨callee', type⟩ := target
      match args with
      | [] => exact .pure (accounted.pending_error rfl)
      | [arg] =>
        refine .rebuild (.mapResult (infer_adds accounted ctx arg _)) fun arg' => ?_
        change arg'.jumpSites.countP q ≤ (callee'.jumpSites ++ (arg'.jumpSites ++ [])).countP q
        simp only [List.countP_append]
        omega
      | _ :: _ :: _ => exact .pure (accounted.pending_error rfl)
    | none =>
      exact .rebuild (.andThen (.conclude (infer_adds accounted ctx callee _)
        fun _ => .callSignature accounted.toWatches _ _ _) fun _ =>
          .mapResult (expectAll_adds accounted ctx args _)) fun _ => countP_le_append _ _
  | .func func, hint => by
    rw [inferForm]
    refine .given (.funcType accounted.toWatches _) fun found => ?_
    exact .bind (checkBody_adds accounted ctx func _ _) fun func' n few => .pure few
  | .ident ident, hint => by
    rw [inferForm]
    exact .rebuild (inferIdent_adds accounted.toWatches ident position) fun _ => Nat.le_refl _
  | .type spec, hint => .pure (accounted.pending_error rfl)

theorem expectAll_adds (accounted : Accounted p names q) (ctx : Context) :
    ∀ (es : List Expr) (types : List Ty), (expectAll ctx es types).AddsNode table p names
      fun es' => (Expr.jumpSitesList es').countP q
  | e :: es, type :: types => by
    rw [expectAll]
    exact .rebuild (.andThen (agreeing_adds accounted (infer_adds accounted ctx e _)) fun _ =>
      expectAll_adds accounted ctx es types) fun _ => countP_le_append _ _
  | [], _ => .ok
  | _ :: _, [] => .ok

theorem waitingAll_adds (accounted : Accounted p names q) (ctx : Context) : ∀ es : List Expr,
    ∀ waiting ∈ waitingAll ctx es, ∀ hint,
      (waiting.infer hint).AddsNode table p names (·.jumpSites.countP q)
  | [] => nofun
  | e :: es => by
    rw [waitingAll]
    exact List.forall_mem_cons.mpr ⟨infer_adds accounted ctx e, waitingAll_adds accounted ctx es⟩

theorem assignAll_adds (accounted : Accounted p names q) (ctx : Context) :
    ∀ (targets : List Expr) (values : List Waiting),
      (∀ waiting ∈ values, ∀ hint,
        (waiting.infer hint).AddsNode table p names (·.jumpSites.countP q)) →
      (assignAll ctx targets values).AddsNode table p names fun x =>
        (Expr.jumpSitesList x.1).countP q + (Expr.jumpSitesList x.2).countP q
  | target :: targets, value :: values, waits => by
    rw [assignAll]
    obtain ⟨here, others⟩ := List.forall_mem_cons.mp waits
    refine .rebuild (.andThen (.andThen (infer_adds accounted ctx target _) fun _ =>
      agreeing_adds accounted (here _)) fun _ => assignAll_adds accounted ctx targets values others)
      fun x => ?_
    obtain ⟨⟨target', value'⟩, targets', values'⟩ := x
    simp only [Expr.jumpSitesList, List.countP_append]
    omega
  | [], _, _ => .ok
  | _ :: _, [], _ => .ok

theorem checkKey_adds (accounted : Accounted p names q) (ctx : Context) (layout : Layout) :
    ∀ key : Option Expr, (checkKey ctx layout key).AddsNode table p names
      fun key' => (Expr.jumpSitesOption key').countP q
  | none => .ok
  | some key => by
    rw [checkKey]
    split
    · exact .ok
    · exact .rebuild (.mapResult (agreeing_adds accounted (infer_adds accounted ctx key _)))
        fun _ => Nat.le_refl _

theorem checkElements_adds (accounted : Accounted p names q) (ctx : Context) :
    ∀ (elements : List Element) (layout : Layout),
      (checkElements ctx elements layout).AddsNode table p names
        fun elements' => (Element.jumpSitesList elements').countP q
  | [], layout => .ok
  | ⟨key, value⟩ :: rest, layout => by
    rw [checkElements]
    refine .bind (checkKey_adds accounted ctx layout key) fun checked n few => ?_
    obtain ⟨key', result⟩ := checked
    cases result with
    | error err =>
      -- nothing is checked behind a key that fails
      have stopped : (Pure.pure (⟨key', value⟩ :: rest, .error err) :
          Check (Checked (List Element) Unit)).Tallies table p names fun checked m =>
            n + m + pending p checked.2 ≤ (Element.jumpSitesList checked.1).countP q := by
        apply Tallies.pure
        change n + 0 + pending p (.error err : Except Diagnostic Unit) ≤
          (Expr.jumpSitesOption key' ++ (value.jumpSites ++ Element.jumpSitesList rest)).countP q
        simp only [List.countP_append] at few ⊢
        omega
      exact stopped
    | ok _ =>
      have silent : Silent p names (liftM (layout.next ctx key' value.position)) :=
        .ofExcept (Silent.layoutNext accounted.toWatches layout key' value.position)
      apply Tallies.bind (AddsNode.given silent fun found => .andThen (agreeing_adds accounted
        (infer_adds accounted ctx value _)) fun _ => checkElements_adds accounted ctx rest _)
      intro checked m few'
      obtain ⟨⟨value', rest'⟩, result⟩ := checked
      apply Tallies.pure
      change n + (m + 0) + pending p result ≤ (Expr.jumpSitesOption key' ++
        (value'.jumpSites ++ Element.jumpSitesList rest')).countP q
      simp only [List.countP_append, pending] at few few' ⊢
      omega

theorem checkBody_adds (accounted : Accounted p names q) (ctx : Context) :
    ∀ (func : Func) (signature : Signature) (receiver : Option Ty),
      (checkBody ctx func signature receiver).Adds table p names (·.jumpSites.countP q)
  | ⟨name, receiver, params, results, body⟩, signature, receiverType => by
    rw [checkBody]
    apply Tallies.withScope
    apply Tallies.bind (declareReceiver_adds accounted.toWatches _ _)
    intro _ n first
    apply Tallies.bind (declareParams_adds accounted.toWatches _ _)
    intro _ m second
    apply Tallies.bind (declareParams_adds accounted.toWatches _ _)
    intro _ l third
    -- the jumps of the body lead nowhere outside of it
    apply Tallies.bind (checkStatements_adds accounted (.outermost _ _) body)
    intro body' k few
    apply Tallies.pure
    change _ ≤ (body'.jumpSites {}).countP q
    dsimp only at first second third few
    omega

theorem checkMethods_adds (accounted : Accounted p names q) (ctx : Context) (this : Ty) :
    ∀ (methods : List Func) (signatures : List Signature),
      (checkMethods ctx this methods signatures).AddsNode table p names
        fun methods' => (Func.jumpSitesList methods').countP q
  | method :: methods, signature :: signatures => by
    rw [checkMethods]
    apply AddsNode.given (.receiverType accounted.toWatches _)
    intro receiver
    apply Tallies.bind (checkBody_adds accounted ctx method _ _)
    intro method' n few
    apply Tallies.bind (checkMethods_adds accounted ctx this methods signatures)
    intro checked m few'
    apply Tallies.pure
    change n + (m + 0) + pending p checked.2 ≤
      (method'.jumpSites ++ Func.jumpSitesList checked.1).countP q
    rw [List.countP_append]
    dsimp only at few few'
    omega
  | [], _ => .ok
  | _ :: _, [] => .ok

theorem checkStatements_adds (accounted : Accounted p names q) {ctx : Context}
    {around : Surroundings} (reflects : ctx.Reflects p table around) : ∀ block : Block,
    (checkStatements ctx block).Adds table p names
      fun block' => (block'.jumpSites around).countP q
  | ⟨statements, labels⟩ => by
    rw [checkStatements]
    apply Tallies.bind (.also (.still (declareLabels_tally accounted.toWatches .empty statements))
      (.and (declareLabels_shows ctx .empty statements) (declareLabels_labels statements .empty)))
    intro declared n holds
    obtain ⟨labels', annotated⟩ := declared
    obtain ⟨⟨named, shown⟩, rfl⟩ := holds
    have length : annotated.length = statements.length := by
      simpa using congrArg List.length named
    apply Tallies.bind (.also
      (checkEach_adds accounted (reflects.inBlock shown) statements annotated named)
      (.and (@checkEach_shows table id _ statements annotated named)
        (labels_checkEach statements annotated length)))
    intro statements' n holds
    obtain ⟨⟨same, labelled⟩, few⟩ := holds
    apply Tallies.pure
    -- what the context shows is what can be seen of the checked statements
    change _ ≤ (Stmt.jumpSitesList (around.inBlock _) statements').countP q
    rw [labelled_of_relabelled (labelSites_of_erase same) labelled]
    simpa using few

theorem checkEach_adds (accounted : Accounted p names q) {ctx : Context}
    {around : Surroundings} (reflects : ctx.Reflects p table around) :
    ∀ (statements : List Stmt) (labels : List (Option StmtLabel)),
      labels.map (·.map StmtLabel.erase) = statements.map (·.label.map StmtLabel.erase) →
        (checkEach ctx statements labels).Adds table p names
          fun statements' => (Stmt.jumpSitesList around statements').countP q
  | s :: rest, label :: labels, named => by
    rw [checkEach]
    obtain ⟨here, others⟩ := List.cons.inj named
    apply Tallies.bind (.also (checkStmt_adds accounted reflects s).recorded
      (@checkStmt_shows table id ctx s).recorded)
    intro s' n holds
    obtain ⟨same, few⟩ := holds
    apply Tallies.bind (checkEach_adds accounted reflects rest labels others)
    intro rest' m few'
    apply Tallies.pure
    -- the label that is put in has the same name
    have relabelled : Stmt.jumpSites around { s' with label := label } = s'.jumpSites around := by
      have name := StmtLabel.names_of_erase (here.trans (label_of_erase same).symm)
      obtain ⟨id, _, label', form⟩ := s'
      exact congrArg (form.jumpSites around id) name
    change _ ≤ (Stmt.jumpSites around { s' with label := label } ++
      Stmt.jumpSitesList around rest').countP q
    rw [relabelled, List.countP_append]
    dsimp only at few few'
    omega
  | [], _, _ => .pure (Nat.zero_le _)
  | _ :: _, [], _ => .pure (Nat.zero_le _)

theorem checkStmt_adds (accounted : Accounted p names q) {ctx : Context}
    {around : Surroundings} (reflects : ctx.Reflects p table around) : ∀ s : Stmt,
    (checkStmt ctx s).AddsNode table p names (fun s' => (s'.jumpSites around).countP q)
  | ⟨id, position, label, form⟩ => by
    rw [checkStmt]
    exact .bind (checkForm_adds accounted reflects id position _ form) fun _ _ few => .pure few

theorem checkForm_adds (accounted : Accounted p names q) {ctx : Context}
    {around : Surroundings} (reflects : ctx.Reflects p table around) (id : StmtId)
    (position : Position) (label : Option String) : ∀ form : StmtForm,
      (checkForm ctx id position label form).AddsNode table p names
        (fun form' => (form'.jumpSites around id label).countP q)
  | .assign lhs rhs op => by
    rw [checkForm]
    split
    · exact .pure (accounted.pending_error rfl)
    · split
      · match lhs, rhs with
        | [target], [value] =>
          refine .rebuild (.conclude (.andThen (infer_adds accounted ctx target _) fun _ =>
            agreeing_adds accounted (infer_adds accounted ctx value _))
            fun _ => .checkOperand accounted.toWatches _ _ _ _) fun x => ?_
          obtain ⟨target', value'⟩ := x
          change _ ≤ ((target'.jumpSites ++ []) ++ (value'.jumpSites ++ [])).countP q
          simp only [List.append_nil, List.countP_append]
          exact Nat.le_refl _
        | [], _ => exact .pure (accounted.pending_error rfl)
        | _ :: _ :: _, _ => exact .pure (accounted.pending_error rfl)
        | [_], [] => exact .pure (accounted.pending_error rfl)
        | [_], _ :: _ :: _ => exact .pure (accounted.pending_error rfl)
      · dsimp only
        split
        · exact .rebuild (assignAll_adds accounted ctx lhs (waitingAll ctx rhs)
            (waitingAll_adds accounted ctx rhs)) fun _ => countP_le_append _ _
        · match rhs with
          | [] => exact .pure (accounted.pending_error rfl)
          | [value] =>
            refine .rebuild (.andThen (L := fun es => (Expr.jumpSitesList es).countP q)
              (infer_adds accounted ctx value _) fun type => ?_) fun x => ?_
            · cases type with
              | tuple members =>
                dsimp only
                split
                · exact expectAll_adds accounted ctx lhs _
                · exact .pure (accounted.pending_error rfl)
              | _ => exact .pure (accounted.pending_error rfl)
            · obtain ⟨value', lhs'⟩ := x
              change _ ≤ (Expr.jumpSitesList lhs' ++ (value'.jumpSites ++ [])).countP q
              simp only [List.append_nil, List.countP_append]
              omega
          | _ :: _ :: _ => exact .pure (accounted.pending_error rfl)
  | .struct ⟨name, fields, methods, symbol⟩ => by
    rw [checkForm]
    exact .rebuild (.declareType accounted.toWatches (.structTarget accounted.toWatches _ _ _ _)
      fun struct signatures =>
        checkMethods_adds accounted ctx (.custom name struct) methods signatures)
      fun _ => Nat.le_refl _
  | .typeAlias decl => by
    rw [checkForm, checkAlias]
    refine .rebuild (M := fun _ => 0) (.rebuild (.declareType (M := fun _ => 0)
      accounted.toWatches (.aliasTarget accounted.toWatches _ _ _) fun id _ => ?_)
      fun _ => Nat.le_refl _) fun _ => Nat.le_refl _
    refine .attempted (Silent.aliasRoot accounted.toWatches _ _ _) fun result none => .pure ?_
    exact Nat.le_of_eq ((Nat.zero_add _).trans none)
  | .var vars => by
    rw [checkForm]
    exact .rebuild (checkVars_adds accounted ctx id vars) fun _ => Nat.le_refl _
  | .pass => .ok
  | .cond branches => by
    rw [checkForm]
    exact .bind (checkBranches_adds accounted reflects id branches) fun _ _ few => .pure few
  | .loop ⟨header, condition, step, body⟩ => by
    rw [checkForm]
    apply Tallies.withScope
    apply Tallies.bind (checkHeader_adds accounted ctx id header)
    intro header' n first
    apply Tallies.bind (checkCondition_adds accounted ctx condition)
    intro condition' m second
    apply Tallies.bind (checkStep_adds accounted reflects step)
    intro step' l third
    -- only the body is inside the loop
    apply Tallies.bind (.withScope (checkStatements_adds accounted (reflects.inLoop id label) body))
    intro body' k fourth
    apply Tallies.pure
    change n + (m + (l + (k + 0))) + 0 ≤ (VarForm.jumpSitesOption header' ++
      (Expr.jumpSitesOption condition' ++ (Stmt.jumpSitesOption around step' ++
        body'.jumpSites (around.inLoop id label)))).countP q
    simp only [List.countP_append] at first second third fourth ⊢
    omega
  | .expr e => by
    rw [checkForm]
    exact .rebuild (.mapResult (infer_adds accounted ctx e _)) fun _ => Nat.le_refl _
  | .jump jump => by
    rw [checkForm]
    refine Tallies.pure ?_
    rw [Nat.zero_add]
    exact resolveJump_adds accounted reflects jump position
  | .ret values => by
    rw [checkForm]
    exact .rebuild (.given (.ofExcept (Silent.returnTypes accounted.toWatches _ _)) fun types =>
      expectAll_adds accounted ctx values types) fun _ => Nat.le_refl _

theorem checkVars_adds (accounted : Accounted p names q) (ctx : Context) (id : StmtId) :
    ∀ vars : VarForm, (checkVars ctx id vars).AddsNode table p names (·.jumpSites.countP q)
  | ⟨vars, isFunc⟩ => by
    rw [checkVars]
    apply Tallies.mute fun _ => rfl
    intro before
    apply Tallies.bind (checkVarList_adds accounted ctx id isFunc vars)
    intro checked n few
    refine .mute (fun s => ?_) fun _ => .pure few
    cases checked.2 <;> rfl

theorem checkVarList_adds (accounted : Accounted p names q) (ctx : Context) (id : StmtId)
    (isFunc : Bool) : ∀ vars : List VarDecl,
      (checkVarList ctx id isFunc vars).AddsNode table p names
        fun vars' => (VarDecl.jumpSitesList vars').countP q
  | [] => .ok
  | decl :: rest => by
    rw [checkVarList]
    have first : (if isFunc then checkFuncVar ctx id decl else checkPlainVar ctx id decl).AddsNode
        table p names fun decl' => (Expr.jumpSitesOption decl'.value).countP q := by
      split
      · exact checkFuncVar_adds accounted ctx id decl
      · exact checkPlainVar_adds accounted ctx id decl
    refine .rebuild (.alongside first.noted (checkVarList_adds accounted ctx id isFunc rest))
      fun x => ?_
    obtain ⟨decl', rest'⟩ := x
    rw [VarDecl.jumpSitesList_cons]
    exact countP_le_append _ _

theorem checkPlainVar_adds (accounted : Accounted p names q) (ctx : Context) (id : StmtId) :
    ∀ decl : VarDecl, (checkPlainVar ctx id decl).AddsNode table p names
      fun decl' => (Expr.jumpSitesOption decl'.value).countP q
  | ⟨name, position, spec, value, symbol⟩ => by
    rw [checkPlainVar]
    refine .attempted (Silent.resolveOr accounted.toWatches _ _) fun result none => ?_
    cases result with
    | error err => exact declareVar_addsNode accounted.toWatches none
    | ok declared =>
      apply Tallies.bind (checkInit_adds accounted ctx name position declared value)
      intro checked n few
      obtain ⟨value', found⟩ := checked
      cases found with
      | ok type => exact declareVar_adds accounted.toWatches few
      | error err => exact declareVar_adds accounted.toWatches few

theorem checkInit_adds (accounted : Accounted p names q) (ctx : Context) (name : String)
    (position : Position) (declared : Ty) : ∀ value : Option Expr,
      (checkInit ctx name position declared value).AddsNode table p names
        fun value' => (Expr.jumpSitesOption value').countP q
  | none => by
    rw [checkInit]
    split
    · exact .ok
    · exact .pure (accounted.pending_error rfl)
  | some e =>
    .rebuild (agreeing_adds accounted (infer_adds accounted ctx e _)) fun _ => Nat.le_refl _

theorem checkFuncVar_adds (accounted : Accounted p names q) (ctx : Context) (id : StmtId) :
    ∀ decl : VarDecl, (checkFuncVar ctx id decl).AddsNode table p names
      fun decl' => (Expr.jumpSitesOption decl'.value).countP q
  | ⟨_, _, _, none, _⟩ => .pure (accounted.pending_error rfl)
  | ⟨name, position, spec, some ⟨valuePosition, form, type⟩, symbol⟩ => by
    cases form with
    | func func =>
      rw [checkFuncVar]
      refine .attempted (Silent.funcType accounted.toWatches _) fun result none => ?_
      cases result with
      | error err => exact declareVar_addsNode accounted.toWatches none
      | ok found =>
        apply Tallies.bind (declareVar_tallies accounted.toWatches _ _ _ _)
        intro checked n holds
        obtain ⟨decl, result⟩ := checked
        obtain ⟨rfl, few, -⟩ := holds
        cases result with
        | error err =>
          -- nothing was pending in front of the declaration
          apply Tallies.pure
          simp only [pending_ok] at few ⊢
          omega
        | ok _ =>
          apply Tallies.bind (checkBody_adds accounted ctx func _ _)
          intro func' n few'
          apply Tallies.pure
          change 0 + (n + 0) + 0 ≤ func'.jumpSites.countP q
          dsimp only at few'
          omega
    | _ => exact .pure (accounted.pending_error rfl)

theorem checkHeader_adds (accounted : Accounted p names q) (ctx : Context) (id : StmtId) :
    ∀ header : Option VarForm, (checkHeader ctx id header).Adds table p names
      fun header' => (VarForm.jumpSitesOption header').countP q
  | none => .pure (Nat.zero_le _)
  | some vars => .bind (checkVars_adds accounted ctx id vars).recorded fun _ _ few => .pure few

theorem checkCondition_adds (accounted : Accounted p names q) (ctx : Context) :
    ∀ condition : Option Expr, (checkCondition ctx condition).Adds table p names
      fun condition' => (Expr.jumpSitesOption condition').countP q
  | none => .pure (Nat.zero_le _)
  | some e =>
    .bind (agreeing_adds accounted (infer_adds accounted ctx e _)).recorded fun _ _ few => .pure few

theorem checkStep_adds (accounted : Accounted p names q) {ctx : Context} {around : Surroundings}
    (reflects : ctx.Reflects p table around) : ∀ step : Option Stmt,
    (checkStep ctx step).Adds table p names
      fun step' => (Stmt.jumpSitesOption around step').countP q
  | none => .pure (Nat.zero_le _)
  | some s => .bind (checkStmt_adds accounted reflects s).recorded fun _ _ few => .pure few

theorem checkBranches_adds (accounted : Accounted p names q) {ctx : Context}
    {around : Surroundings} (reflects : ctx.Reflects p table around) (id : StmtId) :
    ∀ branches : List Branch, (checkBranches ctx id branches).Adds table p names
      fun branches' => (Branch.jumpSitesList around branches').countP q
  | [] => .pure (Nat.zero_le _)
  | ⟨header, condition, body⟩ :: rest => by
    rw [checkBranches]
    apply Tallies.bind (Q := fun branch n => n ≤ (Branch.jumpSitesList around [branch]).countP q)
    · apply Tallies.withScope
      apply Tallies.bind (checkHeader_adds accounted ctx id header)
      intro header' n first
      apply Tallies.bind (checkCondition_adds accounted ctx condition)
      intro condition' m second
      apply Tallies.bind (.withScope (checkStatements_adds accounted reflects body))
      intro body' l third
      apply Tallies.pure
      simp only [Branch.jumpSitesList, List.countP_append] at first second third ⊢
      omega
    · intro branch n few
      apply Tallies.bind (checkBranches_adds accounted reflects id rest)
      intro rest' m few'
      apply Tallies.pure
      change _ ≤ (Branch.jumpSitesList around (branch :: rest')).countP q
      rw [Branch.jumpSitesList_cons around branch, List.countP_append]
      dsimp only at few'
      omega

end

end Typing

end PackageCheck
