import PackageCheck.Proofs.Typing.Outcome

/-! # Counting errors

A check adds to the errors found so far. The error in which a node ends is counted where it is
taken, so what a check adds is what it adds on its way and the error that is still pending.

Only two kinds of errors depend on what is around a node: that of a jump that leads nowhere, and
that of a name that leads nowhere. No rule of an operator, an index or a call ends in one of them,
as long as the names in question are bound. There is one rule for each way of putting checks
together. -/

namespace PackageCheck

/-- Whether an error is neither that of a jump nor that of a name which leads nowhere. -/
def Diagnostic.isPlain : Diagnostic → Bool
  | .invalidJump _ _ _ | .undefinedSymbol _ _ => false
  | _ => true

theorem Diagnostic.isPlain_ofTypeError (err : TypeError) (what : String) (site : Site) :
    (ofTypeError err what site).isPlain = true := by
  cases err <;> rfl

namespace Typing

open Check

/-! ## Errors of a kind -/

namespace State

/-- The errors found so far, those that were not reported among them. -/
def errors (s : State) : List Diagnostic :=
  s.diagnostics ++ s.suppressed

/-- How many of the errors found so far are of a kind. -/
def tally (p : Diagnostic → Bool) (s : State) : Nat :=
  s.errors.countP p

/-- Whether each of some names leads to a symbol. -/
def Binds (names : String → Prop) (s : State) : Prop :=
  ∀ name, names name → (s.scopes.find? name).isSome

variable {p : Diagnostic → Bool} {names : String → Prop} {s s' : State}

theorem tally_markIfFailed (s : State) (id : SymbolId) (result : Except Diagnostic α) :
    (s.markIfFailed id result).tally p = s.tally p := by
  cases result <;> rfl

theorem tally_le_of_grows (grows : s.Grows s') : s.tally p ≤ s'.tally p := by
  simp only [tally, errors, List.countP_append]
  exact Nat.add_le_add (grows.diagnostics.sublist.countP_le) (grows.suppressed.sublist.countP_le)

theorem Binds.pushScope (binds : s.Binds names) : s.pushScope.Binds names := by
  intro name named
  have found := binds name named
  simpa [ScopeStack.find?, State.pushScope, ScopeStack.push, ScopeStack.all, List.findSome?_cons]
    using found

/-- A name that is bound stays bound. -/
theorem Binds.grows (binds : s.Binds names) (grows : s.Grows s') : s'.Binds names := by
  intro name named
  have found := binds name named
  simp only [ScopeStack.find?, ScopeStack.all, List.findSome?_cons, grows.outer] at found ⊢
  cases inner : s.scopes.inner.find? name with
  | some id => simp [grows.inner name id inner]
  | none =>
    rw [inner] at found
    cases s'.scopes.inner.find? name with
    | some id => rfl
    | none => exact found

end State

/-- How many errors of a kind are added when a result is taken. -/
def pending (p : Diagnostic → Bool) : Except Diagnostic α → Nat
  | .ok _ => 0
  | .error err => if p err then 1 else 0

/-- Whether the errors of a kind are all those of jumps, or of names among some given ones. -/
structure Watches (p : Diagnostic → Bool) (names : String → Prop) : Prop where
  plain : ∀ err, err.isPlain = true → p err = false
  named : ∀ name site, p (.undefinedSymbol name site) = true → names name

section Tally

variable {table : SymbolTable} {p : Diagnostic → Bool} {names : String → Prop}

@[simp]
theorem pending_ok (a : α) : pending p (.ok a) = 0 := rfl

theorem pending_error (err : Diagnostic) :
    pending p (.error err : Except Diagnostic α) = if p err then 1 else 0 := rfl

theorem pending_map (f : α → β) (result : Except Diagnostic α) :
    pending p (result.map f) = pending p result := by
  cases result <;> rfl

theorem Watches.pending_error (watches : Watches p names) {err : Diagnostic}
    (plain : err.isPlain = true) : pending p (.error err : Except Diagnostic α) = 0 := by
  rw [pending, watches.plain err plain]
  rfl

theorem Watches.pending_le (watches : Watches p names) {err : Diagnostic}
    (plain : err.isPlain = true) (n : Nat) : pending p (.error err : Except Diagnostic α) ≤ n := by
  rw [watches.pending_error plain]
  exact Nat.zero_le n

theorem Watches.pending_undefined (watches : Watches p names) {s : State} (binds : s.Binds names)
    {name : String} (site : Site) (free : (s.scopes.find? name).isSome = false) :
    pending p (.error (.undefinedSymbol name site) : Except Diagnostic α) = 0 := by
  cases watched : p (.undefinedSymbol name site) with
  | false => rw [pending, watched]; rfl
  | true =>
    have bound := binds name (watches.named name site watched)
    rw [free] at bound
    cases bound

/-- Taking a result adds the error that was pending. -/
theorem tally_record (result : Except Diagnostic α) (s : State) :
    ((record result).run s).2.tally p = s.tally p + pending p result := by
  cases result with
  | ok a => rfl
  | error err =>
    change State.tally p (State.judge (State.record (State.note s _) _) _ _) = _
    simp only [State.note, State.record, State.judge, State.report, State.tally, State.errors,
      pending]
    by_cases tainted : s.tainted
    · simp [tainted, List.countP_append, List.countP_singleton, Nat.add_assoc]
    · simp [tainted, List.countP_append, List.countP_cons, Nat.add_assoc]

/-! ## Attempts -/

/-- Whether an attempt adds no errors of a kind, and ends in none, as long as some names are
    bound. -/
def Silent (p : Diagnostic → Bool) (names : String → Prop) (attempt : Attempt α) : Prop :=
  ∀ s : State, s.Binds names →
    (attempt.run.run s).2.tally p = s.tally p ∧ pending p (attempt.run.run s).1 = 0

namespace Silent

theorem bind {first : Attempt α} {next : α → Attempt β} (head : Silent p names first)
    (tail : ∀ a, Silent p names (next a)) : Silent p names (first >>= next) := by
  intro s binds
  have between := binds.grows (first.run.grows s)
  obtain ⟨same, none⟩ := head s binds
  change ((ExceptT.bindCont next (first.run.run s).1).run (first.run.run s).2).2.tally p = _ ∧
    pending p ((ExceptT.bindCont next (first.run.run s).1).run (first.run.run s).2).1 = 0
  cases ended : (first.run.run s).1 with
  | ok a =>
    obtain ⟨same', none'⟩ := tail a _ between
    exact ⟨same'.trans same, none'⟩
  | error err =>
    rw [ended] at none
    exact ⟨same, none⟩

theorem pure (a : α) : Silent p names (Pure.pure a : Attempt α) :=
  fun _ _ => ⟨rfl, rfl⟩

theorem fail (watches : Watches p names) {err : Diagnostic} (plain : err.isPlain = true) :
    Silent p names (throw err : Attempt α) :=
  fun _ _ => ⟨rfl, watches.pending_error plain⟩

theorem ofExcept {result : Except Diagnostic α} (none : pending p result = 0) :
    Silent p names (liftM result : Attempt α) :=
  fun _ _ => ⟨rfl, none⟩

theorem lift {check : Check α} (mute : ∀ s, (check.run s).2.tally p = s.tally p) :
    Silent p names (liftM check : Attempt α) :=
  fun s _ => ⟨mute s, rfl⟩

/-- The names are bound in a state that is looked at. -/
theorem state {next : State → Attempt α} (tail : ∀ s, s.Binds names → Silent p names (next s)) :
    Silent p names (do next (← Typing.state)) :=
  fun s binds => tail s binds s binds

/-! ## Rules -/

theorem resolveName {ctx : Context} (watches : Watches p names) (name : String)
    (position : Position) :
    Silent p names (Typing.resolveName ctx name position) := by
  refine .state fun s binds => ?_
  split
  · refine .bind (.lift fun _ => rfl) fun _ => ?_
    split
    · exact .pure _
    · exact .fail watches rfl
  · split
    · exact .fail watches rfl
    · rename_i free
      exact fun _ _ => ⟨rfl, watches.pending_undefined binds _ (by simpa using free)⟩

mutual

theorem resolve {ctx : Context} (watches : Watches p names) :
    ∀ spec : TypeSpec, Silent p names (Typing.resolve ctx spec)
  | .named name position => by
    rw [Typing.resolve]
    exact resolveName watches name position
  | .array size of => by
    rw [Typing.resolve]
    exact .bind (resolve watches of) fun _ => .pure _
  | .slice of => by
    rw [Typing.resolve]
    exact .bind (resolve watches of) fun _ => .pure _
  | .map key value => by
    rw [Typing.resolve]
    exact .bind (resolve watches key) fun _ => .bind (resolve watches value) fun _ => .pure _
  | .pointer pointee => by
    rw [Typing.resolve]
    exact .bind (resolve watches pointee) fun _ => .pure _
  | .tuple members => by
    rw [Typing.resolve]
    exact .bind (resolveList watches members) fun _ => .pure _
  | .func args results => by
    rw [Typing.resolve]
    exact .bind (resolveList watches args) fun _ =>
      .bind (resolveList watches results) fun _ => .pure _
  | .blank => by
    rw [Typing.resolve]
    exact .pure _

theorem resolveList {ctx : Context} (watches : Watches p names) :
    ∀ specs : List TypeSpec, Silent p names (Typing.resolveList ctx specs)
  | [] => by
    rw [Typing.resolveList]
    exact .pure _
  | spec :: rest => by
    rw [Typing.resolveList]
    exact .bind (resolve watches spec) fun _ => .bind (resolveList watches rest) fun _ => .pure _

end

section Rules

variable {ctx : Context} (watches : Watches p names)

include watches

theorem resolveOr (absent : Ty) (spec : Option TypeSpec) :
    Silent p names (Typing.resolveOr ctx absent spec) := by
  cases spec with
  | none => exact .pure _
  | some spec => exact resolve watches spec

theorem receiverType (receiver : Option Param) :
    Silent p names (Typing.receiverType ctx receiver) := by
  cases receiver with
  | none => exact .pure _
  | some receiver => exact .bind (resolve watches _) fun _ => .pure _

theorem signature (params results : List Param) :
    Silent p names (Typing.signature ctx params results) :=
  .bind (resolveList watches _) fun _ => .bind (resolveList watches _) fun _ => .pure _

theorem funcType (func : Func) : Silent p names (Typing.funcType ctx func) :=
  .bind (receiverType watches _) fun _ => .bind (signature watches _ _) fun _ => .pure _

theorem fieldTypes (fields : List FieldDecl) :
    ∀ before : List FieldTy, Silent p names (Typing.fieldTypes ctx before fields) := by
  induction fields with
  | nil => exact fun before => .pure _
  | cons field rest hypothesis =>
    intro before
    rw [Typing.fieldTypes]
    split
    · exact .bind (.fail watches rfl) fun _ => .bind (resolve watches _) fun _ => hypothesis _
    · exact .bind (resolve watches _) fun _ => hypothesis _

theorem methodTypes (position : Position) (fields : List FieldTy) (methods : List Func) :
    ∀ before : List MethodTy,
      Silent p names (Typing.methodTypes ctx position fields before methods) := by
  induction methods with
  | nil => exact fun before => .pure _
  | cons method rest hypothesis =>
    intro before
    rw [Typing.methodTypes]
    split
    · exact .bind (.fail watches rfl) fun _ => .bind (signature watches _ _) fun _ => hypothesis _
    · exact .bind (signature watches _ _) fun _ => hypothesis _

theorem structTarget (name : String) (position : Position) (fields : List FieldDecl)
    (methods : List Func) :
    Silent p names (Typing.structTarget ctx name position fields methods) :=
  .bind (fieldTypes watches _ _) fun _ => .bind (methodTypes watches _ _ _ _) fun _ => .pure _

theorem underlying (type : Ty) (position : Position) :
    Silent p names (Typing.underlying ctx type position) := by
  refine .state fun s _ => ?_
  split
  · exact .pure _
  · exact .fail watches (Diagnostic.isPlain_ofTypeError _ _ _)

theorem aliasTarget (name : String) (position : Position) (target : TypeSpec) :
    Silent p names (Typing.aliasTarget ctx name position target) := by
  refine .bind (resolve watches _) fun type => ?_
  split
  · exact .bind (.fail watches rfl) fun _ => .pure _
  · exact .pure _

theorem aliasRoot (id : SymbolId) (name : String) (position : Position) :
    Silent p names (Typing.aliasRoot ctx id name position) := by
  refine .state fun s _ => ?_
  split
  · exact .pure _
  · exact .fail watches (Diagnostic.isPlain_ofTypeError _ _ _)

theorem compoundType (spec : Option TypeSpec) (hint : Ty) (position : Position) :
    Silent p names (Typing.compoundType ctx spec hint position) := by
  refine .bind (resolveOr watches _ _) fun type => ?_
  split
  · exact .pure _
  · exact .fail watches rfl

theorem structLayout (struct : StructTy) (elements : List Element) (position : Position) :
    pending p (Typing.structLayout ctx struct elements position) = 0 := by
  unfold Typing.structLayout
  dsimp only
  split
  · split
    · rfl
    · exact watches.pending_error rfl
  · split
    · rfl
    · exact watches.pending_error rfl

theorem layoutOf (type : Ty) (elements : List Element) (position : Position) :
    Silent p names (Typing.layoutOf ctx type elements position) := by
  refine .bind (underlying watches _ _) fun root => ?_
  split
  case h_4 => exact .ofExcept (structLayout watches _ _ _)
  case h_5 => exact .fail watches rfl
  all_goals exact .pure _

theorem layoutNext (layout : Layout) (key : Option Expr) (value : Position) :
    pending p (layout.next ctx key value) = 0 := by
  cases layout with
  | array size of index =>
    simp only [Layout.next]
    split
    · rfl
    · exact watches.pending_error rfl
  | slice of => rfl
  | map keyType valueType =>
    cases key with
    | none => exact watches.pending_error rfl
    | some key => rfl
  | positional fields =>
    cases fields with
    | nil => exact watches.pending_error rfl
    | cons field rest => rfl
  | keyed struct =>
    simp only [Layout.next]
    split
    · exact watches.pending_error rfl
    · split
      · exact watches.pending_error rfl
      · split
        · exact watches.pending_error rfl
        · rfl

theorem checkOperand (op : String) (allowString : Bool) (type : Ty) (position : Position) :
    Silent p names (Typing.checkOperand ctx op allowString type position) := by
  refine .bind (underlying watches _ _) fun root => ?_
  split
  · exact .fail watches rfl
  · exact .pure _

theorem binaryType (op : BinaryOp) (operand : Ty) (position : Position) :
    Silent p names (Typing.binaryType ctx op operand position) := by
  unfold Typing.binaryType
  split
  · exact .pure _
  · exact .bind (checkOperand watches _ _ _ _) fun _ => .pure _

theorem signType (op : UnaryOp) (operand : Ty) (position : Position) :
    Silent p names (Typing.signType ctx op operand position) :=
  .bind (checkOperand watches _ _ _ _) fun _ => .pure _

theorem derefType (operand : Ty) (position : Position) :
    Silent p names (Typing.derefType ctx operand position) := by
  refine .bind (underlying watches _ _) fun root => ?_
  split
  · exact .pure _
  · exact .fail watches rfl

theorem indexTypes (left : Ty) (position : Position) :
    Silent p names (Typing.indexTypes ctx left position) := by
  refine .bind (underlying watches _ _) fun root => ?_
  split
  case h_5 => exact .fail watches rfl
  all_goals exact .pure _

theorem selectorType (left : Ty) (member : String) (position : Position) :
    Silent p names (Typing.selectorType ctx left member position) := by
  refine .bind (.state fun s _ => ?_) fun base => ?_
  · split
    · exact .pure _
    · exact .fail watches (Diagnostic.isPlain_ofTypeError _ _ _)
  · split
    · exact .pure _
    · exact .fail watches rfl

theorem callSignature (callee : Ty) (count : Nat) (position : Position) :
    Silent p names (Typing.callSignature ctx callee count position) := by
  refine .bind (underlying watches _ _) fun root => ?_
  split
  · split
    · exact .pure _
    · exact .fail watches rfl
  · exact .fail watches rfl

theorem conversion? (callee : Expr) : Silent p names (Typing.conversion? ctx callee) := by
  unfold Typing.conversion?
  split
  · exact .bind (resolve watches _) fun _ => .pure _
  · refine .state fun s _ => ?_
    split
    · exact .pure _
    · refine .bind (.lift fun _ => rfl) fun _ => ?_
      split
      · exact .pure _
      · exact .pure _
  · exact .pure _

theorem returnTypes (count : Nat) (position : Position) :
    pending p (Typing.returnTypes ctx count position) = 0 := by
  unfold Typing.returnTypes
  split
  · exact watches.pending_error rfl
  · split
    · rfl
    · split
      · rfl
      · split
        · rfl
        · exact watches.pending_error rfl

theorem settle (what : String) (site : Site) (expected : Ty) (e : Expr) (found : Ty) :
    pending p (Typing.settle what site expected e found).2 = 0 := by
  unfold Typing.settle
  split
  · rfl
  · exact watches.pending_error (Diagnostic.isPlain_ofTypeError _ _ _)

theorem declare (symbol : Symbol) (position : Position) (result : Except Diagnostic Unit) :
    Silent p names (Typing.declare ctx symbol position result) := by
  intro s binds
  cases clash : s.clash? symbol.name with
  | none =>
    rw [run_declare_of_free clash]
    exact ⟨State.tally_markIfFailed _ _ _, rfl⟩
  | some previous =>
    rw [run_declare_of_clash clash]
    exact ⟨rfl, watches.pending_error rfl⟩

end Rules

end Silent

end Tally

end Typing

end PackageCheck
