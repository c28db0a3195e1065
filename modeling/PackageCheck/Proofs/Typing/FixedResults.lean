import PackageCheck.Proofs.Typing.Annotations
import PackageCheck.Proofs.Typing.Frame
import PackageCheck.Proofs.Typing.FixedRules

/-! # Expressions that come to the same twice

An expression has the same type, or none, in all states that share an outlook. What a function literal
declares in its body is out of sight behind it, and the annotations that a check leaves are looked at
by nothing: not even the keys of a literal, whose numbers and names are read again once they have been
checked. -/

namespace PackageCheck.Typing

open Check

variable {outlook : Outlook} {ctx : Context}

/-- The next place of a layout is that of the key as it was written. -/
theorem Layout.next_erase {layout : Layout} {key key' : Option Expr}
    {position : Position} (same : Expr.eraseOption id key' = Expr.eraseOption id key) :
    layout.next ctx key' position = layout.next ctx key position := by
  have erased : ∀ key : Option Expr,
      layout.next ctx (Expr.eraseOption id key) position = layout.next ctx key position := by
    intro key
    cases key with
    | none => rfl
    | some key => exact Layout.next_alike (.some (.erase key))
  rw [← erased key', same, erased key]

theorem checkBody_finds (ctx : Context) (func : Func) (signature : Signature)
    (receiver : Option Ty) :
    (checkBody ctx func signature receiver).Finds outlook fun _ => True := by
  obtain ⟨name, declared, params, results, body⟩ := func
  rw [checkBody]
  exact .withScope _

/-- The next place of a layout behind a key that comes to the same. -/
theorem Check.FixedNode.next {layout : Layout} {key : Option Expr}
    (laidOut : layout.ValidIn outlook.world) (position : Position)
    (inside : (checkKey ctx layout key).FixedNode outlook fun _ => True) :
    Fixed outlook (fun checked => checked.2.bind fun _ => layout.next ctx checked.1 position)
      (checkKey ctx layout key) fun place =>
        place.1.ValidIn outlook.world ∧ place.2.ValidIn outlook.world := by
  obtain ⟨outcome, -, finds⟩ := inside
  have shown := finds.also fun table => @checkKey_shows table id ctx layout key
  refine ⟨outcome.bind fun _ => (layout.next ctx key position).toOption, fun place same => ?_,
    shown.imp fun checked ⟨ended, holds⟩ => ?_⟩
  · obtain ⟨_, -, next⟩ := Option.bind_eq_some_iff.mp same
    have valid := @Layout.ValidIn.next outlook.world ctx layout laidOut key position
    rw [Except.toOption_eq_some.mp next] at valid
    exact valid
  · dsimp only
    rw [← ended, Layout.next_erase holds.1]
    cases checked.2 <;> rfl

/-- An expression comes to what its form comes to. -/
theorem infer_yields {position : Position} {form : ExprForm} {hint : Ty} {o : Option Ty} (type : Ty)
    (inside : (inferForm ctx position form hint).YieldsNode outlook o) :
    (infer ctx ⟨position, form, type⟩ hint).YieldsNode outlook o := by
  have behind : (infer ctx ⟨position, form, type⟩ hint).YieldsNode outlook (o.bind some) := by
    rw [infer]
    exact YieldsNode.bind inside (fun _ _ _ => YieldsNode.pure) fun _ _ => YieldsNode.pure
  rwa [Option.bind_fun_some] at behind

mutual

theorem infer_fixed (ctx : Context) : ∀ (e : Expr) (hint : Ty), hint.ValidIn outlook.world →
    (infer ctx e hint).FixedNode outlook (Ty.ValidIn outlook.world)
  | ⟨position, form, type⟩, hint, wanted =>
    (inferForm_fixed ctx position form hint wanted).imp fun _ => And.imp_right (infer_yields type)

theorem inferForm_fixed (ctx : Context) (position : Position) :
    ∀ (form : ExprForm) (hint : Ty), hint.ValidIn outlook.world →
      (inferForm ctx position form hint).FixedNode outlook (Ty.ValidIn outlook.world)
  | .literal literal, hint, wanted => by
    rw [inferForm]
    refine FixedNode.ok ?_
    cases literal.kind <;> exact True.intro
  | .blank, hint, wanted => FixedNode.ok True.intro
  | .compound spec shape elements, hint, wanted => by
    rw [inferForm]
    refine .given (compoundType_fixed spec position wanted) fun type own => ?_
    split
    · exact FixedNode.ok own
    · refine .given (layoutOf_fixed elements position own) fun layout laidOut => ?_
      exact .rebuild (.mapResult (checkElements_fixed ctx elements layout laidOut) fun _ _ => own)
  | .binary op left right, hint, wanted => by
    rw [inferForm]
    split
    · refine .rebuild (.mapResult (W := Ty.ValidIn outlook.world) (.andThen
        (.expecting True.intro (infer_fixed ctx left _ True.intro)) fun _ _ => ?_)
        fun _ _ => True.intro)
      exact .expecting True.intro (infer_fixed ctx right _ True.intro)
    · refine .rebuild (.conclude (W := Ty.ValidIn outlook.world) (.andThen
        (infer_fixed ctx left _ True.intro) fun type own => ?_) fun operand valid => ?_)
      · exact .expecting own (infer_fixed ctx right _ own)
      · exact binaryType_fixed op position valid
  | .unary op operand, hint, wanted => by
    cases op with
    | plus | minus =>
      exact .rebuild (.conclude (infer_fixed ctx operand hint wanted)
        fun _ own => signType_fixed _ position own)
    | not => exact .rebuild (.expecting True.intro (infer_fixed ctx operand _ True.intro))
    | addressOf =>
      exact .rebuild (.mapResult (infer_fixed ctx operand _ (pointeeHint_valid wanted))
        fun _ own => own)
    | deref =>
      exact .rebuild (.conclude (infer_fixed ctx operand _ True.intro)
        fun _ own => derefType_fixed position own)
  | .index left index, hint, wanted => by
    rw [inferForm]
    refine .rebuild (.andThen (.conclude (infer_fixed ctx left _ True.intro) fun _ own =>
      indexTypes_fixed position own) fun types both => ?_)
    exact .mapResult (.expecting both.1 (infer_fixed ctx index _ both.1)) fun _ _ => both.2
  | .selector left field, hint, wanted => by
    rw [inferForm]
    exact .rebuild (.conclude (infer_fixed ctx left _ True.intro)
      fun _ own => selectorType_fixed field position own)
  | .call callee args, hint, wanted => by
    rw [inferForm]
    refine .given (conversion?_fixed callee) fun target converts => ?_
    cases target with
    | some target =>
      have own := converts target rfl
      match args with
      | [] => exact FixedNode.error
      | [arg] => exact .rebuild (.mapResult (infer_fixed ctx arg _ own) fun _ _ => own)
      | _ :: _ :: _ => exact FixedNode.error
    | none =>
      refine .rebuild (.andThen (.conclude (infer_fixed ctx callee _ True.intro) fun _ own =>
        callSignature_fixed args.length position own) fun signature own => ?_)
      obtain ⟨types, results⟩ := signature
      exact .mapResult (expectAll_fixed ctx args types own.1) fun _ _ => own.resultType
  | .func func, hint, wanted => by
    rw [inferForm]
    refine .given (funcType_fixed func) fun found own => ?_
    obtain ⟨receiver, signature⟩ := found
    have typed : Ty.ValidIn outlook.world (.func signature) := own
    exact ⟨some (.func signature), fun _ same => Option.some.inj same ▸ typed,
      (checkBody_finds ctx func signature receiver).bind fun _ _ => YieldsNode.pure⟩
  | .ident ident, hint, wanted => by
    rw [inferForm]
    exact .rebuild (inferIdent_fixed ident position)
  | .type spec, hint, wanted => FixedNode.error

theorem expectAll_fixed (ctx : Context) : ∀ (es : List Expr) (types : List Ty),
    Ty.AllValidIn outlook.world types →
      (expectAll ctx es types).FixedNode outlook fun _ => True
  | e :: es, type :: types, wanted => by
    rw [expectAll]
    exact .rebuild (.andThen (.expecting wanted.1 (infer_fixed ctx e type wanted.1)) fun _ _ =>
      expectAll_fixed ctx es types wanted.2)
  | [], _, _ => FixedNode.ok True.intro
  | _ :: _, [], _ => FixedNode.ok True.intro

theorem checkKey_fixed (ctx : Context) (layout : Layout) (laidOut : layout.ValidIn outlook.world) :
    ∀ key : Option Expr, (checkKey ctx layout key).FixedNode outlook fun _ => True
  | none => FixedNode.ok True.intro
  | some key => by
    rw [checkKey]
    split
    case h_1 => exact FixedNode.ok True.intro
    case h_2 type keyed =>
      have own := laidOut.keyType? keyed
      exact .rebuild (.mapResult (.expecting own (infer_fixed ctx key type own)) fun _ _ =>
        True.intro)

theorem checkElements_fixed (ctx : Context) : ∀ (elements : List Element) (layout : Layout),
    layout.ValidIn outlook.world →
      (checkElements ctx elements layout).FixedNode outlook fun _ => True
  | [], layout, _ => FixedNode.ok True.intro
  | ⟨key, value⟩ :: rest, layout, laidOut => by
    rw [checkElements]
    have place := (checkKey_fixed ctx layout laidOut key).next laidOut value.position
    have behind : ∀ a : Ty × Layout, a.1.ValidIn outlook.world ∧ a.2.ValidIn outlook.world →
        ((expecting ctx a.1 (infer ctx value)).andThen rest fun _ =>
          checkElements ctx rest a.2).FixedNode outlook fun _ => True := fun a valid =>
      .andThen (.expecting valid.1 (infer_fixed ctx value a.1 valid.1)) fun _ _ =>
        checkElements_fixed ctx rest a.2 valid.2
    -- once the element has a place, nothing looks at its key any more
    refine Fixed.bindOutcome place behind fun o k yields goes => ?_
    refine Yields.bind yields (fun checked a same found => ?_) fun checked err failed => ?_
    · dsimp only
      rw [found]
      exact YieldsNode.rebuild (goes a same)
    · dsimp only
      rw [failed]
      exact YieldsNode.pure

end

end PackageCheck.Typing
