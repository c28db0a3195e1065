import PackageCheck.Proofs.Ty.Refinement
import PackageCheck.Symbol.Basic

/-! # Complete types

A type is complete if nothing is left open anywhere inside of it, the signatures of methods
included. `Ty.known` does not look at methods. So the two agree on the types without structs inside,
the nominal ones: there a struct can only be referred to by its name. -/

namespace PackageCheck

/-! ## Completeness -/

mutual

/-- Whether the type is open nowhere. A custom type stands for its declaration. -/
def Ty.complete : Ty → Bool
  | .simple _ => true
  | .array _ of => of.complete
  | .slice of => of.complete
  | .map key value => key.complete && value.complete
  | .pointer pointee => pointee.complete
  | .tuple members => Ty.allComplete members
  | .struct ⟨_, fields, methods⟩ => Ty.fieldsComplete fields && Ty.methodsComplete methods
  | .func signature => signature.complete
  | .custom _ _ => true
  | .unknown => false

/-- Whether the arguments and results of a signature are open nowhere. -/
def Signature.complete : Signature → Bool
  | ⟨args, results⟩ => Ty.allComplete args && Ty.allComplete results

/-- Whether the types of a list are open nowhere. -/
def Ty.allComplete : List Ty → Bool
  | [] => true
  | type :: rest => type.complete && Ty.allComplete rest

/-- Whether the types of fields are open nowhere. -/
def Ty.fieldsComplete : List FieldTy → Bool
  | [] => true
  | ⟨_, type⟩ :: rest => type.complete && Ty.fieldsComplete rest

/-- Whether the signatures of methods are open nowhere. -/
def Ty.methodsComplete : List MethodTy → Bool
  | [] => true
  | ⟨_, signature⟩ :: rest => signature.complete && Ty.methodsComplete rest

end

/-- Whether the declaration leads to a type that is open nowhere. The name of a simple type leads
    to no other one. -/
def TypeDecl.complete (decl : TypeDecl) : Bool :=
  decl.aliased.all Ty.complete

/-- Whether the type of a variable, or that behind a declared type, is open nowhere. -/
def Symbol.complete : Symbol → Bool
  | .var v => v.type.complete
  | .type decl => decl.complete
  | .label _ => true
  | .package _ => true

theorem Ty.fieldsComplete_append (fields others : List FieldTy) :
    Ty.fieldsComplete (fields ++ others) =
      (Ty.fieldsComplete fields && Ty.fieldsComplete others) := by
  induction fields with
  | nil => simp [Ty.fieldsComplete]
  | cons field rest ih =>
    obtain ⟨name, type⟩ := field
    simp [Ty.fieldsComplete, ih, Bool.and_assoc]

theorem Ty.methodsComplete_append (methods others : List MethodTy) :
    Ty.methodsComplete (methods ++ others) =
      (Ty.methodsComplete methods && Ty.methodsComplete others) := by
  induction methods with
  | nil => simp [Ty.methodsComplete]
  | cons method rest ih =>
    obtain ⟨name, signature⟩ := method
    simp [Ty.methodsComplete, ih, Bool.and_assoc]

/-! ## Nominal types -/

mutual

/-- Whether there is no struct inside the type, though there may be names of structs. -/
def Ty.nominal : Ty → Bool
  | .array _ of => of.nominal
  | .slice of => of.nominal
  | .map key value => key.nominal && value.nominal
  | .pointer pointee => pointee.nominal
  | .tuple members => Ty.allNominal members
  | .struct _ => false
  | .func signature => signature.nominal
  | _ => true

/-- Whether there is no struct in the arguments and results of a signature. -/
def Signature.nominal : Signature → Bool
  | ⟨args, results⟩ => Ty.allNominal args && Ty.allNominal results

/-- Whether there is no struct in the types of a list. -/
def Ty.allNominal : List Ty → Bool
  | [] => true
  | type :: rest => type.nominal && Ty.allNominal rest

end

mutual

/-- A nominal type is complete as soon as it is known. -/
theorem Ty.complete_eq_known : ∀ {type : Ty}, type.nominal = true → type.complete = type.known
  | .simple _, _ => rfl
  | .array _ of, nominal => by
    have inside : of.complete = of.known := Ty.complete_eq_known nominal
    exact inside
  | .slice of, nominal => by
    have inside : of.complete = of.known := Ty.complete_eq_known nominal
    exact inside
  | .map key value, nominal => by
    simp only [Ty.nominal, Bool.and_eq_true] at nominal
    rw [Ty.complete, Ty.known, Ty.complete_eq_known nominal.1, Ty.complete_eq_known nominal.2]
  | .pointer pointee, nominal => by
    have inside : pointee.complete = pointee.known := Ty.complete_eq_known nominal
    exact inside
  | .tuple members, nominal => by
    have inside : Ty.allComplete members = Ty.allKnown members :=
      Ty.allComplete_eq_allKnown nominal
    exact inside
  | .struct _, nominal => nomatch nominal
  | .func ⟨args, results⟩, nominal => by
    simp only [Ty.nominal, Signature.nominal, Bool.and_eq_true] at nominal
    simp only [Ty.complete, Signature.complete, Ty.known, Signature.known,
      Ty.allComplete_eq_allKnown nominal.1, Ty.allComplete_eq_allKnown nominal.2]
  | .custom _ _, _ => rfl
  | .unknown, _ => rfl

theorem Ty.allComplete_eq_allKnown : ∀ {types : List Ty}, Ty.allNominal types = true →
    Ty.allComplete types = Ty.allKnown types
  | [], _ => rfl
  | type :: rest, nominal => by
    simp only [Ty.allNominal, Bool.and_eq_true] at nominal
    rw [Ty.allComplete, Ty.allKnown, Ty.complete_eq_known nominal.1,
      Ty.allComplete_eq_allKnown nominal.2]

end

mutual

theorem Ty.Merged.nominal : ∀ {s t u : Ty}, Ty.Merged s t u → s.nominal = true →
    t.nominal = true → u.nominal = true
  | _, _, _, .found type, _, found => found
  | _, _, _, .expected type, expected, _ => expected
  | _, _, _, .simple s, _, _ => rfl
  | _, _, _, .custom name name' decl, _, _ => rfl
  | _, _, _, .array size of, first, second => of.nominal first second
  | _, _, _, .slice of, first, second => of.nominal first second
  | _, _, _, .pointer pointee, first, second => pointee.nominal first second
  | _, _, _, .map key value, first, second => by
    simp only [Ty.nominal, Bool.and_eq_true] at first second ⊢
    exact ⟨key.nominal first.1 second.1, value.nominal first.2 second.2⟩
  | _, _, _, .tuple members, first, second => members.nominal first second
  | _, _, _, .func args results, first, second => by
    simp only [Ty.nominal, Signature.nominal, Bool.and_eq_true] at first second ⊢
    exact ⟨args.nominal first.1 second.1, results.nominal first.2 second.2⟩
  | _, _, _, .struct name name' methods methods' fields, first, _ => nomatch first

theorem Ty.AllMerged.nominal : ∀ {ss ts us : List Ty}, Ty.AllMerged ss ts us →
    Ty.allNominal ss = true → Ty.allNominal ts = true → Ty.allNominal us = true
  | _, _, _, .nil, _, _ => rfl
  | _, _, _, .cons head tail, first, second => by
    simp only [Ty.allNominal, Bool.and_eq_true] at first second ⊢
    exact ⟨head.nominal first.1 second.1, tail.nominal first.2 second.2⟩

end

/-- The common type of nominal types is nominal. -/
theorem Ty.nominal_merge {s t u : Ty} (expected : s.nominal = true) (found : t.nominal = true)
    (merged : s.merge t = .ok u) : u.nominal = true :=
  (Ty.merged_of_merge merged).nominal expected found

end PackageCheck
