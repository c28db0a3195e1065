import PackageCheck.Proofs.Ty.Place
import PackageCheck.Typing.Rule

/-! # Types that match

Two runs may give the same symbol different handles. Types of the two match if they are the same but
for the handles, each of which stands for the other. Nothing that a rule finds in a type, and no
text of it, tells a type from one that it matches, and what has a common type on one side has one
on the other. -/

namespace PackageCheck

/-! ## Matching -/

mutual

/-- Whether two types are the same but for the handles in them, which are paired. -/
inductive Ty.Matches (pairs : SymbolId → SymbolId → Prop) : Ty → Ty → Prop
  | simple (name : Simple) : Ty.Matches pairs (.simple name) (.simple name)
  | array (size : UInt64) {of of' : Ty} (inside : Ty.Matches pairs of of') :
    Ty.Matches pairs (.array size of) (.array size of')
  | slice {of of' : Ty} (inside : Ty.Matches pairs of of') :
    Ty.Matches pairs (.slice of) (.slice of')
  | map {key key' value value' : Ty} (keys : Ty.Matches pairs key key')
    (values : Ty.Matches pairs value value') : Ty.Matches pairs (.map key value) (.map key' value')
  | pointer {pointee pointee' : Ty} (inside : Ty.Matches pairs pointee pointee') :
    Ty.Matches pairs (.pointer pointee) (.pointer pointee')
  | tuple {members members' : List Ty} (inside : List.Forall₂ (Ty.Matches pairs) members members') :
    Ty.Matches pairs (.tuple members) (.tuple members')
  | struct {layout layout' : StructTy} (inside : StructTy.Matches pairs layout layout') :
    Ty.Matches pairs (.struct layout) (.struct layout')
  | func {signature signature' : Signature}
    (inside : Signature.Matches pairs signature signature') :
    Ty.Matches pairs (.func signature) (.func signature')
  | custom (name : String) {decl decl' : SymbolId} (paired : pairs decl decl') :
    Ty.Matches pairs (.custom name decl) (.custom name decl')
  | unknown : Ty.Matches pairs .unknown .unknown

/-- Whether two structs are the same but for the handles in them. -/
inductive StructTy.Matches (pairs : SymbolId → SymbolId → Prop) : StructTy → StructTy → Prop
  | mk (name : String) {fields fields' : List FieldTy} {methods methods' : List MethodTy}
    (typed : List.Forall₂ (FieldTy.Matches pairs) fields fields')
    (signed : List.Forall₂ (MethodTy.Matches pairs) methods methods') :
    StructTy.Matches pairs ⟨name, fields, methods⟩ ⟨name, fields', methods'⟩

/-- Whether two fields are the same but for the handles in them. -/
inductive FieldTy.Matches (pairs : SymbolId → SymbolId → Prop) : FieldTy → FieldTy → Prop
  | mk (name : String) {type type' : Ty} (typed : Ty.Matches pairs type type') :
    FieldTy.Matches pairs ⟨name, type⟩ ⟨name, type'⟩

/-- Whether two methods are the same but for the handles in them. -/
inductive MethodTy.Matches (pairs : SymbolId → SymbolId → Prop) : MethodTy → MethodTy → Prop
  | mk (name : String) {signature signature' : Signature}
    (signed : Signature.Matches pairs signature signature') :
    MethodTy.Matches pairs ⟨name, signature⟩ ⟨name, signature'⟩

/-- Whether two signatures are the same but for the handles in them. -/
inductive Signature.Matches (pairs : SymbolId → SymbolId → Prop) : Signature → Signature → Prop
  | mk {args args' results results' : List Ty}
    (taken : List.Forall₂ (Ty.Matches pairs) args args')
    (given : List.Forall₂ (Ty.Matches pairs) results results') :
    Signature.Matches pairs ⟨args, results⟩ ⟨args', results'⟩

end

variable {pairs : SymbolId → SymbolId → Prop}

/-! ## More pairs -/

section Mono

variable {more : SymbolId → SymbolId → Prop}

mutual

theorem Ty.Matches.mono (wider : ∀ id id', pairs id id' → more id id') : ∀ {type type' : Ty},
    Ty.Matches pairs type type' → Ty.Matches more type type'
  | .simple _, _, .simple name => .simple name
  | .array _ _, _, .array size inside => .array size (inside.mono wider)
  | .slice _, _, .slice inside => .slice (inside.mono wider)
  | .map _ _, _, .map keys values => .map (keys.mono wider) (values.mono wider)
  | .pointer _, _, .pointer inside => .pointer (inside.mono wider)
  | .tuple _, _, .tuple inside => .tuple (Ty.Matches.mono_all wider inside)
  | .struct _, _, .struct inside => .struct (inside.mono wider)
  | .func _, _, .func inside => .func (inside.mono wider)
  | .custom _ _, _, .custom name paired => .custom name (wider _ _ paired)
  | .unknown, _, .unknown => .unknown
termination_by structural type => type

theorem Ty.Matches.mono_all (wider : ∀ id id', pairs id id' → more id id') :
    ∀ {types types' : List Ty}, List.Forall₂ (Ty.Matches pairs) types types' →
      List.Forall₂ (Ty.Matches more) types types'
  | [], _, .nil => .nil
  | _ :: _, _, .cons first others => .cons (first.mono wider) (Ty.Matches.mono_all wider others)
termination_by structural types => types

theorem StructTy.Matches.mono (wider : ∀ id id', pairs id id' → more id id') :
    ∀ {layout layout' : StructTy}, StructTy.Matches pairs layout layout' →
      StructTy.Matches more layout layout'
  | ⟨_, _, _⟩, _, .mk name typed signed =>
    .mk name (FieldTy.Matches.mono_all wider typed) (MethodTy.Matches.mono_all wider signed)
termination_by structural layout => layout

theorem FieldTy.Matches.mono_all (wider : ∀ id id', pairs id id' → more id id') :
    ∀ {fields fields' : List FieldTy}, List.Forall₂ (FieldTy.Matches pairs) fields fields' →
      List.Forall₂ (FieldTy.Matches more) fields fields'
  | [], _, .nil => .nil
  | ⟨_, _⟩ :: _, _, .cons (.mk name typed) others =>
    .cons (.mk name (typed.mono wider)) (FieldTy.Matches.mono_all wider others)
termination_by structural fields => fields

theorem MethodTy.Matches.mono_all (wider : ∀ id id', pairs id id' → more id id') :
    ∀ {methods methods' : List MethodTy}, List.Forall₂ (MethodTy.Matches pairs) methods methods' →
      List.Forall₂ (MethodTy.Matches more) methods methods'
  | [], _, .nil => .nil
  | ⟨_, _⟩ :: _, _, .cons (.mk name signed) others =>
    .cons (.mk name (signed.mono wider)) (MethodTy.Matches.mono_all wider others)
termination_by structural methods => methods

theorem Signature.Matches.mono (wider : ∀ id id', pairs id id' → more id id') :
    ∀ {signature signature' : Signature}, Signature.Matches pairs signature signature' →
      Signature.Matches more signature signature'
  | ⟨_, _⟩, _, .mk taken given =>
    .mk (Ty.Matches.mono_all wider taken) (Ty.Matches.mono_all wider given)
termination_by structural signature => signature

end

end Mono

/-! ## What matching types have in common -/

theorem Ty.Matches.isUnknown {type type' : Ty} (same : Ty.Matches pairs type type') :
    type'.isUnknown = type.isUnknown := by
  cases same <;> rfl

mutual

theorem Ty.Matches.known : ∀ {type type' : Ty}, Ty.Matches pairs type type' →
    type'.known = type.known
  | .simple _, _, .simple _ => rfl
  | .array _ _, _, .array _ inside => inside.known
  | .slice _, _, .slice inside => inside.known
  | .map _ _, _, .map keys values => congrArg₂ and keys.known values.known
  | .pointer _, _, .pointer inside => inside.known
  | .tuple _, _, .tuple inside => Ty.Matches.allKnown inside
  | .struct ⟨_, _, _⟩, _, .struct (.mk _ typed _) => FieldTy.Matches.fieldsKnown typed
  | .func ⟨_, _⟩, _, .func (.mk taken given) =>
    congrArg₂ and (Ty.Matches.allKnown taken) (Ty.Matches.allKnown given)
  | .custom _ _, _, .custom _ _ => rfl
  | .unknown, _, .unknown => rfl
termination_by structural type => type

theorem Ty.Matches.allKnown : ∀ {types types' : List Ty},
    List.Forall₂ (Ty.Matches pairs) types types' → Ty.allKnown types' = Ty.allKnown types
  | [], _, .nil => rfl
  | _ :: _, _, .cons first others => congrArg₂ and first.known (Ty.Matches.allKnown others)
termination_by structural types => types

theorem FieldTy.Matches.fieldsKnown : ∀ {fields fields' : List FieldTy},
    List.Forall₂ (FieldTy.Matches pairs) fields fields' →
      Ty.fieldsKnown fields' = Ty.fieldsKnown fields
  | [], _, .nil => rfl
  | ⟨_, _⟩ :: _, _, .cons (.mk _ typed) others =>
    congrArg₂ and typed.known (FieldTy.Matches.fieldsKnown others)
termination_by structural fields => fields

end

mutual

theorem Ty.Matches.render : ∀ {type type' : Ty}, Ty.Matches pairs type type' →
    type'.render = type.render
  | .simple _, _, .simple _ => rfl
  | .array _ _, _, .array _ inside => congrArg ("[" ++ _ ++ "]" ++ ·) inside.render
  | .slice _, _, .slice inside => congrArg ("[]" ++ ·) inside.render
  | .map _ _, _, .map keys values =>
    congrArg₂ ("map[" ++ · ++ "]" ++ ·) keys.render values.render
  | .pointer _, _, .pointer inside => congrArg ("*" ++ ·) inside.render
  | .tuple _, _, .tuple inside => congrArg ("(" ++ · ++ ")") (Ty.Matches.renderList inside)
  | .struct ⟨_, _, _⟩, _, .struct (.mk _ typed _) =>
    congrArg ("\x7b" ++ · ++ "\x7d") (FieldTy.Matches.renderFields typed)
  | .func _, _, .func inside => inside.render
  | .custom _ _, _, .custom _ _ => rfl
  | .unknown, _, .unknown => rfl
termination_by structural type => type

theorem Ty.Matches.renderList : ∀ {types types' : List Ty},
    List.Forall₂ (Ty.Matches pairs) types types' → Ty.renderList types' = Ty.renderList types
  | [], _, .nil => rfl
  | [_], _, .cons only .nil => only.render
  | _ :: _ :: _, _, .cons first (.cons second others) =>
    congrArg₂ (· ++ ", " ++ ·) first.render (Ty.Matches.renderList (.cons second others))
termination_by structural types => types

theorem FieldTy.Matches.renderFields : ∀ {fields fields' : List FieldTy},
    List.Forall₂ (FieldTy.Matches pairs) fields fields' →
      Ty.renderFields fields' = Ty.renderFields fields
  | [], _, .nil => rfl
  | [⟨_, _⟩], _, .cons (.mk name only) .nil => congrArg (name ++ ": " ++ ·) only.render
  | ⟨_, _⟩ :: _ :: _, _, .cons (.mk name first) (.cons second others) =>
    congrArg₂ (name ++ ": " ++ · ++ ", " ++ ·) first.render
      (FieldTy.Matches.renderFields (.cons second others))
termination_by structural fields => fields

theorem Signature.Matches.render : ∀ {signature signature' : Signature},
    Signature.Matches pairs signature signature' → signature'.render = signature.render
  | ⟨_, []⟩, _, .mk taken .nil =>
    congrArg ("func(" ++ · ++ ")") (Ty.Matches.renderList taken)
  | ⟨_, [_]⟩, _, .mk taken (.cons only .nil) =>
    congrArg₂ ("func(" ++ · ++ ") " ++ ·) (Ty.Matches.renderList taken) only.render
  | ⟨_, _ :: _ :: _⟩, _, .mk taken (.cons first (.cons second others)) =>
    congrArg₂ ("func(" ++ · ++ ") (" ++ · ++ ")") (Ty.Matches.renderList taken)
      (Ty.Matches.renderList (.cons first (.cons second others)))
termination_by structural signature => signature

end

/-! ## Members -/

section Members

variable {layout layout' : StructTy}

theorem FieldTy.Matches.names {fields fields' : List FieldTy}
    (typed : List.Forall₂ (FieldTy.Matches pairs) fields fields') :
    fields'.map (·.name) = fields.map (·.name) := by
  induction typed with
  | nil => rfl
  | cons first _ hypothesis =>
    obtain ⟨name, _⟩ := first
    exact congrArg (name :: ·) hypothesis

theorem StructTy.Matches.fields (same : StructTy.Matches pairs layout layout') :
    List.Forall₂ (FieldTy.Matches pairs) layout.fields layout'.fields := by
  obtain ⟨name, typed, signed⟩ := same
  exact typed

theorem StructTy.Matches.field? (same : StructTy.Matches pairs layout layout') (name : String) :
    Option.Rel (Ty.Matches pairs) (layout.field? name) (layout'.field? name) := by
  obtain @⟨_, fields, fields', _, _, typed, -⟩ := same
  have named : ∀ field field' : FieldTy, FieldTy.Matches pairs field field' →
      (field'.name == name) = (field.name == name) := fun _ _ ⟨_, _⟩ => rfl
  have found := rel_find? named typed
  unfold StructTy.field?
  dsimp only
  generalize fields.find? _ = field, fields'.find? _ = field' at found ⊢
  cases found with
  | none => exact .none
  | some related =>
    obtain ⟨_, typed⟩ := related
    exact .some typed

theorem StructTy.Matches.method? (same : StructTy.Matches pairs layout layout') (name : String) :
    Option.Rel (Signature.Matches pairs) (layout.method? name) (layout'.method? name) := by
  obtain @⟨_, _, _, methods, methods', -, signed⟩ := same
  have named : ∀ method method' : MethodTy, MethodTy.Matches pairs method method' →
      (method'.name == name) = (method.name == name) := fun _ _ ⟨_, _⟩ => rfl
  have found := rel_find? named signed
  unfold StructTy.method?
  dsimp only
  generalize methods.find? _ = method, methods'.find? _ = method' at found ⊢
  cases found with
  | none => exact .none
  | some related =>
    obtain ⟨_, signed⟩ := related
    exact .some signed

/-- A member of a type is a member of what it matches. -/
theorem Ty.Matches.memberType? {base base' : Ty} (same : Ty.Matches pairs base base')
    (member : String) : Option.Rel (Ty.Matches pairs) (Typing.memberType? base member)
      (Typing.memberType? base' member) := by
  cases same with
  | @struct layout layout' inside =>
    have field := inside.field? member
    have method := inside.method? member
    simp only [Typing.memberType?]
    generalize layout.field? member = f, layout'.field? member = f' at field ⊢
    generalize layout.method? member = m, layout'.method? member = m' at method ⊢
    cases field with
    | some typed => exact .some typed
    | none =>
      cases method with
      | some signed => exact .some (.func signed)
      | none => exact .none
  | _ => exact .none

theorem Signature.Matches.resultType {signature signature' : Signature}
    (same : Signature.Matches pairs signature signature') :
    Ty.Matches pairs signature.resultType signature'.resultType := by
  obtain ⟨-, given⟩ := same
  unfold Signature.resultType
  cases given with
  | nil => exact .tuple .nil
  | cons first others =>
    cases others with
    | nil => exact first
    | cons second others => exact .tuple (.cons first (.cons second others))

end Members

/-! ## Common types -/

section Unknown

variable {s s' u : Ty} (same : Ty.Matches pairs s s')

include same

theorem Ty.Matches.merge_unknown_left (merged : Ty.unknown.merge s = .ok u) :
    ∃ u', Ty.unknown.merge s' = .ok u' ∧ Ty.Matches pairs u u' := by
  cases same with
  | unknown => cases merged
  | _ =>
    cases merged
    exact ⟨_, rfl, by constructor <;> assumption⟩

theorem Ty.Matches.merge_unknown_right (merged : s.merge .unknown = .ok u) :
    ∃ u', s'.merge .unknown = .ok u' ∧ Ty.Matches pairs u u' := by
  cases same with
  | unknown => cases merged
  | _ =>
    cases merged
    exact ⟨_, rfl, by constructor <;> assumption⟩

end Unknown

mutual

/-- Where two types have a common type so have types that match them, since a handle is paired with
    one handle only. -/
theorem Ty.Matches.merge (single : ∀ id a b, pairs id a → pairs id b → a = b) :
    ∀ {s t u s' t' : Ty}, Ty.Matches pairs s s' → Ty.Matches pairs t t' → s.merge t = .ok u →
      ∃ u', s'.merge t' = .ok u' ∧ Ty.Matches pairs u u'
  | .unknown, _, _, _, _, .unknown, second, merged => second.merge_unknown_left merged
  | .simple _, _, _, _, _, .simple a, second, merged => by
    cases second
    case unknown => exact Ty.Matches.merge_unknown_right (.simple a) merged
    case simple b =>
      simp only [Ty.merge] at merged
      split at merged
      case isTrue same =>
        cases merged
        exact ⟨_, if_pos same, .simple a⟩
      case isFalse => cases merged
    all_goals cases merged
  | .custom _ d, _, _, _, _, .custom name paired, second, merged => by
    cases second
    case unknown => exact Ty.Matches.merge_unknown_right (.custom name paired) merged
    case custom name' e e' paired' =>
      simp only [Ty.merge] at merged
      split at merged
      case isTrue same =>
        cases merged
        subst same
        exact ⟨_, if_pos (single _ _ _ paired paired'), .custom name paired⟩
      case isFalse => cases merged
    all_goals cases merged
  | .array _ s, _, _, _, _, .array m first, second, merged => by
    cases second
    case unknown => exact Ty.Matches.merge_unknown_right (.array m first) merged
    case array n t t' second =>
      simp only [Ty.merge] at merged
      split at merged
      case isTrue same =>
        obtain ⟨of, inner, rfl⟩ := Except.map_eq_ok merged
        obtain ⟨of', inner', inside⟩ := first.merge single second inner
        refine ⟨.array m of', ?_, .array m inside⟩
        rw [Ty.merge, if_pos same, inner']
        rfl
      case isFalse => cases merged
    all_goals cases merged
  | .slice s, _, _, _, _, .slice first, second, merged => by
    cases second
    case unknown => exact Ty.Matches.merge_unknown_right (.slice first) merged
    case slice t t' second =>
      obtain ⟨of, inner, rfl⟩ := Except.map_eq_ok merged
      obtain ⟨of', inner', inside⟩ := first.merge single second inner
      exact ⟨.slice of', by rw [Ty.merge, inner']; rfl, .slice inside⟩
    all_goals cases merged
  | .pointer s, _, _, _, _, .pointer first, second, merged => by
    cases second
    case unknown => exact Ty.Matches.merge_unknown_right (.pointer first) merged
    case pointer t t' second =>
      obtain ⟨pointee, inner, rfl⟩ := Except.map_eq_ok merged
      obtain ⟨pointee', inner', inside⟩ := first.merge single second inner
      exact ⟨.pointer pointee', by rw [Ty.merge, inner']; rfl, .pointer inside⟩
    all_goals cases merged
  | .map k v, _, _, _, _, .map first firsts, second, merged => by
    cases second
    case unknown => exact Ty.Matches.merge_unknown_right (.map first firsts) merged
    case map l l' w w' second seconds =>
      simp only [Ty.merge] at merged
      obtain ⟨key, keys, merged⟩ := Except.bind_eq_ok merged
      obtain ⟨value, values, merged⟩ := Except.bind_eq_ok merged
      cases merged
      obtain ⟨key', keys', inside⟩ := first.merge single second keys
      obtain ⟨value', values', insides⟩ := firsts.merge single seconds values
      exact ⟨.map key' value', by rw [Ty.merge, keys', values']; rfl, .map inside insides⟩
    all_goals cases merged
  | .tuple ss, _, _, _, _, .tuple firsts, second, merged => by
    cases second
    case unknown => exact Ty.Matches.merge_unknown_right (.tuple firsts) merged
    case tuple ts ts' seconds =>
      simp only [Ty.merge] at merged
      split at merged
      case isTrue same =>
        obtain ⟨members, inner, rfl⟩ := Except.map_eq_ok merged
        obtain ⟨members', inner', insides⟩ := Ty.Matches.mergeAll single firsts seconds inner
        rw [firsts.length_eq, seconds.length_eq] at same
        refine ⟨.tuple members', ?_, .tuple insides⟩
        rw [Ty.merge, if_pos same, inner']
        rfl
      case isFalse => cases merged
    all_goals cases merged
  | .func ⟨as, rs⟩, _, _, _, _, .func (.mk taken given), second, merged => by
    cases second
    case unknown => exact Ty.Matches.merge_unknown_right (.func (.mk taken given)) merged
    case func second =>
      obtain ⟨taken', given'⟩ := second
      simp only [Ty.merge] at merged
      split at merged
      case isTrue same =>
        obtain ⟨args, argsMerged, merged⟩ := Except.bind_eq_ok merged
        obtain ⟨results, resultsMerged, merged⟩ := Except.bind_eq_ok merged
        cases merged
        obtain ⟨args', argsMerged', insides⟩ := Ty.Matches.mergeAll single taken taken' argsMerged
        obtain ⟨results', resultsMerged', others⟩ :=
          Ty.Matches.mergeAll single given given' resultsMerged
        rw [taken.length_eq, taken'.length_eq, given.length_eq, given'.length_eq] at same
        refine ⟨.func ⟨args', results'⟩, ?_, .func (.mk insides others)⟩
        rw [Ty.merge, if_pos same, argsMerged', resultsMerged']
        rfl
      case isFalse => cases merged
    all_goals cases merged
  | .struct ⟨_, fs, methods⟩, _, _, _, _, .struct (.mk name typed signed), second, merged => by
    cases second
    case unknown => exact Ty.Matches.merge_unknown_right (.struct (.mk name typed signed)) merged
    case struct second =>
      obtain ⟨name', typed', signed'⟩ := second
      simp only [Ty.merge] at merged
      split at merged
      case isTrue same =>
        obtain ⟨fields, inner, merged⟩ := Except.bind_eq_ok merged
        cases merged
        obtain ⟨fields', inner', insides⟩ := FieldTy.Matches.mergeFields single typed typed' inner
        rw [← FieldTy.Matches.names typed, ← FieldTy.Matches.names typed'] at same
        refine ⟨.struct ⟨name, fields', _⟩, ?_, .struct (.mk name insides signed)⟩
        rw [Ty.merge, if_pos same, inner']
        rfl
      case isFalse => cases merged
    all_goals cases merged
termination_by structural s => s

theorem Ty.Matches.mergeAll (single : ∀ id a b, pairs id a → pairs id b → a = b) :
    ∀ {ss ts us ss' ts' : List Ty}, List.Forall₂ (Ty.Matches pairs) ss ss' →
      List.Forall₂ (Ty.Matches pairs) ts ts' → Ty.mergeAll ss ts = .ok us →
        ∃ us', Ty.mergeAll ss' ts' = .ok us' ∧ List.Forall₂ (Ty.Matches pairs) us us'
  | [], _, _, _, _, .nil, second, merged => by
    cases merged
    exact ⟨_, rfl, .nil⟩
  | _ :: _, _, _, _, _, .cons _ _, .nil, merged => by
    cases merged
    exact ⟨_, rfl, .nil⟩
  | s :: ss, _, _, _, _, .cons first firsts, .cons second seconds, merged => by
    simp only [Ty.mergeAll] at merged
    obtain ⟨u, head, merged⟩ := Except.bind_eq_ok merged
    obtain ⟨us, tail, merged⟩ := Except.bind_eq_ok merged
    cases merged
    obtain ⟨u', head', inside⟩ := first.merge single second head
    obtain ⟨us', tail', insides⟩ := Ty.Matches.mergeAll single firsts seconds tail
    exact ⟨u' :: us', by rw [Ty.mergeAll, head', tail']; rfl, .cons inside insides⟩
termination_by structural ss => ss

theorem FieldTy.Matches.mergeFields (single : ∀ id a b, pairs id a → pairs id b → a = b) :
    ∀ {fs gs hs fs' gs' : List FieldTy}, List.Forall₂ (FieldTy.Matches pairs) fs fs' →
      List.Forall₂ (FieldTy.Matches pairs) gs gs' → Ty.mergeFields fs gs = .ok hs →
        ∃ hs', Ty.mergeFields fs' gs' = .ok hs' ∧ List.Forall₂ (FieldTy.Matches pairs) hs hs'
  | [], _, _, _, _, .nil, second, merged => by
    cases merged
    exact ⟨_, rfl, .nil⟩
  | ⟨_, _⟩ :: _, _, _, _, _, .cons (.mk _ _) _, .nil, merged => by
    cases merged
    exact ⟨_, rfl, .nil⟩
  | ⟨_, s⟩ :: fs, _, _, _, _, .cons (.mk name first) firsts, .cons (.mk _ second) seconds, merged => by
    simp only [Ty.mergeFields] at merged
    obtain ⟨u, head, merged⟩ := Except.bind_eq_ok merged
    obtain ⟨hs, tail, merged⟩ := Except.bind_eq_ok merged
    cases merged
    obtain ⟨u', head', inside⟩ := first.merge single second head
    obtain ⟨hs', tail', insides⟩ := FieldTy.Matches.mergeFields single firsts seconds tail
    exact ⟨⟨name, u'⟩ :: hs', by rw [Ty.mergeFields, head', tail']; rfl, .cons (.mk name inside) insides⟩
termination_by structural fs => fs

end

theorem Ty.Matches.negotiate (single : ∀ id a b, pairs id a → pairs id b → a = b)
    {s t u s' t' : Ty} (first : Ty.Matches pairs s s') (second : Ty.Matches pairs t t')
    (negotiated : s.negotiate t = .ok u) :
    ∃ u', s'.negotiate t' = .ok u' ∧ Ty.Matches pairs u u' := by
  obtain ⟨u', merged, same⟩ := first.merge single second (Ty.merge_of_negotiate negotiated)
  exact ⟨u', by rw [Ty.negotiate, merged], same⟩

end PackageCheck
