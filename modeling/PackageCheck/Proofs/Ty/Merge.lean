import PackageCheck.Ty.Negotiation

/-! # How a common type comes about

Wherever two types have a common type, one of them is unknown and the other one decides, or both
are of one shape and their parts have common types. What holds of a common type is then proved along
these cases, without another look at `Ty.merge`. -/

namespace PackageCheck

/-! ## Results -/

section Results

variable {ε : Type}

theorem Except.map_eq_ok {α β : Type} {f : α → β} {result : Except ε α} {b : β}
    (mapped : result.map f = .ok b) : ∃ a, result = .ok a ∧ f a = b := by
  cases result with
  | error err => cases mapped
  | ok a => exact ⟨a, rfl, Except.ok.inj mapped⟩

theorem Except.bind_eq_ok {α β : Type} {f : α → Except ε β} {result : Except ε α} {b : β}
    (bound : result >>= f = .ok b) : ∃ a, result = .ok a ∧ f a = .ok b := by
  cases result with
  | error err => cases bound
  | ok a => exact ⟨a, rfl, bound⟩

end Results

/-! ## Merged types -/

mutual

/-- Whether the third type is the common type of the others. -/
inductive Ty.Merged : Ty → Ty → Ty → Prop
  | found (type : Ty) : Ty.Merged .unknown type type
  | expected (type : Ty) : Ty.Merged type .unknown type
  | simple (s : Simple) : Ty.Merged (.simple s) (.simple s) (.simple s)
  | custom (name name' : String) (decl : SymbolId) :
    Ty.Merged (.custom name decl) (.custom name' decl) (.custom name decl)
  | array (size : UInt64) {s t u : Ty} (of : Ty.Merged s t u) :
    Ty.Merged (.array size s) (.array size t) (.array size u)
  | slice {s t u : Ty} (of : Ty.Merged s t u) : Ty.Merged (.slice s) (.slice t) (.slice u)
  | pointer {s t u : Ty} (pointee : Ty.Merged s t u) :
    Ty.Merged (.pointer s) (.pointer t) (.pointer u)
  | map {k l m v w x : Ty} (key : Ty.Merged k l m) (value : Ty.Merged v w x) :
    Ty.Merged (.map k v) (.map l w) (.map m x)
  | tuple {ss ts us : List Ty} (members : Ty.AllMerged ss ts us) :
    Ty.Merged (.tuple ss) (.tuple ts) (.tuple us)
  | func {as bs cs rs ss ts : List Ty} (args : Ty.AllMerged as bs cs)
    (results : Ty.AllMerged rs ss ts) :
    Ty.Merged (.func ⟨as, rs⟩) (.func ⟨bs, ss⟩) (.func ⟨cs, ts⟩)
  /-- The name and the methods are those of the first struct. -/
  | struct (name name' : String) (methods methods' : List MethodTy) {fs gs hs : List FieldTy}
    (fields : Ty.FieldsMerged fs gs hs) :
    Ty.Merged (.struct ⟨name, fs, methods⟩) (.struct ⟨name', gs, methods'⟩)
      (.struct ⟨name, hs, methods⟩)

/-- Whether the lists are of one length, and merged place by place. -/
inductive Ty.AllMerged : List Ty → List Ty → List Ty → Prop
  | nil : Ty.AllMerged [] [] []
  | cons {s t u : Ty} {ss ts us : List Ty} (head : Ty.Merged s t u)
    (tail : Ty.AllMerged ss ts us) : Ty.AllMerged (s :: ss) (t :: ts) (u :: us)

/-- Whether the lists have the same field names, and are merged place by place. -/
inductive Ty.FieldsMerged : List FieldTy → List FieldTy → List FieldTy → Prop
  | nil : Ty.FieldsMerged [] [] []
  | cons (name : String) {s t u : Ty} {fs gs hs : List FieldTy} (head : Ty.Merged s t u)
    (tail : Ty.FieldsMerged fs gs hs) :
    Ty.FieldsMerged (⟨name, s⟩ :: fs) (⟨name, t⟩ :: gs) (⟨name, u⟩ :: hs)

end

mutual

theorem Ty.merged_of_merge : ∀ {s t u : Ty}, s.merge t = .ok u → Ty.Merged s t u
  | .unknown, t, u, merged => by
    cases t
    case unknown => cases merged
    all_goals
      cases merged
      exact .found _
  | .simple a, t, u, merged => by
    cases t
    case unknown =>
      cases merged
      exact .expected _
    case simple b =>
      simp only [Ty.merge] at merged
      split at merged
      case isTrue same =>
        cases merged
        exact same ▸ .simple a
      case isFalse => cases merged
    all_goals cases merged
  | .custom name d, t, u, merged => by
    cases t
    case unknown =>
      cases merged
      exact .expected _
    case custom name' e =>
      simp only [Ty.merge] at merged
      split at merged
      case isTrue same =>
        cases merged
        exact same ▸ .custom name name' d
      case isFalse => cases merged
    all_goals cases merged
  | .array m s, t, u, merged => by
    cases t
    case unknown =>
      cases merged
      exact .expected _
    case array n t =>
      simp only [Ty.merge] at merged
      split at merged
      case isTrue same =>
        obtain ⟨of, inner, rfl⟩ := Except.map_eq_ok merged
        exact same ▸ .array m (Ty.merged_of_merge inner)
      case isFalse => cases merged
    all_goals cases merged
  | .slice s, t, u, merged => by
    cases t
    case unknown =>
      cases merged
      exact .expected _
    case slice t =>
      simp only [Ty.merge] at merged
      obtain ⟨of, inner, rfl⟩ := Except.map_eq_ok merged
      exact .slice (Ty.merged_of_merge inner)
    all_goals cases merged
  | .pointer s, t, u, merged => by
    cases t
    case unknown =>
      cases merged
      exact .expected _
    case pointer t =>
      simp only [Ty.merge] at merged
      obtain ⟨pointee, inner, rfl⟩ := Except.map_eq_ok merged
      exact .pointer (Ty.merged_of_merge inner)
    all_goals cases merged
  | .map k v, t, u, merged => by
    cases t
    case unknown =>
      cases merged
      exact .expected _
    case map l w =>
      simp only [Ty.merge] at merged
      obtain ⟨key, keys, merged⟩ := Except.bind_eq_ok merged
      obtain ⟨value, values, merged⟩ := Except.bind_eq_ok merged
      cases merged
      exact .map (Ty.merged_of_merge keys) (Ty.merged_of_merge values)
    all_goals cases merged
  | .tuple ss, t, u, merged => by
    cases t
    case unknown =>
      cases merged
      exact .expected _
    case tuple ts =>
      simp only [Ty.merge] at merged
      split at merged
      case isTrue same =>
        obtain ⟨members, inner, rfl⟩ := Except.map_eq_ok merged
        exact .tuple (Ty.merged_of_mergeAll same inner)
      case isFalse => cases merged
    all_goals cases merged
  | .func ⟨as, rs⟩, t, u, merged => by
    cases t
    case unknown =>
      cases merged
      exact .expected _
    case func signature =>
      obtain ⟨bs, ss⟩ := signature
      simp only [Ty.merge] at merged
      split at merged
      case isTrue same =>
        obtain ⟨args, argsMerged, merged⟩ := Except.bind_eq_ok merged
        obtain ⟨results, resultsMerged, merged⟩ := Except.bind_eq_ok merged
        cases merged
        exact .func (Ty.merged_of_mergeAll same.1 argsMerged)
          (Ty.merged_of_mergeAll same.2 resultsMerged)
      case isFalse => cases merged
    all_goals cases merged
  | .struct ⟨name, fs, methods⟩, t, u, merged => by
    cases t
    case unknown =>
      cases merged
      exact .expected _
    case struct layout =>
      obtain ⟨name', gs, methods'⟩ := layout
      simp only [Ty.merge] at merged
      split at merged
      case isTrue same =>
        obtain ⟨fields, inner, merged⟩ := Except.bind_eq_ok merged
        cases merged
        exact .struct name name' methods methods' (Ty.merged_of_mergeFields same inner)
      case isFalse => cases merged
    all_goals cases merged

theorem Ty.merged_of_mergeAll : ∀ {ss ts us : List Ty}, ss.length = ts.length →
    Ty.mergeAll ss ts = .ok us → Ty.AllMerged ss ts us
  | [], [], us, _, merged => by
    cases merged
    exact .nil
  | s :: ss, t :: ts, us, same, merged => by
    simp only [Ty.mergeAll] at merged
    obtain ⟨u, head, merged⟩ := Except.bind_eq_ok merged
    obtain ⟨us', tail, merged⟩ := Except.bind_eq_ok merged
    cases merged
    exact .cons (Ty.merged_of_merge head) (Ty.merged_of_mergeAll (Nat.succ.inj same) tail)
  | [], _ :: _, _, same, _ => nomatch same
  | _ :: _, [], _, same, _ => nomatch same

theorem Ty.merged_of_mergeFields : ∀ {fs gs hs : List FieldTy},
    fs.map (·.name) = gs.map (·.name) → Ty.mergeFields fs gs = .ok hs →
      Ty.FieldsMerged fs gs hs
  | [], [], hs, _, merged => by
    cases merged
    exact .nil
  | ⟨a, s⟩ :: fs, ⟨b, t⟩ :: gs, hs, same, merged => by
    simp only [List.map_cons, List.cons.injEq] at same
    obtain ⟨rfl, others⟩ := same
    simp only [Ty.mergeFields] at merged
    obtain ⟨u, head, merged⟩ := Except.bind_eq_ok merged
    obtain ⟨hs', tail, merged⟩ := Except.bind_eq_ok merged
    cases merged
    exact .cons a (Ty.merged_of_merge head) (Ty.merged_of_mergeFields others tail)
  | [], _ :: _, _, same, _ => by simp at same
  | _ :: _, [], _, same, _ => by simp at same

end

/-- Negotiated types are merged ones. -/
theorem Ty.merge_of_negotiate {s t u : Ty} (negotiated : s.negotiate t = .ok u) :
    s.merge t = .ok u := by
  unfold Ty.negotiate at negotiated
  split at negotiated
  next merged => rw [merged, Except.ok.inj negotiated]
  all_goals cases negotiated

end PackageCheck
