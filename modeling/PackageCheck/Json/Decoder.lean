import PackageCheck.Json.Basic

/-! # Reading values out of JSON

The conventions shared by all stored forms.

* A record is an object with a value for each of its fields, or an array of the values in the
  fields' order. Unknown names of an object are skipped with whatever they hold, a known name may
  stand once.
* A choice is an object whose only name says which case it is, or that name alone for a case
  without data. The named data of a case are read like a record, but whether they may be an array
  is a matter of style: in a text they may, in a value that is handed over they are an object.
* A field that may be left out is absent in both forms; in an array the absent fields are the
  last ones.
* `Json.unreadable` is read as nothing: it can only be skipped. -/

namespace PackageCheck.Json

/-! ## Scalars -/

/-- A string. -/
def string? : Json → Option String
  | .str text => some text
  | _ => none

/-- A truth value. -/
def bool? : Json → Option Bool
  | .bool value => some value
  | _ => none

/-- An integer from zero up to, and not including, `bound`. -/
def below? (bound : Nat) : Json → Option Nat
  | .int (.ofNat n) => if n < bound then some n else none
  | _ => none

/-- A 32-bit number. -/
def word32? (value : Json) : Option UInt32 :=
  (value.below? UInt32.size).map UInt32.ofNat

/-- A 64-bit number. -/
def word64? (value : Json) : Option UInt64 :=
  (value.below? UInt64.size).map UInt64.ofNat

/-! ## Containers -/

/-- An array of values that are all read by `decode`. -/
def list? (decode : Json → Option α) : Json → Option (List α)
  | .arr items => items.mapM decode
  | _ => none

/-- A value, or `null` for its absence. -/
def nullable? (decode : Json → Option α) : Json → Option (Option α)
  | .null => some none
  | value => (decode value).map some

/-! ## Choices -/

/-- A choice taken apart: the name of the case, and its data unless the name stands alone. -/
def choice? : Json → Option (String × Option Json)
  | .str tag => some (tag, none)
  | .obj [(tag, body)] => some (tag, some body)
  | _ => none

/-- The case without data that a choice names. -/
def bareCase? (value : Json) : Option String :=
  match value.choice? with
  | some (tag, none) | some (tag, some .null) => some tag
  | _ => none

/-! ## Records -/

/-- What stands for a field of a record. -/
inductive Slot where
  | given (value : Json)
  /-- The field is not named by the object. -/
  | unnamed
  /-- The array ends before the field. -/
  | beyond

namespace Slot

/-- A field that may not be left out. -/
def required (decode : Json → Option α) : Slot → Option α
  | .given value => decode value
  | _ => none

/-- A field that means `default` where it is left out. -/
def optional (default : α) (decode : Json → Option α) : Slot → Option α
  | .given value => decode value
  | _ => some default

/-- A field whose value may be absent. An object may leave it out, an array may not. -/
def nullable (decode : Json → Option α) : Slot → Option (Option α)
  | .given value => value.nullable? decode
  | .unnamed => some none
  | .beyond => none

/-- A field whose value may be absent, and that may be left out in both forms. -/
def omittable (decode : Json → Option α) : Slot → Option (Option α) :=
  optional none (nullable? decode)

end Slot

/-- What an object holds for the field `name`. -/
def entrySlot (entries : List (String × Json)) (name : String) : Option Slot :=
  match entries.filter (fun entry => entry.1 == name) with
  | [] => some .unnamed
  | [(_, value)] => some (.given value)
  | _ => none

/-- What an object holds for fields with the given names, in their order. -/
def fields? (names : List String) : Json → Option (List Slot)
  | .obj entries => names.mapM (entrySlot entries)
  | _ => none

/-- A record with the given field names, in their order. -/
def record? (names : List String) : Json → Option (List Slot)
  | .arr items =>
    if items.length ≤ names.length then
      some (items.map .given ++ List.replicate (names.length - items.length) .beyond)
    else none
  | value => value.fields? names

/-! ## The data of cases -/

/-- How the named data of a case may be given. -/
inductive CaseStyle where
  /-- By an object only. -/
  | named
  /-- Like a record: by an object, or by an array of the values in order. -/
  | listed

/-- The named data of a case with the given field names, in their order. -/
def caseData? (style : CaseStyle) (names : List String) (body : Json) : Option (List Slot) :=
  match style with
  | .named => body.fields? names
  | .listed => body.record? names

end PackageCheck.Json
