import Recompile.Json.Basic
import Recompile.Digest.Basic
import Recompile.ModuleId

/-!
# Shapes: the JSON form of the library's values

A type with a `JsonShape` has one written form and a set of forms that are accepted.  A structure is
written as an object with all its fields in order.  It is accepted as an object, whose unknown keys
are skipped and whose known keys may not repeat, or as the array of its field values.  A field that
may be absent is `null`, or missing from the object.  A choice between names is written as a string
and also accepted as an object with that name as its only key and `null` as its value.
-/

namespace Recompile

/-- Values with a JSON form. -/
class JsonShape (α : Type) where
  /-- The written form. -/
  toJson : α → Json
  /-- The value of an accepted form. -/
  ofJson? : Json → Option α

export JsonShape (toJson ofJson?)

namespace JsonShape

/-! ### Plain values -/

instance : JsonShape String := ⟨.text, Json.text?⟩

instance : JsonShape Bool := ⟨.bool, Json.bool?⟩

instance : JsonShape UInt8 where
  toJson n := .nat n.toNat
  ofJson? json := do
    let n ← json.nat?
    if n < 256 then some (UInt8.ofNat n) else none

instance : JsonShape UInt32 where
  toJson n := .nat n.toNat
  ofJson? json := do
    let n ← json.nat?
    if n < 4294967296 then some (UInt32.ofNat n) else none

instance : JsonShape UInt64 where
  toJson n := .nat n.toNat
  ofJson? json := do
    let n ← json.nat?
    if n < 18446744073709551616 then some (UInt64.ofNat n) else none

instance {α : Type} [JsonShape α] : JsonShape (Option α) where
  toJson
    | some value => toJson value
    | none => .null
  ofJson?
    | .null => some none
    | json => (ofJson? json).map some

instance {α : Type} [JsonShape α] : JsonShape (List α) where
  toJson items := .array (items.map toJson)
  ofJson? json := do (← json.items?).mapM ofJson?

instance : JsonShape ModuleId where
  toJson id := .text id.text
  ofJson? json := json.text?.map ModuleId.mk

instance : JsonShape Digest where
  toJson digest := toJson digest.bytes
  ofJson? json := do Digest.ofList? (← ofJson? json)

/-! ### Structures -/

/-- The value under a key of an object whose keys are all texts; the outer `none` is a key that
repeats. -/
def field? (members : List (Option String × Json)) (name : String) : Option (Option Json) :=
  match members.filter fun member => member.1 = some name with
  | [] => some none
  | [member] => some (some member.2)
  | _ => none

/-- The values of the named fields, in the order of the names.  An array gives as many as it has, so
that only its last fields can be missing. -/
def fields? (names : List String) : Json → Option (List (Option Json))
  | .object members =>
    if members.any (fun member => member.1.isNone) then none else names.mapM (field? members)
  | .array items =>
    if items.length ≤ names.length then
      some (items.map some ++ List.replicate (names.length - items.length) none)
    else none
  | _ => none

/-- As `fields?`, but an array must give every field. -/
def allFields? (names : List String) (json : Json) : Option (List (Option Json)) :=
  match json with
  | .array items => if items.length = names.length then some (items.map some) else none
  | json => fields? names json

/-- The value of a field that must be present. -/
def required {α : Type} [JsonShape α] (json : Option Json) : Option α :=
  json >>= ofJson?

/-- The value of a field that has a default. -/
def withDefault {α : Type} [JsonShape α] (value : α) : Option Json → Option α
  | some json => ofJson? json
  | none => some value

/-! ### Names -/

/-- The name that a choice gives. -/
def choice? : Json → Option String
  | .text name => some name
  | .object [(some name, .null)] => some name
  | _ => none

/-- The value whose name is given. -/
def named? {α : Type} (values : List α) (name : α → String) (json : Json) : Option α := do
  let given ← choice? json
  values.find? fun value => name value = given

end JsonShape

end Recompile
