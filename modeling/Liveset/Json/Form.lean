import Liveset.Json.Value

/-!
# Written forms of values

How a value of this library is written as JSON and read back. Reading is total on `Json` and refuses
by returning `none`. What a reader skips it does not look into, so a skipped value may be unreadable
and may nest as deep as it likes; what a reader does look into is bound by `Json.nestingLimit`.

* A *record* is an object with one field per component, or an array of the components in their
  order. A known name given twice is refused and unknown names are skipped. In the array form the
  components at the end may be left out, and surplus items are refused.
* A component is `required`, has a fallback for when it is missing (`orElse`), or is `optional`:
  then it may be missing or `null`.
* A *variant* is an object whose only field is named for the variant, or, for a variant without
  payload, the bare name.

What this module delivers: the class `JsonForm`, the readers of record components and of variants,
the limit on nesting, and the forms of truth values, strings, 32-bit numbers, lists and optional
values.
-/

set_option autoImplicit false

namespace Liveset

/-- A type with a written form. -/
class JsonForm (α : Type) where
  /-- The written form. -/
  toJson : α → Json
  /-- Read a written form. -/
  ofJson? : Json → Option α

export JsonForm (toJson ofJson?)

namespace Json

/-- How many arrays and objects may enclose one another among those of a document that are read.
Constants are the only values whose form has no depth of its own, so they are where it is kept. -/
def nestingLimit : Nat := 127

/-! ## Records -/

/-- The value of the field `name`: `some none` when it is missing, `none` when it is repeated. -/
def component? (fields : List (String × Json)) (name : String) : Option (Option Json) :=
  match fields.filter fun field => field.1 = name with
  | [] => some none
  | [(_, value)] => some (some value)
  | _ => none

/-- The components of a record, one per name and in the order of the names; `none` inside the list
stands for a missing component. -/
def components? (names : List String) : Json → Option (List (Option Json))
  | .object fields => names.mapM (component? fields)
  | .array items =>
    if items.length ≤ names.length then
      some (items.map some ++ List.replicate (names.length - items.length) none)
    else none
  | _ => none

/-- A component that must be there. -/
def required {α : Type} [JsonForm α] : Option Json → Option α
  | none => none
  | some value => ofJson? value

/-- A component that has a fallback. -/
def orElse {α : Type} [JsonForm α] (fallback : α) : Option Json → Option α
  | none => some fallback
  | some value => ofJson? value

/-- A component that may be missing or `null`. -/
def optional {α : Type} [JsonForm α] : Option Json → Option (Option α)
  | none => some none
  | some .null => some none
  | some value => (ofJson? value).map some

/-! ## Variants -/

/-- The name of a variant and its payload, if it has one. -/
def variant? : Json → Option (String × Option Json)
  | .string name => some (name, none)
  | .object [(name, payload)] => some (name, some payload)
  | _ => none

/-- A variant without payload, as `value`: the payload is missing or `null`. -/
def bare {α : Type} (value : α) : Option Json → Option α
  | none => some value
  | some .null => some value
  | _ => none

/-- A variant with a payload. -/
def tagged (name : String) (payload : Json) : Json := .object [(name, payload)]

end Json

/-! ## Forms of plain values -/

instance : JsonForm Bool where
  toJson := .bool
  ofJson?
    | .bool b => some b
    | _ => none

instance : JsonForm String where
  toJson := .string
  ofJson?
    | .string s => some s
    | _ => none

/-- The numbers that fit into 32 bits. -/
def Json.wordBound : Nat := Nat.pow 2 32

/-- A number that fits into 32 bits. -/
def Json.word? : Json → Option Nat
  | .number n => n.natBelow? wordBound
  | _ => none

/-- A natural number is written in 32 bits wherever it stands in a document. -/
instance : JsonForm Nat where
  toJson := Json.ofNat
  ofJson? := Json.word?

/-- An integer is written in 64 bits wherever it stands in a document. -/
instance : JsonForm Int where
  toJson := Json.ofInt
  ofJson?
    | .number n => n.int64?
    | _ => none

instance {α : Type} [JsonForm α] : JsonForm (List α) where
  toJson items := .array (items.map toJson)
  ofJson?
    | .array items => items.mapM ofJson?
    | _ => none

instance {α : Type} [JsonForm α] : JsonForm (Array α) where
  toJson items := toJson items.toList
  ofJson? value := (ofJson? value).map List.toArray

/-- The written form of an optional component. -/
def Json.ofOption {α : Type} [JsonForm α] : Option α → Json
  | none => .null
  | some value => toJson value

end Liveset
