import TreeQuery.Json.Value

/-!
# Fields of documents

A structure is written as an object of its fields or as an array of them in
order.  Unknown fields are ignored, and a known field may be given only once.
-/

namespace TreeQuery.Json

/-- Whether none of the given names occurs twice among the fields. -/
def unrepeated (names : List String) (fields : List (String × Json)) : Bool :=
  names.all fun name => decide ((fields.filter fun field => field.1 == name).length ≤ 1)

/-- The values of a structure's fields, in the given order of names.  Fields
missing from an object, or from the end of an array, have no value. -/
def slots? (names : List String) : Json → Option (List (Option Json))
  | object fields =>
      if unrepeated names fields then some (names.map fun name => List.lookup name fields) else none
  | array items =>
      if items.length ≤ names.length then
        some (items.map some ++ List.replicate (names.length - items.length) none)
      else none
  | _ => none

/-- The values of the fields of an alternative, which may be an array only where
that is allowed. -/
def alternativeSlots? (listed : Bool) (names : List String) (document : Json) :
    Option (List (Option Json)) :=
  match listed, document with
  | false, array _ => none
  | _, document => document.slots? names

/-- A text that may be missing or null. -/
def optionalText? : Option Json → Option (Option String)
  | none => some none
  | some null => some none
  | some (string text) => some (some text)
  | some _ => none

/-- A text that must be given. -/
def requiredText? : Option Json → Option String
  | some (string text) => some text
  | _ => none

/-- A truth value that may be missing, and is false then. -/
def optionalBool? : Option Json → Option Bool
  | none => some false
  | some (bool value) => some value
  | some _ => none

/-- A list of texts that may be missing, and is empty then. -/
def optionalTexts? : Option Json → Option (List String)
  | none => some []
  | some (array items) => items.mapM text?
  | some _ => none

/-- A field that is given and is not null. -/
def given? (name : String) (fields : Record) : Option Json :=
  match fields.get? name with
  | none => none
  | some null => none
  | some value => some value

/-- The text of a field, if it is given. -/
def givenText? (name : String) (fields : Record) : Option String :=
  (given? name fields).bind text?

/-- The items of a field, none when it is not given. -/
def givenItems (name : String) (fields : Record) : List Json :=
  match fields.get? name with
  | some (array items) => items
  | _ => []

/-- Whether a field is given and is true. -/
def isGivenTrue (name : String) (fields : Record) : Bool :=
  match fields.get? name with
  | some (bool value) => value
  | _ => false

/-- A double.  Those that are not finite are named and have no value. -/
def double? : Json → Option (Option Double)
  | float value => some (some value)
  | int value => some (Double.ofInt? value)
  | string "nan" => some none
  | string "inf" => some none
  | string "-inf" => some none
  | _ => none

/-- A field that is written only when it has a value. -/
def optionalField (name : String) : Option String → List (String × Json)
  | none => []
  | some text => [(name, string text)]

end TreeQuery.Json
