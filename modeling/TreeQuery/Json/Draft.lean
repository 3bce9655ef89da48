import TreeQuery.Json.Value

/-!
# JSON as it is written

A text can be well formed and still hold parts that have no value: a number beyond
every double, half of a surrogate pair in a string, containers nested too deep.  A
draft keeps such parts, because they only matter where their value does.  It also
keeps the fields of an object in order and with repetitions.
-/

namespace TreeQuery

namespace Json

/-- A value as it is written. -/
inductive Draft where
  | null
  | bool (value : Bool)
  | number (value : Option Json)
  | string (value : Option String)
  | array (items : List Draft)
  | object (fields : List (Option String × Draft))

/-- How many containers may be open at once. -/
def depthLimit : Nat := 127

namespace Draft

mutual

/-- The value of a draft, with fields as written, when all of it has one and no more
containers are nested than given. -/
def value? (depth : Nat) : Draft → Option Json
  | null => some .null
  | bool value => some (.bool value)
  | number value => value
  | string value => value.map .string
  | array items =>
      match depth with
      | 0 => none
      | below + 1 => (values? below items).map .array
  | object fields =>
      match depth with
      | 0 => none
      | below + 1 => (fieldValues? below fields).map .object

/-- The values of items. -/
def values? (depth : Nat) : List Draft → Option (List Json)
  | [] => some []
  | item :: rest => do
      return (← value? depth item) :: (← values? depth rest)

/-- The values of fields. -/
def fieldValues? (depth : Nat) : List (Option String × Draft) → Option (List (String × Json))
  | [] => some []
  | (key, draft) :: rest => do
      return (← key, ← value? depth draft) :: (← fieldValues? depth rest)

end

end Draft

end Json

end TreeQuery
