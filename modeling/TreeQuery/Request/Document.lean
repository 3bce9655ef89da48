import TreeQuery.Json.Document
import TreeQuery.Request.Bucket

/-!
# Requests as documents

The JSON form of requests.  An alternative with data is an object of one field
named for it; an alternative without data is its name, or an object whose one
field is null.  Encoding writes fields in key order.

Where an alternative has fields, a document that is read from text may also list
them in order; in other documents they are named.  The argument `listed` says
whether that is allowed.
-/

namespace TreeQuery

namespace Comparison

/-- The name of a comparison. -/
def name : Comparison → String
  | eq => "eq"
  | ne => "ne"
  | le => "le"
  | lt => "lt"
  | ge => "ge"
  | gt => "gt"

/-- The comparison of a name. -/
def ofName? : String → Option Comparison
  | "eq" => some eq
  | "ne" => some ne
  | "le" => some le
  | "lt" => some lt
  | "ge" => some ge
  | "gt" => some gt
  | _ => none

end Comparison

namespace Operator

mutual

/-- The document of an operator. -/
def encode : Operator → Json
  | compare comparison value => .object [(comparison.name, value)]
  | is value => .object [("is", value)]
  | like pattern caseSensitive =>
      .object [("like", .object
        [("case_sensitive", .bool caseSensitive), ("pattern", .string pattern)])]
  | not operator => .object [("not", operator.encode)]
  | set values => .object [("set", .array values)]
  | range lower upper =>
      .object [("range", .object [("lower", encodeBound lower), ("upper", encodeBound upper)])]
  | sort .ascending => .string "asc"
  | sort .descending => .string "desc"

/-- The document of one end of a range. -/
def encodeBound : Option Operator → Json
  | none => .null
  | some operator => operator.encode

end

/-- The pattern operator of its document. -/
def decodeLike? (listed : Bool) (document : Json) : Option Operator :=
  match document.alternativeSlots? listed ["pattern", "case_sensitive"] with
  | some [pattern, caseSensitive] => do
      return .like (← Json.requiredText? pattern) (← Json.optionalBool? caseSensitive)
  | _ => none

/-- An operator whose document holds no other operator. -/
def decodeFlat? (listed : Bool) (tag : String) (payload : Json) : Option Operator :=
  match tag, payload with
  | "is", value => some (.is value)
  | "like", document => decodeLike? listed document
  | "set", .array values => some (.set values)
  | "asc", .null => some (.sort .ascending)
  | "desc", .null => some (.sort .descending)
  | tag, value => (Comparison.ofName? tag).map (.compare · value)

mutual

/-- The operator of a document. -/
def decode? (listed : Bool) : Json → Option Operator
  | .string "asc" => some (.sort .ascending)
  | .string "desc" => some (.sort .descending)
  | .object [(tag, payload)] =>
      if tag = "not" then (decode? listed payload).map .not
      else if tag = "range" then decodeRange? listed payload
      else decodeFlat? listed tag payload
  | _ => none

/-- The range of a document. -/
def decodeRange? (listed : Bool) : Json → Option Operator
  | .object fields =>
      if Json.unrepeated ["lower", "upper"] fields then do
        return .range (← decodeField? listed "lower" fields)
          (← decodeField? listed "upper" fields)
      else none
  | .array items => if listed then decodeBounds? listed items else none
  | _ => none

/-- The range of a list of its ends. -/
def decodeBounds? (listed : Bool) : List Json → Option Operator
  | [] => some (.range none none)
  | [lower] => do return .range (← decodeBound? listed lower) none
  | [lower, upper] => do
      return .range (← decodeBound? listed lower) (← decodeBound? listed upper)
  | _ => none

/-- One end of a range among fields; a missing field is a missing end. -/
def decodeField? (listed : Bool) (name : String) :
    List (String × Json) → Option (Option Operator)
  | [] => some none
  | (key, value) :: rest =>
      if key = name then decodeBound? listed value else decodeField? listed name rest

/-- One end of a range; null is a missing end. -/
def decodeBound? (listed : Bool) : Json → Option (Option Operator)
  | .null => some none
  | document => (decode? listed document).map some

end

end Operator

namespace Clause

/-- The document of a clause. -/
def encode (clause : Clause) : Json :=
  .object [("column", .string clause.column), ("operator", clause.operator.encode)]

/-- The clause of a document. -/
def decode? (listed : Bool) (document : Json) : Option Clause :=
  match document.slots? ["column", "operator"] with
  | some [column, some operator] => do
      return ⟨← Json.requiredText? column, ← Operator.decode? listed operator⟩
  | _ => none

end Clause

namespace Term

/-- The document of a term. -/
def encode : Term → Json
  | clause c => .object [("clause", c.encode)]
  | and => .string "and"
  | or => .string "or"

/-- The term of a document. -/
def decode? (listed : Bool) : Json → Option Term
  | .string "and" => some and
  | .string "or" => some or
  | .object [("and", .null)] => some and
  | .object [("or", .null)] => some or
  | .object [("clause", document)] => (Clause.decode? listed document).map clause
  | _ => none

end Term

namespace Expression

/-- The document of an expression. -/
def encode (expression : Expression) : Json :=
  .array (expression.map Term.encode)

/-- The expression of a document. -/
def decode? (listed : Bool) : Json → Option Expression
  | .array items => items.mapM (Term.decode? listed)
  | _ => none

end Expression

namespace Step

/-- The document of a step. -/
def encode (step : Step) : Json :=
  .object (Json.optionalField "label" step.label ++ [("name", .string step.name)] ++
    Json.optionalField "qualifier" step.qualifier)

/-- The step of a document. -/
def decode? (document : Json) : Option Step :=
  match document.slots? ["name", "qualifier", "label"] with
  | some [name, qualifier, label] => do
      return ⟨← Json.requiredText? name, ← Json.optionalText? qualifier,
        ← Json.optionalText? label⟩
  | _ => none

/-- The document of a path. -/
def encodeAll (path : List Step) : Json :=
  .array (path.map encode)

/-- The path of a document. -/
def decodeAll? : Json → Option (List Step)
  | .array items => items.mapM decode?
  | _ => none

end Step

namespace Item

/-- The document of an item. -/
def encode : Item → Json
  | column name => .object [("column", .string name)]
  | row fields => .object [("row", .object fields)]

/-- The item of a document. -/
def decode? : Json → Option Item
  | .object [("column", .string name)] => some (column name)
  | .object [("row", .object fields)] => some (row fields)
  | _ => none

end Item

namespace Slice

/-- The document of a slice. -/
def encode : Slice → Json
  | limit count => .object [("limit", .int count)]
  | offset count => .object [("offset", .int count)]

/-- The slice of a document.  Its count is a word of 64 bits. -/
def decode? : Json → Option Slice
  | .object [("limit", count)] => count.word?.map limit
  | .object [("offset", count)] => count.word?.map offset
  | _ => none

end Slice

namespace Beacon

/-- The document of a beacon. -/
def encode : Beacon → Json
  | upsert expression => .object [("upsert", expression.encode)]
  | custom key value =>
      .object [("custom", .object [("key", .string key), ("value", value)])]

/-- What a beacon tells its extension. -/
def payload : Beacon → Json
  | upsert expression => expression.encode
  | custom _ value => value

/-- The beacon of a document. -/
def decode? (listed : Bool) : Json → Option Beacon
  | .object [("upsert", document)] => (Expression.decode? listed document).map upsert
  | .object [("custom", document)] =>
      match document.alternativeSlots? listed ["key", "value"] with
      | some [key, some value] => (Json.requiredText? key).map (custom · value)
      | _ => none
  | _ => none

end Beacon

namespace Bucket

mutual

/-- The document of a bucket. -/
def encode : Bucket → Json
  | ⟨name, qualifier, label, elements⟩ =>
      .object ([("elements", .array (encodeElements elements))] ++
        Json.optionalField "label" label ++ [("name", .string name)] ++
        Json.optionalField "qualifier" qualifier)

/-- The documents of elements. -/
def encodeElements : List Element → List Json
  | [] => []
  | .item item :: rest => .object [("item", item.encode)] :: encodeElements rest
  | .bucket nested :: rest => .object [("bucket", encode nested)] :: encodeElements rest
  | .clause expression :: rest =>
      .object [("clause", Expression.encode expression)] :: encodeElements rest
  | .slice slice :: rest => .object [("slice", slice.encode)] :: encodeElements rest
  | .total :: rest => .string "total" :: encodeElements rest
  | .beacon beacon :: rest => .object [("beacon", beacon.encode)] :: encodeElements rest

end

/-- An element whose document holds no bucket. -/
def decodeFlat? (listed : Bool) (tag : String) (payload : Json) : Option Element :=
  match tag, payload with
  | "item", document => (Item.decode? document).map .item
  | "clause", document => (Expression.decode? listed document).map .clause
  | "slice", document => (Slice.decode? document).map .slice
  | "total", .null => some .total
  | "beacon", document => (Beacon.decode? listed document).map .beacon
  | _, _ => none

/-- A bucket of its name, qualifier and label, as far as they are given. -/
def ofSlots? (name qualifier label : Option Json) (elements : List Element) :
    Option Bucket := do
  return ⟨← Json.requiredText? name, ← Json.optionalText? qualifier,
    ← Json.optionalText? label, elements⟩

mutual

/-- The bucket of a document. -/
def decode? (listed : Bool) : Json → Option Bucket
  | .object fields =>
      if Json.unrepeated ["name", "qualifier", "label", "elements"] fields then do
        let elements ← decodeField? listed fields
        ofSlots? (List.lookup "name" fields) (List.lookup "qualifier" fields)
          (List.lookup "label" fields) elements
      else none
  | .array [name] => ofSlots? (some name) none none []
  | .array [name, qualifier] => ofSlots? (some name) (some qualifier) none []
  | .array [name, qualifier, label] => ofSlots? (some name) (some qualifier) (some label) []
  | .array [name, qualifier, label, elements] => do
      ofSlots? (some name) (some qualifier) (some label)
        (← decodeElements? listed elements)
  | _ => none

/-- The elements among fields; a missing field is an empty list. -/
def decodeField? (listed : Bool) : List (String × Json) → Option (List Element)
  | [] => some []
  | (key, value) :: rest =>
      if key = "elements" then decodeElements? listed value else decodeField? listed rest

/-- The elements of a document. -/
def decodeElements? (listed : Bool) : Json → Option (List Element)
  | .array items => decodeItems? listed items
  | _ => none

/-- The elements of a list of documents. -/
def decodeItems? (listed : Bool) : List Json → Option (List Element)
  | [] => some []
  | item :: rest => do
      return (← decodeElement? listed item) :: (← decodeItems? listed rest)

/-- The element of a document. -/
def decodeElement? (listed : Bool) : Json → Option Element
  | .string "total" => some .total
  | .object [(tag, payload)] =>
      if tag = "bucket" then (decode? listed payload).map .bucket
      else decodeFlat? listed tag payload
  | _ => none

end

end Bucket

namespace Invoice

/-- The document of an invoice. -/
def encode (invoice : Invoice) : Json :=
  .array (invoice.map Bucket.encode)

/-- The invoice of a document. -/
def decode? (listed : Bool) : Json → Option Invoice
  | .array items => items.mapM (Bucket.decode? listed)
  | _ => none

end Invoice

namespace View

/-- The document of a view. -/
def encode (view : View) : Json :=
  .object ([("data", .array view.data)] ++ match view.meta? with
    | none => []
    | some fields => [("meta", .object fields)])

/-- The view of a document. -/
def decode? (document : Json) : Option View :=
  match document.slots? ["data", "meta"] with
  | some [some (.array data), none] => some ⟨data, none⟩
  | some [some (.array data), some .null] => some ⟨data, none⟩
  | some [some (.array data), some (.object fields)] => some ⟨data, some fields⟩
  | _ => none

end View

end TreeQuery
