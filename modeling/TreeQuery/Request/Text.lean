import TreeQuery.Json.Reader
import TreeQuery.Request.Document

/-!
# Requests as text

A request is read from the parts of a text that say something about it.  Fields that
a structure does not have are passed over, whatever is written there; all else needs
a value.
-/

namespace TreeQuery.Request

open Json (Draft)

/-- The parts of a request document.  A value is a part that is taken as it is. -/
inductive Part where
  | value
  | invoice | bucket | elements | element | item | slice
  | beacon | custom
  | expression | term | clause | operator | like | range
  deriving DecidableEq

/-- How a part is written. -/
inductive Shape where
  | whole
  | list (entry : Part)
  | record (fields : List (String × Part))
  | alternatives (tags : List (String × Part))

/-- How each part is written.  The fields of a structure are in the order in which
they may be listed. -/
def Part.shape : Part → Shape
  | value => .whole
  | invoice => .list bucket
  | bucket => .record
      [("name", value), ("qualifier", value), ("label", value), ("elements", elements)]
  | elements => .list element
  | element => .alternatives
      [("item", item), ("bucket", bucket), ("clause", expression), ("slice", slice),
       ("beacon", beacon)]
  | item => .alternatives [("column", value), ("row", value)]
  | slice => .alternatives [("limit", value), ("offset", value)]
  | beacon => .alternatives [("upsert", expression), ("custom", custom)]
  | custom => .record [("key", value), ("value", value)]
  | expression => .list term
  | term => .alternatives [("clause", clause)]
  | clause => .record [("column", value), ("operator", operator)]
  | operator => .alternatives [("not", operator), ("like", like), ("range", range)]
  | like => .record [("pattern", value), ("case_sensitive", value)]
  | range => .record [("lower", operator), ("upper", operator)]

namespace Shape

/-- The parts of listed items, as many as there may be: what comes after the fields of
a structure is taken as it is. -/
def itemPart : Shape → Nat → Part
  | list entry, _ => entry
  | record fields, index => (fields.map Prod.snd).getD index .value
  | _, _ => .value

/-- The part under a key, if the key means anything. -/
def fieldPart? : Shape → String → Option Part
  | record fields, key => List.lookup key fields
  | alternatives tags, key => some ((List.lookup key tags).getD .value)
  | _, _ => some .value

/-- Whether a container of this shape is taken as it is. -/
def isWhole : Shape → Bool
  | whole => true
  | _ => false

end Shape

mutual

/-- What is written for a part, without the fields that say nothing.  Objects that are
taken as they are have sorted fields. -/
def Part.document? (depth : Nat) (part : Part) : Draft → Option Json
  | .array items =>
      if part.shape.isWhole then ((Draft.array items).value? depth).map Json.normalize
      else match depth with
        | 0 => none
        | below + 1 => (itemDocuments? below part.shape 0 items).map .array
  | .object fields =>
      if part.shape.isWhole then ((Draft.object fields).value? depth).map Json.normalize
      else match depth with
        | 0 => none
        | below + 1 => (fieldDocuments? below part.shape fields).map .object
  | draft => draft.value? depth

/-- What is written for items, of which the first has the given index. -/
def itemDocuments? (depth : Nat) (shape : Shape) (index : Nat) :
    List Draft → Option (List Json)
  | [] => some []
  | item :: rest => do
      return (← Part.document? depth (shape.itemPart index) item) ::
        (← itemDocuments? depth shape (index + 1) rest)

/-- What is written for fields, without those that say nothing. -/
def fieldDocuments? (depth : Nat) (shape : Shape) :
    List (Option String × Draft) → Option (List (String × Json))
  | [] => some []
  | (key, draft) :: rest => do
      let key ← key
      match shape.fieldPart? key with
      | none => fieldDocuments? depth shape rest
      | some part =>
          return (key, ← Part.document? depth part draft) ::
            (← fieldDocuments? depth shape rest)

end

end TreeQuery.Request

namespace TreeQuery.Invoice

open Request (Part)

/-- The invoice that a text spells. -/
def ofText? (text : String) : Option Invoice := do
  let draft ← Json.Draft.read? text
  decode? true (← Part.document? Json.depthLimit .invoice draft)

end TreeQuery.Invoice
