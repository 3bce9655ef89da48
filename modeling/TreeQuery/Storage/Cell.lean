import TreeQuery.Json.Value
import TreeQuery.Text.Bytes

/-!
# Stored cells

A cell holds null, an integer, a double, text or plain bytes.  Doubles that are
not finite have no JSON number and become null; text is decoded, and other bytes
become base64 text.
-/

namespace TreeQuery.Storage

/-- A cell of a stored row.  A double that is not finite has no value here. -/
inductive Cell where
  | null
  | int (value : Int)
  | real (value : Option Double)
  | text (bytes : List Text.Byte)
  | blob (bytes : List Text.Byte)

/-- The value a cell has in a record. -/
def Cell.toJson : Cell → Json
  | null => .null
  | int value => .int value
  | real (some value) => .float value
  | real none => .null
  | text bytes => .string (Text.decodeBytes bytes)
  | blob bytes => .string (Text.base64 bytes)

end TreeQuery.Storage
