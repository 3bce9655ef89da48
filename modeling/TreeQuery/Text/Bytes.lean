/-!
# Bytes as text

Bytes are read as UTF-8, and every maximal part that is no character becomes one
replacement character.  Bytes that are not text at all are written in base64.
-/

namespace TreeQuery.Text

/-- A byte. -/
abbrev Byte := UInt8

/-! ## UTF-8 -/

/-- The ranges of the bytes that follow a first byte in a well-formed sequence.
Some second bytes are excluded: they would spell a character in more bytes than
it needs, a surrogate, or a number beyond the last character. -/
def followingRanges (first : Byte) : Option (List (Byte × Byte)) :=
  let any : Byte × Byte := (0x80, 0xBF)
  if first < 0x80 then some []
  else if first < 0xC2 then none
  else if first < 0xE0 then some [any]
  else if first = 0xE0 then some [(0xA0, 0xBF), any]
  else if first = 0xED then some [(0x80, 0x9F), any]
  else if first < 0xF0 then some [any, any]
  else if first = 0xF0 then some [(0x90, 0xBF), any, any]
  else if first < 0xF4 then some [any, any, any]
  else if first = 0xF4 then some [(0x80, 0x8F), any, any]
  else none

/-- The bytes at the front that lie in the given ranges, one after the other. -/
def followers : List (Byte × Byte) → List Byte → List Byte
  | (least, greatest) :: ranges, byte :: rest =>
      if least ≤ byte && byte ≤ greatest then byte :: followers ranges rest else []
  | _, _ => []

/-- The bits of the code point that a first byte carries. -/
def leadingBits (first : Byte) (followerCount : Nat) : Nat :=
  match followerCount with
  | 0 => first.toNat
  | 1 => first.toNat % 0x20
  | 2 => first.toNat % 0x10
  | _ => first.toNat % 0x08

/-- The character of a well-formed sequence. -/
def sequenceChar (first : Byte) (rest : List Byte) : Char :=
  Char.ofNat <| rest.foldl (fun value byte => value * 0x40 + byte.toNat % 0x40)
    (leadingBits first rest.length)

/-- The character that stands for what is no character. -/
def replacement : Char := Char.ofNat 0xFFFD

/-- The characters of bytes. -/
def decodeChars : List Byte → List Char
  | [] => []
  | first :: rest =>
      match followingRanges first with
      | none => replacement :: decodeChars rest
      | some ranges =>
          let found := followers ranges rest
          (if found.length = ranges.length then sequenceChar first found else replacement) ::
            decodeChars (rest.drop found.length)
termination_by bytes => bytes.length
decreasing_by
  · simp
  · simp only [List.length_drop, List.length_cons]
    omega

/-- The text of bytes. -/
def decodeBytes (bytes : List Byte) : String :=
  String.ofList (decodeChars bytes)

/-! ## Base64 -/

/-- The digits of base64. -/
def base64Digits : List Char :=
  "ABCDEFGHIJKLMNOPQRSTUVWXYZabcdefghijklmnopqrstuvwxyz0123456789+/".toList

/-- The digit of the lowest six bits of a number. -/
def base64Digit (value : Nat) : Char :=
  base64Digits.getD (value % 64) '='

/-- Three bytes make four digits; what is missing at the end is marked. -/
def base64Chars : List Byte → List Char
  | [] => []
  | [first] =>
      let value := first.toNat * 16
      [base64Digit (value / 64), base64Digit value, '=', '=']
  | [first, second] =>
      let value := (first.toNat * 256 + second.toNat) * 4
      [base64Digit (value / 4096), base64Digit (value / 64), base64Digit value, '=']
  | first :: second :: third :: rest =>
      let value := (first.toNat * 256 + second.toNat) * 256 + third.toNat
      [base64Digit (value / 262144), base64Digit (value / 4096), base64Digit (value / 64),
        base64Digit value] ++ base64Chars rest

/-- Bytes in base64. -/
def base64 (bytes : List Byte) : String :=
  String.ofList (base64Chars bytes)

end TreeQuery.Text
