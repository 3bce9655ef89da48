import TreeQuery.Json.Reader
import TreeQuery.Text.Bytes

/-!
# Names of databases

A database is named by the path of its file, or by a reference that begins with
`file:` and may say after a question mark how the database is to be opened.  In a
reference a byte may be written as a percent sign and two hexadecimal digits.
-/

namespace TreeQuery.Storage

open Text (Byte)

/-- How a database may be opened, each way allowing more than the ones before: to be
read, to be written, to be created, or to be kept in memory. -/
inductive Access where
  | read | write | create | memory
  deriving DecidableEq

namespace Access

/-- The way of opening of a name. -/
def ofName? : String → Option Access
  | "ro" => some read
  | "rw" => some write
  | "rwc" => some create
  | "memory" => some memory
  | _ => none

/-- How much is allowed. -/
def rank : Access → Nat
  | read => 0
  | write => 1
  | create => 2
  | memory => 3

/-- Whether one way may be given up for another, which must not allow more.  Keeping
a database in memory is always allowed. -/
def mayBecome (current asked : Access) : Bool :=
  decide (asked = memory) || decide (asked.rank ≤ current.rank)

end Access

/-- Why a database cannot be opened. -/
inductive OpenError where
  | zeroByte (position : Nat)
  | authority (name : String)
  | unknownAccess (name : String)
  | refusedAccess (name : String)
  | unknownCache (name : String)
  | unknownStore (name : String)
  | noFile (name : String)
  | notReadable
  | notDatabase
  deriving DecidableEq

/-- The wording of an error of opening. -/
def OpenError.message : OpenError → String
  | zeroByte position => "nul byte found in provided data at position: " ++ toString position
  | authority name => "invalid uri authority: " ++ name
  | unknownAccess name => "no such access mode: " ++ name
  | refusedAccess name => "access mode not allowed: " ++ name
  | unknownCache name => "no such cache mode: " ++ name
  | unknownStore name => "no such vfs: " ++ name
  | noFile name => "unable to open database file: " ++ name
  | notReadable => "disk I/O error"
  | notDatabase => "file is not a database"

/-- Which file a database is in, and how it is opened.  The store is that of files
unless it is named; a file that nobody changes is only read. -/
structure Source where
  path : String
  access : Access := .create
  store : String := "unix"
  isImmutable : Bool := false
  deriving DecidableEq

namespace Source

/-! ## Bytes of a reference -/

/-- The byte of a character of ASCII. -/
def ascii (character : Char) : Byte :=
  UInt8.ofNat character.toNat

/-- The bytes of a text. -/
def bytesOf (text : String) : List Byte :=
  text.toUTF8.toList

/-- The value of a byte that is a hexadecimal digit. -/
def hexValue? (byte : Byte) : Option Nat :=
  Json.hexDigit? (Char.ofNat byte.toNat)

/-- The bytes that a part of a reference stands for.  A zero byte ends it. -/
def unescape : List Byte → List Byte
  | [] => []
  | [byte] => [byte]
  | [first, second] => [first, second]
  | first :: high :: low :: rest =>
      match decide (first = ascii '%'), hexValue? high, hexValue? low with
      | true, some upper, some lower =>
          if upper * 16 + lower = 0 then []
          else UInt8.ofNat (upper * 16 + lower) :: unescape rest
      | _, _, _ => first :: unescape (high :: low :: rest)

/-- What stands before the first occurrence of a character. -/
def before (character : Char) (bytes : List Byte) : List Byte :=
  bytes.takeWhile (· != ascii character)

/-- What stands behind the first occurrence of a character. -/
def behind (character : Char) (bytes : List Byte) : List Byte :=
  (bytes.dropWhile (· != ascii character)).drop 1

/-- The text that a part of a reference stands for. -/
def textOf (bytes : List Byte) : String :=
  Text.decodeBytes (unescape bytes)

/-! ## Parts of a reference -/

/-- A parameter of a reference. -/
structure Parameter where
  name : String
  value : String

/-- The parameters of a reference.  Those without a name do not count. -/
def parameters (query : List Byte) : List Parameter :=
  (query.splitOn (ascii '&')).filterMap fun part =>
    let name := textOf (before '=' part)
    if name.isEmpty then none else some { name, value := textOf (behind '=' part) }

/-- A reference without the authority that may follow two slashes: the own host, or
none at all. -/
def withoutAuthority (bytes : List Byte) : Except OpenError (List Byte) :=
  match bytes with
  | first :: second :: rest =>
      if first = ascii '/' && second = ascii '/' then
        let name := before '/' rest
        if name.isEmpty || name = bytesOf "localhost" then
          .ok (rest.dropWhile (· != ascii '/'))
        else .error (.authority (Text.decodeBytes name))
      else .ok bytes
  | _ => .ok bytes

/-- The source as a parameter changes it.  Parameters with other names are left to
others. -/
def withParameter (source : Source) (parameter : Parameter) : Except OpenError Source :=
  match parameter.name with
  | "vfs" => .ok { source with store := parameter.value }
  | "cache" =>
      if ["shared", "private"].contains parameter.value then .ok source
      else .error (.unknownCache parameter.value)
  | "mode" =>
      match Access.ofName? parameter.value with
      | none => .error (.unknownAccess parameter.value)
      | some access =>
          if source.access.mayBecome access then .ok { source with access }
          else .error (.refusedAccess parameter.value)
  | _ => .ok source

/-- Whether the value of a parameter means yes. -/
def isTrue (value : String) : Bool :=
  match value.toList.takeWhile Char.isDigit with
  | [] => ["yes", "true", "on"].contains (String.ofList (value.toList.map Char.toLower))
  | digits =>
      (digits.foldl (fun number digit => number * 10 + (digit.toNat - 48)) 0) % 256 != 0

/-- The stores that there are.  The last one keeps everything in memory. -/
def stores : List String :=
  ["unix", "unix-none", "unix-dotfile", "unix-excl", "memdb"]

/-- The source that a reference names, given what follows its scheme. -/
def ofReference (bytes : List Byte) : Except OpenError Source := do
  let body := before '#' (← withoutAuthority bytes)
  let given := parameters (behind '?' body)
  let immutable := (given.find? fun parameter => parameter.name == "immutable").any fun parameter =>
    isTrue parameter.value
  let source ← given.foldlM withParameter
    { path := textOf (before '?' body), isImmutable := immutable }
  if stores.contains source.store then return source
  throw (.unknownStore source.store)

/-- What a reference begins with. -/
def scheme : List Byte :=
  bytesOf "file:"

/-- The source of a name. -/
def ofName (name : String) : Except OpenError Source :=
  let bytes := bytesOf name
  match bytes.idxOf? 0 with
  | some position => .error (.zeroByte position)
  | none =>
      if scheme.isPrefixOf bytes then ofReference (bytes.drop scheme.length)
      else .ok { path := name }

/-- Whether a database is kept in memory or in a file that goes away with it. -/
def isTransient (source : Source) : Bool :=
  source.path = "" || source.path = ":memory:" || source.access = .memory ||
    source.store = "memdb"

/-- Whether a database may only be read. -/
def isReadOnly (source : Source) : Bool :=
  source.access = .read || source.isImmutable

end Source

end TreeQuery.Storage
