import Ripple.Store.Error
import Ripple.Text.Quoted
import Ripple.Text.Utf8

/-!
# Locations of databases

A database is opened through a connection text: a scheme, the path, and parameters after
the first question mark. As the path is not encoded in it, a path that contains what the
text gives a meaning to names another file, or none: a scheme at its front is dropped, a
question mark begins parameters, and a percent sign with two digits is decoded.

`Location.ofPath` is the location that a path leads to.
-/

namespace Ripple

/-- Where a database lies. -/
inductive Location where
  /-- Nowhere: it vanishes when it is closed. -/
  | memory
  /-- Nowhere, and each connection has one of its own. -/
  | unshared
  /-- In the file at a path. -/
  | file (path : String)
  /-- Where the database engine does not find it. -/
  | unreachable (fault : StorageFault)
deriving DecidableEq, Repr

namespace Location

/-- The path of a database that lies nowhere. -/
def memoryPath : String := ":memory:"

/-- A text without what it begins with, as often as it does. -/
def stripRepeated (start : List Char) : (fuel : Nat) → List Char → List Char
  | 0, cs => cs
  | fuel + 1, cs =>
    if start.isPrefixOf cs then stripRepeated start fuel (cs.drop start.length) else cs

/-- A connection text without its scheme. -/
def stripScheme (cs : List Char) : List Char :=
  let cs := stripRepeated "sqlite://".toList cs.length cs
  stripRepeated "sqlite:".toList cs.length cs

/-- The value of a hexadecimal digit. -/
def hexDigit? (b : UInt8) : Option UInt8 :=
  if 48 ≤ b ∧ b ≤ 57 then some (b - 48)
  else if 97 ≤ b ∧ b ≤ 102 then some (b - 87)
  else if 65 ≤ b ∧ b ≤ 70 then some (b - 55)
  else none

/-- Bytes in which a percent sign and two digits stand for a byte. -/
def percentDecode : List UInt8 → List UInt8
  | [] => []
  | 37 :: a :: b :: rest =>
    match hexDigit? a, hexDigit? b with
    | some high, some low => (high * 16 + low) :: percentDecode rest
    | _, _ => 37 :: percentDecode (a :: b :: rest)
  | b :: rest => b :: percentDecode rest
termination_by bytes => bytes.length

/-- The UTF-8 bytes of some characters. -/
def bytesOf (cs : List Char) : List UInt8 := cs.flatMap String.utf8EncodeChar

/-- The path in a file name that is written as a locator, up to its parameters. -/
def locatorPath (cs : List Char) : Option (List Char) :=
  let cs := cs.takeWhile fun c => c ≠ '?' ∧ c ≠ '#'
  let path : Option (List Char) := match cs with
    | '/' :: '/' :: rest =>
      let authority := rest.takeWhile (· ≠ '/')
      if authority = [] ∨ authority = "localhost".toList then some (rest.dropWhile (· ≠ '/'))
      else none
    | cs => some cs
  path.map fun cs => (Utf8.decodeLossy (percentDecode (bytesOf cs))).takeWhile (· ≠ '\x00')

/-- The location of a file name. -/
def ofName (cs : List Char) : Location :=
  let plain (cs : List Char) : Location :=
    if cs = [] ∨ cs = memoryPath.toList then .unshared else .file (String.ofList cs)
  if '\x00' ∈ cs then .unreachable .nul
  else if "file:".toList.isPrefixOf cs then
    match locatorPath (cs.drop 5) with
    | some path => plain path
    | none => .unreachable (.engine .cannotOpen)
  else plain cs

/-! ## Parameters -/

/-- The pieces of some characters between separators. -/
def splitOn (separator : Char) : List Char → List (List Char)
  | [] => [[]]
  | c :: rest =>
    if c = separator then [] :: splitOn separator rest
    else match splitOn separator rest with
      | [] => [[c]]
      | piece :: more => (c :: piece) :: more

/-- A name or a value of a parameter, in which a plus sign stands for a blank. -/
def formDecode (cs : List Char) : String :=
  let plus (b : UInt8) : UInt8 := if b = 43 then 32 else b
  String.ofList (Utf8.decodeLossy (percentDecode ((bytesOf cs).map plus)))

/-- The parameters of a connection text. -/
def parameters (cs : List Char) : List (String × String) :=
  ((splitOn '&' cs).filter (!·.isEmpty)).map fun piece =>
    (formDecode (piece.takeWhile (· ≠ '=')), formDecode ((piece.dropWhile (· ≠ '=')).drop 1))

/-- What parameters ask for: that nothing is stored, and another file system. -/
structure Options where
  /-- Whether nothing is stored. -/
  inMemory : Bool
  /-- The name of another file system. -/
  fileSystem : Option String

/-- Takes a parameter into account. -/
def Options.add (o : Options) : String × String → Except StorageFault Options
  | (key, value) =>
    let unknownValue : Except StorageFault Options :=
      .error (.location ("unknown value " ++ Text.quoted value ++ " for `" ++ key ++ "`"))
    if key = "mode" then
      if value ∈ ["ro", "rw", "rwc"] then .ok o
      else if value = "memory" then .ok { o with inMemory := true }
      else unknownValue
    else if key = "cache" then if value ∈ ["private", "shared"] then .ok o else unknownValue
    else if key = "immutable" then
      if value ∈ ["true", "1", "false", "0"] then .ok o else unknownValue
    else if key = "vfs" then .ok { o with fileSystem := some value }
    else .error (.location ("unknown query parameter `" ++ key ++ "` while parsing connection URL"))

/-! ## Paths -/

/-- The connection text of a path. -/
def connectionText (path : String) : List Char := ("sqlite:" ++ path ++ "?mode=rwc").toList

/-- The name under which the engine looks for another file system. -/
def systemName (name : String) : String :=
  String.ofList ((name.toList.takeWhile (· ≠ '\x00')).map fun c => if c = ' ' then '+' else c)

/-- The location of a file name, with what parameters ask for. -/
def Options.location (o : Options) (name : List Char) : Location :=
  match o.fileSystem with
  | some fileSystem => .unreachable (.engine (.noFileSystem (systemName fileSystem)))
  | none => if o.inMemory then .memory else ofName name

/-- The location of a connection text. Only what is written as the name of a database that lies
    nowhere is one that all connections share. -/
def ofConnection (text : List Char) : Except StorageFault Location := do
  let text := stripScheme text
  let name := text.takeWhile (· ≠ '?')
  let shared : Bool := name = memoryPath.toList
  let file ← (Utf8.decode (percentDecode (bytesOf name))).mapError fun (passed, flaw) =>
    StorageFault.location (flaw.message passed)
  let options ← (parameters ((text.dropWhile (· ≠ '?')).drop 1)).foldlM Options.add ⟨shared, none⟩
  return options.location file

/-- The location of a path. -/
def ofPath (path : String) : Except StorageFault Location :=
  if path = memoryPath then .ok .memory else ofConnection (connectionText path)

end Location

end Ripple
