import Gearsdk.Trim

/-! The four readers of a server configuration file. A file is a sequence of
characters in UTF-8, or of bytes that are not part of one, which only the two
readers that decode the file tell apart from characters. -/
namespace Gearsdk.ServerInfoReader
open Trim

inductive Symbol where
  | char (c : Char)
  | ill (bytes : List UInt8)
  deriving DecidableEq

abbrev Text := List Symbol

def newline : Symbol := .char '\n'

def carriageReturn : Symbol := .char '\r'

def hash : Symbol := .char '#'

def equals : Symbol := .char '='

def nul : Symbol := .char (Char.ofNat 0)

def oneOf (chars : List Char) : Symbol → Bool
  | .char c => chars.contains c
  | .ill _ => false

/-- The characters between one list of code points and the next. -/
def codes (points : List (Nat × Nat)) : Symbol → Bool
  | .char c => points.any fun range => range.1 ≤ c.toNat && c.toNat ≤ range.2
  | .ill _ => false

def text (s : String) : Text := s.toList.map .char

/-- The lines of a file, each as `f` leaves it once its line break is off. After a
last line break there is no further line. -/
def linesBy (f : Text → Text) (content : Text) : List Text :=
  let pieces := content.splitOn newline
  pieces.dropLast.map f ++ (pieces.getLast?.toList.filter (· ≠ []))

abbrev Config := Text → Option Text

def Config.set (config : Config) (key value : Text) : Config :=
  fun other => if other = key then some value else config other

/-- A reader enters what it takes from each line. -/
def load (entry : Text → Option (Text × Text)) (lines : List Text) : Config :=
  lines.foldl (fun config line =>
    match entry line with
    | some (key, value) => config.set key value
    | none => config) fun _ => none

/-- The text before and the text after the first `=`. -/
def beforeEquals (line : Text) : Text := line.takeWhile (· ≠ equals)

def afterEquals (line : Text) : Text := (line.dropWhile (· ≠ equals)).tail

def beforeHash (line : Text) : Text := line.takeWhile (· ≠ hash)

/-- The carriage return of a line break. -/
def chomp (line : Text) : Text :=
  if line.getLast? = some carriageReturn then line.dropLast else line

namespace Cpp

def cString (line : Text) : Text := line.takeWhile (· ≠ nul)

def blank : Symbol → Bool := oneOf [' ', '\t']

def ending : Symbol → Bool := oneOf [' ', '\t', '\n', '\r']

/-- The pointer to the end stops at the first character that is left. -/
def trim (str : Text) : Text :=
  match str.dropWhile blank with
  | [] => []
  | first :: rest => first :: rest.rdropWhile ending

def quotedBy (quote : Char) (value : Text) : Bool :=
  value.head? = some (.char quote) && value.getLast? = some (.char quote)

def opens (value : Text) : Bool := value.head? = some (.char '"') || value.head? = some (.char '\'')

/-- Once the quotes are off, `value[valueLen - 1]` is the end of the string, which
is no quote. -/
def unquote (value : Text) : Option Text :=
  if 2 ≤ value.length ∧ (quotedBy '"' value || quotedBy '\'' value) then
    let value := value.tail.dropLast
    if opens value then none else some value
  else if opens value && !(quotedBy '"' value || quotedBy '\'' value) then none
  else some value

def entry (line : Text) : Option (Text × Text) :=
  let trimmed := trim (cString line)
  if trimmed = [] ∨ trimmed.head? = some hash then none
  else if equals ∉ trimmed then none
  else
    let key := trim (beforeEquals trimmed)
    let value := trim (afterEquals trimmed)
    if key = [] ∨ value = [] then none else (unquote value).map fun value => (key, value)

def loadConfig (content : Text) : Config := load entry (linesBy (· ++ [newline]) content)

end Cpp

/-- White space of `String.prototype.trim`. -/
def jsSpace : Symbol → Bool :=
  codes [(0x09, 0x0D), (0x20, 0x20), (0xA0, 0xA0), (0x1680, 0x1680), (0x2000, 0x200A),
    (0x2028, 0x2029),
    (0x202F, 0x202F), (0x205F, 0x205F), (0x3000, 0x3000), (0xFEFF, 0xFEFF)]

/-- `isspace` of the C locale. -/
def luaSpace : Symbol → Bool := codes [(0x09, 0x0D), (0x20, 0x20)]

/-- The Unicode property `White_Space`. -/
def rustSpace : Symbol → Bool :=
  codes [(0x09, 0x0D), (0x20, 0x20), (0x85, 0x85), (0xA0, 0xA0), (0x1680, 0x1680), (0x2000, 0x200A),
    (0x2028, 0x2029), (0x202F, 0x202F), (0x205F, 0x205F), (0x3000, 0x3000)]

def quote : Symbol → Bool := oneOf ['"', '\'', '`']

/-- At most one quote is taken off each end, whether or not they belong together. -/
def stripQuotes (value : Text) : Text :=
  let value := if value.head?.any quote then value.tail else value
  if value.getLast?.any quote then value.dropLast else value

namespace TypeScript

/-- What is not UTF-8 is read as a replacement character. -/
def decode : Symbol → Symbol
  | .char c => .char c
  | .ill _ => .char (Char.ofNat 0xFFFD)

def entry (line : Text) : Option (Text × Text) :=
  let line := trim jsSpace line
  if line = [] ∨ line.head? = some hash then none
  else
    match (beforeHash line).splitOn equals with
    | key :: rawValue :: _ =>
        let key := trim jsSpace key
        if key = [] then none else some (key, stripQuotes (trim jsSpace rawValue))
    | _ => none

/-- Here an empty line does follow the last line break. -/
def loadConfig (content : Text) : Config :=
  let pieces := (content.map decode).splitOn newline
  load entry (pieces.dropLast.map chomp ++ pieces.getLast?.toList)

end TypeScript

namespace Lua

def entry (line : Text) : Option (Text × Text) :=
  let line := trim luaSpace line
  if line = [] ∨ line.head? = some hash then none
  else
    let keyValuePart := trim luaSpace (beforeHash line)
    if equals ∈ keyValuePart then
      let key := (beforeEquals keyValuePart).rdropWhile luaSpace
      let rawValue := (afterEquals keyValuePart).dropWhile luaSpace
      some (key, stripQuotes rawValue)
    else none

def loadConfig (content : Text) : Config := load entry (linesBy id content)

end Lua

namespace Rust

def entry (line : Text) : Option (Text × Text) :=
  let trimmedLine := trim rustSpace line
  if trimmedLine = [] ∨ trimmedLine.head? = some hash then none
  else
    match (beforeHash trimmedLine).splitOn equals with
    | [key, value] => some (trim rustSpace key, trim quote (trim rustSpace value))
    | _ => none

def wellFormed (content : Text) : Bool :=
  content.all fun
    | .char _ => true
    | .ill _ => false

/-- A file that is not UTF-8 cannot be read to a string, and the default is empty. -/
def loadConfig (content : Text) : Config :=
  load entry (linesBy chomp (if wellFormed content then content else []))

end Rust

inductive Reader where
  | cpp | typeScript | lua | rust
  deriving DecidableEq

def Reader.loadConfig : Reader → Text → Config
  | .cpp => Cpp.loadConfig
  | .typeScript => TypeScript.loadConfig
  | .lua => Lua.loadConfig
  | .rust => Rust.loadConfig

end Gearsdk.ServerInfoReader
