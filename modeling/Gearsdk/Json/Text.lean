import Gearsdk.Json
import Gearsdk.Str2int

/-! JSON texts: what the writer of the parser library puts out, and what its
reader takes in. -/
namespace Gearsdk
namespace Json
open Qstring

/-! ### The writer -/

def hexDigits (n : Nat) : UInt8 := UInt8.ofNat (if n < 10 then 48 + n else 55 + n)

/-- The escape table of `WriteString`. -/
def escape (byte : UInt8) : Qstring :=
  if byte = 34 then [92, 34]
  else if byte = 92 then [92, 92]
  else if byte = 8 then [92, 98]
  else if byte = 9 then [92, 116]
  else if byte = 10 then [92, 110]
  else if byte = 12 then [92, 102]
  else if byte = 13 then [92, 114]
  else if byte.toNat < 32 then [92, 117, 48, 48, hexDigits (byte.toNat / 16),
    hexDigits (byte.toNat % 16)]
  else [byte]

def writeString (bytes : Qstring) : Qstring := 34 :: (bytes.flatMap escape ++ [34])

def writeInt : Int → Qstring
  | .ofNat n => unsigned n
  | .negSucc n => 45 :: unsigned (n + 1)

def writeBool (value : Bool) : Qstring :=
  if value then [116, 114, 117, 101] else [102, 97, 108, 115, 101]

/-- A comma comes before every value but the first of its level. -/
def separator (first : Bool) : Qstring := if first then [] else [44]

mutual

def write : Json → Qstring
  | .null => [110, 117, 108, 108]
  | .bool value => writeBool value
  | .int value => writeInt value
  | .double text => text
  | .string bytes => writeString bytes
  | .array elements => 91 :: (writeElements true elements ++ [93])
  | .object members => 123 :: (writeMembers true members ++ [125])

def writeElements (first : Bool) : List Json → Qstring
  | [] => []
  | element :: rest => separator first ++ write element ++ writeElements false rest

def writeMembers (first : Bool) : List (Qstring × Json) → Qstring
  | [] => []
  | (name, value) :: rest =>
      separator first ++ writeString name ++ 58 :: write value ++ writeMembers false rest

end

/-- `get_json_string` -/
def getJsonString (obj : Json) : Qstring := cString (write obj)

/-! ### The reader -/

def isWhitespace (byte : UInt8) : Bool := byte = 32 || byte = 10 || byte = 13 || byte = 9

def skipWhitespace (is : Qstring) : Qstring := is.dropWhile isWhitespace

def consume (expect : UInt8) : Qstring → Option Qstring
  | [] => none
  | c :: is => if c = expect then some is else none

def hexValue (c : UInt8) : Option Nat :=
  if 48 ≤ c.toNat ∧ c.toNat ≤ 57 then some (c.toNat - 48)
  else if 65 ≤ c.toNat ∧ c.toNat ≤ 70 then some (c.toNat - 55)
  else if 97 ≤ c.toNat ∧ c.toNat ≤ 102 then some (c.toNat - 87)
  else none

def parseHex4 : Qstring → Option (Nat × Qstring)
  | a :: b :: c :: d :: is => do
      let a ← hexValue a
      let b ← hexValue b
      let c ← hexValue c
      let d ← hexValue d
      some (4096 * a + 256 * b + 16 * c + d, is)
  | _ => none

def encodeUtf8 (codepoint : Nat) : Qstring :=
  if codepoint ≤ 0x7F then [UInt8.ofNat codepoint]
  else if codepoint ≤ 0x7FF then [UInt8.ofNat (0xC0 + codepoint / 64),
    UInt8.ofNat (0x80 + codepoint % 64)]
  else if codepoint ≤ 0xFFFF then
    [UInt8.ofNat (0xE0 + codepoint / 4096), UInt8.ofNat (0x80 + codepoint / 64 % 64),
      UInt8.ofNat (0x80 + codepoint % 64)]
  else
    [UInt8.ofNat (0xF0 + codepoint / 262144), UInt8.ofNat (0x80 + codepoint / 4096 % 64),
      UInt8.ofNat (0x80 + codepoint / 64 % 64), UInt8.ofNat (0x80 + codepoint % 64)]

/-- Behind `\u`: one code unit, or a high surrogate with its low one. -/
def parseUnicode (is : Qstring) : Option (Nat × Qstring) := do
  let (codepoint, is) ← parseHex4 is
  if 0xD800 ≤ codepoint ∧ codepoint ≤ 0xDFFF then
    if codepoint ≤ 0xDBFF then
      let is ← consume 92 is
      let is ← consume 117 is
      let (codepoint2, is) ← parseHex4 is
      if codepoint2 < 0xDC00 ∨ codepoint2 > 0xDFFF then none
      else some (1024 * (codepoint - 0xD800) + (codepoint2 - 0xDC00) + 0x10000, is)
    else none
  else some (codepoint, is)

/-- The escape table of `ParseStringToStream`. -/
def unescape (e : UInt8) : Option UInt8 :=
  if e = 34 ∨ e = 47 ∨ e = 92 then some e
  else if e = 98 then some 8
  else if e = 102 then some 12
  else if e = 110 then some 10
  else if e = 114 then some 13
  else if e = 116 then some 9
  else none

/-- The rest of a string, behind its opening quotation mark. -/
def parseStringToStream : (rounds : Nat) → Qstring → Option (Qstring × Qstring)
  | 0, _ => none
  | _ + 1, [] => none
  | rounds + 1, c :: is =>
      if c = 92 then
        match is with
        | [] => none
        | e :: is =>
            match unescape e with
            | some byte => (parseStringToStream rounds is).map fun (os, is) => (byte :: os, is)
            | none =>
                if e = 117 then do
                  let (codepoint, is) ← parseUnicode is
                  let (os, is) ← parseStringToStream rounds is
                  some (encodeUtf8 codepoint ++ os, is)
                else none
      else if c = 34 then some ([], is)
      else if c.toNat < 32 then none
      else (parseStringToStream rounds is).map fun (os, is) => (c :: os, is)

def parseString (is : Qstring) : Option (Qstring × Qstring) := parseStringToStream is.length is

/-- A fraction or an exponent: its introduction, and at least one digit. -/
def parseDigits (is : Qstring) : Option (Qstring × Qstring) :=
  let digits := is.takeWhile isdigit
  if digits = [] then none else some (digits, is.drop digits.length)

def parseFrac (is : Qstring) : Option (Qstring × Qstring) :=
  match consume 46 is with
  | none => some ([], is)
  | some is => (parseDigits is).map fun (digits, is) => (46 :: digits, is)

def parseSign (is : Qstring) : Qstring × Qstring :=
  match is with
  | 43 :: is => ([43], is)
  | 45 :: is => ([45], is)
  | is => ([], is)

def parseExp (is : Qstring) : Option (Qstring × Qstring) :=
  match is with
  | [] => some ([], is)
  | e :: rest =>
      if e = 101 ∨ e = 69 then
        let (sign, is) := parseSign rest
        (parseDigits is).map fun (digits, is) => (e :: sign ++ digits, is)
      else some ([], is)

/-- Zero stands alone. -/
def parseIntPart (is : Qstring) : Option (Qstring × Qstring) :=
  match consume 48 is with
  | some is => some ([48], is)
  | none => parseDigits is

section Reader
variable (tooBig : Qstring → Bool)

/-- Whether a number is too big for a `double` is left to the environment. -/
def parseNumber (is : Qstring) : Option (Json × Qstring) := do
  let (minus, is) := match consume 45 is with
    | some is => (true, is)
    | none => (false, is)
  let (digits, is) ← parseIntPart is
  let (frac, is) ← parseFrac is
  let (exp, is) ← parseExp is
  let i := (Strtol.accumulate 0 digits).1
  if frac = [] ∧ exp = [] ∧ i ≤ (if minus then 2 ^ 63 else 2 ^ 64 - 1) then
    some (.int (if minus then -i else i), is)
  else
    let text := (if minus then [45] else []) ++ digits ++ frac ++ exp
    if tooBig text then none else some (.double text, is)

mutual

/-- Every two rounds use up a byte. -/
def parseValue : (rounds : Nat) → Qstring → Option (Json × Qstring)
  | 0, _ => none
  | _ + 1, [] => none
  | rounds + 1, c :: is =>
      if c = 110 then if [117, 108, 108] <+: is then some (.null, is.drop 3) else none
      else if c = 116 then if [114, 117, 101] <+: is then some (.bool true, is.drop 3) else none
      else if c = 102 then
        if [97, 108, 115, 101] <+: is then some (.bool false, is.drop 4) else none
      else if c = 34 then (parseString is).map fun (bytes, is) => (.string bytes, is)
      else if c = 123 then
        let is := skipWhitespace is
        match consume 125 is with
        | some is => some (.object [], is)
        | none => (parseMembers rounds is).map fun (members, is) => (.object members, is)
      else if c = 91 then
        let is := skipWhitespace is
        match consume 93 is with
        | some is => some (.array [], is)
        | none => (parseElements rounds is).map fun (elements, is) => (.array elements, is)
      else parseNumber tooBig (c :: is)

def parseMembers : (rounds : Nat) → Qstring → Option (List (Qstring × Json) × Qstring)
  | 0, _ => none
  | rounds + 1, is => do
      let is ← consume 34 is
      let (name, is) ← parseString is
      let is ← consume 58 (skipWhitespace is)
      let (value, is) ← parseValue rounds (skipWhitespace is)
      let is := skipWhitespace is
      match consume 44 is with
      | some is => (parseMembers rounds (skipWhitespace is)).map fun (rest, is) =>
        ((name, value) :: rest, is)
      | none => (consume 125 is).map fun is => ([(name, value)], is)

def parseElements : (rounds : Nat) → Qstring → Option (List Json × Qstring)
  | 0, _ => none
  | rounds + 1, is => do
      let (element, is) ← parseValue rounds is
      let is := skipWhitespace is
      match consume 44 is with
      | some is => (parseElements rounds (skipWhitespace is)).map fun (rest, is) =>
        (element :: rest, is)
      | none => (consume 93 is).map fun is => ([element], is)

end

/-- A byte order mark is skipped, also where only its first bytes are there. -/
def skipBom (is : Qstring) : Qstring :=
  [0xEF, 0xBB, 0xBF].foldl (fun is byte => (consume byte is).getD is) is

/-- `none` is a parse error. A NUL ends the document like the end of the buffer. -/
def parse (text : Qstring) : Option Json := do
  let is := skipWhitespace (skipBom text)
  let (value, is) ← parseValue tooBig (2 * is.length) is
  if (skipWhitespace is).head?.all (· = 0) then some value else none

end Reader

end Json
end Gearsdk
