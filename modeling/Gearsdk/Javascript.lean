import Gearsdk.Utf16
import Mathlib.Algebra.Group.Nat.Defs

/-! Values of a script that come from JSON, with `JSON.parse`, the access of properties and maps.
Texts are in UTF-16. -/
namespace Javascript
open Utf16

/-- A number is known by a token that is rounded to it. -/
inductive Value where
  | undefined
  | null
  | bool (value : Bool)
  | number (token : Text)
  | string (text : Text)
  | array (elements : List Value)
  | object (members : List (Text × Value))

/-- The units of an ASCII text. -/
def units (text : String) : Text := text.toList.map fun c => UInt16.ofNat c.toNat

/-! ### JSON.parse -/

def isWhitespace (unit : UInt16) : Bool := unit = 32 || unit = 10 || unit = 13 || unit = 9

def skipWhitespace (text : Text) : Text := text.dropWhile isWhitespace

def consume (expected : UInt16) : Text → Option Text
  | [] => none
  | unit :: rest => if unit = expected then some rest else none

def isDigit (unit : UInt16) : Bool := 48 ≤ unit.toNat && unit.toNat ≤ 57

def hexValue (unit : UInt16) : Option Nat :=
  if 48 ≤ unit.toNat ∧ unit.toNat ≤ 57 then some (unit.toNat - 48)
  else if 65 ≤ unit.toNat ∧ unit.toNat ≤ 70 then some (unit.toNat - 55)
  else if 97 ≤ unit.toNat ∧ unit.toNat ≤ 102 then some (unit.toNat - 87)
  else none

def unescape (unit : UInt16) : Option UInt16 :=
  if unit = 34 ∨ unit = 47 ∨ unit = 92 then some unit
  else if unit = 98 then some 8
  else if unit = 102 then some 12
  else if unit = 110 then some 10
  else if unit = 114 then some 13
  else if unit = 116 then some 9
  else none

/-- Four hexadecimal digits are any unit, also half of a pair. -/
def unicodeEscape : Text → Option (UInt16 × Text)
  | a :: b :: c :: d :: rest => do
      let a ← hexValue a
      let b ← hexValue b
      let c ← hexValue c
      let d ← hexValue d
      some (UInt16.ofNat (4096 * a + 256 * b + 16 * c + d), rest)
  | _ => none

/-- One unit of a string and what is behind it. -/
def parseUnit : Text → Option (UInt16 × Text)
  | [] => none
  | unit :: rest =>
      if unit = 92 then
        match rest with
        | [] => none
        | escaped :: rest =>
            if escaped = 117 then unicodeEscape rest else (unescape escaped).map fun unit =>
              (unit, rest)
      else if unit.toNat < 32 then none
      else some (unit, rest)

/-- The rest of a string, behind its opening quotation mark. -/
def parseString : (rounds : Nat) → Text → Option (Text × Text)
  | 0, _ => none
  | rounds + 1, text =>
      match consume 34 text with
      | some rest => some ([], rest)
      | none => do
          let (unit, rest) ← parseUnit text
          let (units, rest) ← parseString rounds rest
          some (unit :: units, rest)

/-- At least one digit. -/
def parseDigits (text : Text) : Option (Text × Text) :=
  let digits := text.takeWhile isDigit
  if digits = [] then none else some (digits, text.drop digits.length)

/-- Zero stands alone. -/
def parseInteger (text : Text) : Option (Text × Text) :=
  match consume 48 text with
  | some rest => some ([48], rest)
  | none => parseDigits text

def parseFraction (text : Text) : Option (Text × Text) :=
  match consume 46 text with
  | none => some ([], text)
  | some rest => (parseDigits rest).map fun (digits, rest) => (46 :: digits, rest)

def parseSign (text : Text) : Text × Text :=
  match text with
  | [] => ([], [])
  | unit :: rest => if unit = 43 ∨ unit = 45 then ([unit], rest) else ([], unit :: rest)

def parseExponent (text : Text) : Option (Text × Text) :=
  match text with
  | [] => some ([], [])
  | unit :: rest =>
      if unit = 101 ∨ unit = 69 then
        let (sign, rest) := parseSign rest
        (parseDigits rest).map fun (digits, rest) => (unit :: sign ++ digits, rest)
      else some ([], unit :: rest)

def parseNumber (text : Text) : Option (Text × Text) := do
  let (minus, rest) := match consume 45 text with
    | some rest => (([45] : Text), rest)
    | none => ([], text)
  let (digits, rest) ← parseInteger rest
  let (fraction, rest) ← parseFraction rest
  let (exponent, rest) ← parseExponent rest
  some (minus ++ digits ++ fraction ++ exponent, rest)

/-- The last value of a key counts; the key keeps its place. -/
def setMember (members : List (Text × Value)) (key : Text) (value : Value) : List (Text × Value) :=
  if members.any (·.1 = key) then members.map fun member => if member.1 = key then (key, value)
    else member
  else members ++ [(key, value)]

def parseLiteral (literal : String) (value : Value) (text : Text) : Option (Value × Text) :=
  if units literal <+: text then some (value, text.drop (units literal).length) else none

mutual

/-- Every two rounds use up a unit. -/
def parseValue : (rounds : Nat) → Text → Option (Value × Text)
  | 0, _ => none
  | _ + 1, [] => none
  | rounds + 1, unit :: rest =>
      if unit = 110 then parseLiteral "null" .null (unit :: rest)
      else if unit = 116 then parseLiteral "true" (.bool true) (unit :: rest)
      else if unit = 102 then parseLiteral "false" (.bool false) (unit :: rest)
      else if unit = 34 then (parseString (rest.length + 1) rest).map fun (text, rest) =>
        (.string text, rest)
      else if unit = 123 then
        let rest := skipWhitespace rest
        match consume 125 rest with
        | some rest => some (.object [], rest)
        | none => (parseMembers rounds [] rest).map fun (members, rest) => (.object members, rest)
      else if unit = 91 then
        let rest := skipWhitespace rest
        match consume 93 rest with
        | some rest => some (.array [], rest)
        | none => (parseElements rounds rest).map fun (elements, rest) => (.array elements, rest)
      else (parseNumber (unit :: rest)).map fun (token, rest) => (.number token, rest)

/-- The members of an object, behind those that it has already. -/
def parseMembers : (rounds : Nat) → List (Text × Value) → Text → Option (List (Text × Value) × Text)
  | 0, _, _ => none
  | rounds + 1, members, text => do
      let rest ← consume 34 text
      let (key, rest) ← parseString (rest.length + 1) rest
      let rest ← consume 58 (skipWhitespace rest)
      let (value, rest) ← parseValue rounds (skipWhitespace rest)
      let rest := skipWhitespace rest
      let members := setMember members key value
      match consume 44 rest with
      | some rest => parseMembers rounds members (skipWhitespace rest)
      | none => (consume 125 rest).map fun rest => (members, rest)

def parseElements : (rounds : Nat) → Text → Option (List Value × Text)
  | 0, _ => none
  | rounds + 1, text => do
      let (element, rest) ← parseValue rounds text
      let rest := skipWhitespace rest
      match consume 44 rest with
      | some rest => (parseElements rounds (skipWhitespace rest)).map fun (later, rest) =>
        (element :: later, rest)
      | none => (consume 93 rest).map fun rest => ([element], rest)

end

/-- Nothing stands for a syntax error. -/
def parse (text : Text) : Option Value := do
  let text := skipWhitespace text
  let (value, rest) ← parseValue (2 * text.length) text
  if skipWhitespace rest = [] then some value else none

/-! ### Properties -/

/-- The access of a property that no prototype has. Nothing stands for a type error. -/
def Value.get (value : Value) (name : String) : Option Value :=
  match value with
  | .undefined | .null => none
  | .object members => some ((members.lookup (units name)).getD .undefined)
  | .bool _ | .number _ | .string _ | .array _ => some .undefined

/-- The number of a key in plain digits below `2 ^ 53`. -/
def digitsNumber (key : Text) : Option Nat :=
  if key ≠ [] ∧ key.all isDigit then
    let number := key.foldl (fun number unit => 10 * number + (unit.toNat - 48)) 0
    if number < 2 ^ 53 then some number else none
  else none

def decimal (n : Nat) : Text := units (String.ofList (Nat.toDigits 10 n))

/-- The number of a key that is an array index. -/
def arrayIndex (key : Text) : Option Nat :=
  match digitsNumber key with
  | some n => if decimal n = key ∧ n < 2 ^ 32 - 1 then some n else none
  | none => none

/-- The order of own properties: array indices in ascending order, then the others in the order of
their insertion. -/
def ordered (members : List (Text × α)) : List (Text × α) :=
  (members.filter fun member => (arrayIndex member.1).isSome).mergeSort
      (fun a b => (arrayIndex a.1).getD 0 ≤ (arrayIndex b.1).getD 0) ++
    members.filter fun member => !(arrayIndex member.1).isSome

/-- The own properties as `for in` and `Object.entries` go through them. -/
def Value.entries (value : Value) : List (Text × Value) :=
  match value with
  | .object members => ordered members
  | .array elements => elements.mapIdx fun i element => (decimal i, element)
  | .string text => text.mapIdx fun i unit => (decimal i, .string [unit])
  | .undefined | .null | .bool _ | .number _ => []

/-! ### JSON.stringify -/

def hexDigitLower (n : Nat) : UInt16 := UInt16.ofNat (if n < 10 then 48 + n else 87 + n)

def unicodeEscapeOf (unit : UInt16) : Text :=
  [92, 117, hexDigitLower (unit.toNat / 4096), hexDigitLower (unit.toNat / 256 % 16),
    hexDigitLower (unit.toNat / 16 % 16), hexDigitLower (unit.toNat % 16)]

/-- A unit that is half of no pair. -/
def escapeSingle (unit : UInt16) : Text :=
  if unit = 34 then [92, 34]
  else if unit = 92 then [92, 92]
  else if unit = 8 then [92, 98]
  else if unit = 9 then [92, 116]
  else if unit = 10 then [92, 110]
  else if unit = 12 then [92, 102]
  else if unit = 13 then [92, 114]
  else if unit.toNat < 32 ∨ isHigh unit ∨ isLow unit then unicodeEscapeOf unit
  else [unit]

def escapeText : Text → Text
  | [] => []
  | [unit] => escapeSingle unit
  | high :: low :: rest =>
      if isHigh high && isLow low then high :: low :: escapeText rest
        else escapeSingle high ++ escapeText (low :: rest)

def stringText (text : Text) : Text := 34 :: (escapeText text ++ [34])

def joined (texts : List Text) : Text := [44].intercalate texts

mutual

/-- Nothing stands for undefined. How a number is written is a parameter. -/
def stringify (numberText : Text → Text) : Value → Option Text
  | .undefined => none
  | .null => some (units "null")
  | .bool value => some (units (if value then "true" else "false"))
  | .number token => some (numberText token)
  | .string text => some (stringText text)
  | .array elements => some (91 :: (joined (elementTexts numberText elements) ++ [93]))
  | .object members =>
      let texts := (ordered (memberTexts numberText members)).map fun member =>
        stringText member.1 ++ 58 :: member.2
      some (123 :: (joined texts ++ [125]))

def elementTexts (numberText : Text → Text) : List Value → List Text
  | [] => []
  | element :: rest =>
    (stringify numberText element).getD (units "null") :: elementTexts numberText rest

/-- A member that is undefined is left out. -/
def memberTexts (numberText : Text → Text) : List (Text × Value) → List (Text × Text)
  | [] => []
  | (key, value) :: rest =>
      match stringify numberText value with
      | some text => (key, text) :: memberTexts numberText rest
      | none => memberTexts numberText rest

end

/-! ### parseInt -/

/-- White space and the ends of lines. -/
def isSpace (unit : UInt16) : Bool :=
  (9 ≤ unit.toNat && unit.toNat ≤ 13) || unit = 32 || unit = 0xA0 || unit = 0x1680 ||
    (0x2000 ≤ unit.toNat && unit.toNat ≤ 0x200A) || unit = 0x2028 || unit = 0x2029 ||
      unit = 0x202F ||
    unit = 0x205F || unit = 0x3000 || unit = 0xFEFF

/-- The number of a text with the radix 10, if it begins with one. -/
def parseInt (text : Text) : Option Text :=
  let (sign, rest) := parseSign (text.dropWhile isSpace)
  (parseDigits rest).map fun (digits, _) => if sign = [45] then 45 :: digits else digits

def isZero (token : Text) : Bool := token.all fun unit => unit = 48 || unit = 45

end Javascript
