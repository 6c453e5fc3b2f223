import Gearsdk.Qstring
import Mathlib.Algebra.Group.Int.Defs
import Mathlib.Algebra.Group.Nat.Defs

/-! Parsed JSON values with the accessors of the parser library that the message
classes use. Each accessor is the type test and the getter in one: it answers
only where the test succeeds. -/
namespace Gearsdk

/-- A number written without fraction or exponent, inside the 64-bit range, is
an `int`; every other number is a `double`, which no message class reads. -/
inductive Json where
  | null
  | bool (value : Bool)
  | int (value : Int)
  | double (text : Qstring)
  | string (bytes : Qstring)
  | array (elements : List Json)
  | object (members : List (Qstring × Json))

namespace Json

def isObject : Json → Bool
  | .object _ => true
  | _ => false

/-- `HasMember` and `operator[]`: the first member of that name. -/
def member? (name : String) : Json → Option Json
  | .object members => (members.find? (·.1 = Qstring.literal name)).map Prod.snd
  | _ => none

def inRange (low high : Int) : Json → Option Int
  | .int value => if low ≤ value ∧ value ≤ high then some value else none
  | _ => none

def getInt : Json → Option Int := inRange (-2 ^ 31) (2 ^ 31 - 1)

def getInt64 : Json → Option Int := inRange (-2 ^ 63) (2 ^ 63 - 1)

def getUint (value : Json) : Option Nat := (inRange 0 (2 ^ 32 - 1) value).map Int.toNat

def getBool : Json → Option Bool
  | .bool value => some value
  | _ => none

def getString : Json → Option Qstring
  | .string bytes => some (Qstring.cString bytes)
  | _ => none

theorem getString_string (bytes : Qstring) :
    (string bytes).getString = some (Qstring.cString bytes) := rfl

end Json
end Gearsdk
