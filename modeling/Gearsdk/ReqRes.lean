import Gearsdk.Crc32
import Gearsdk.OrderedMap
import Gearsdk.Qstring
import Mathlib.Algebra.Group.Nat.Defs

/-! The record of one HTTP request or response: headers under the CRC-32 of
their names, of which the first is kept, and a payload. Every text is copied
as a C string of less than 2^31 - 1 bytes. -/
namespace Gearsdk
open Std

structure Header where
  name : Qstring
  value : Qstring
  clean : Qstring.Clean name ∧ Qstring.Clean value
  deriving DecidableEq

def Header.create (name value : Qstring) : Header :=
  ⟨Qstring.cString name, Qstring.cString value, Qstring.cString_clean name,
    Qstring.cString_clean value⟩

structure ConnIoReqRes where
  headers : TreeMap Nat Header := ∅
  data : Qstring := []

namespace ConnIoReqRes

def addOrGetHeader (record : ConnIoReqRes) (name value : Qstring) : ConnIoReqRes × Header :=
  match record.headers[Crc32.checksum name]? with
  | none =>
      let header := Header.create name value
      ({ record with headers := record.headers.insert (Crc32.checksum name) header }, header)
  | some header => (record, header)

/-- The headers of one message, each kept if its name is new. -/
def addHeaders (record : ConnIoReqRes) (fields : List (Qstring × Qstring)) : ConnIoReqRes :=
  fields.foldl (fun record field =>
    (record.addOrGetHeader (Qstring.cString field.1) (Qstring.cString field.2)).1) record

def getHeader (record : ConnIoReqRes) (name : Qstring) : Option Header :=
  record.headers[Crc32.checksum name]?

def setPayload (record : ConnIoReqRes) (payload : Qstring) : ConnIoReqRes :=
  { record with data := Qstring.cString payload }

def appendToPayload (record : ConnIoReqRes) (bytes : Qstring) : ConnIoReqRes :=
  { record with data := record.data ++ Qstring.cString bytes }

def isSpace (byte : UInt8) : Bool := byte = 32 || (9 ≤ byte && byte ≤ 13)

def hexDigit? (byte : UInt8) : Option Nat :=
  if 48 ≤ byte ∧ byte ≤ 57 then some (byte.toNat - 48)
  else if 65 ≤ byte ∧ byte ≤ 70 then some (byte.toNat - 55)
  else if 97 ≤ byte ∧ byte ≤ 102 then some (byte.toNat - 87)
  else none

/-- `sscanf` with `%8lx` into a zero: blanks, then at most eight characters of a
sign, a `0x` and hexadecimal digits. -/
def scanHex (text : Qstring) : Nat :=
  let field := (text.dropWhile isSpace).take 8
  let negative := field.head? = some 45
  let digits := if negative ∨ field.head? = some 43 then field.tail else field
  let digits := if digits.take 2 = [48, 120] ∨ digits.take 2 = [48, 88] then digits.drop 2
    else digits
  let value := (digits.map hexDigit?).takeWhile Option.isSome
    |>.foldl (fun n d => 16 * n + d.getD 0) 0
  if negative then (2 ^ 64 - value) % 2 ^ 64 else value

def hasCrcHeader (record : ConnIoReqRes) : Bool := (record.getHeader (Qstring.literal "crc")).isSome

/-- Whether the `crc` header fits the payload. -/
def validate (record : ConnIoReqRes) : Bool :=
  match record.getHeader (Qstring.literal "crc") with
  | none => false
  | some crc =>
      if record.data.length = 0 then
        match record.getHeader (Qstring.literal ":method") with
        | none => false
        | some _ => Qstring.operatorEq crc.value (Qstring.literal "0")
      else scanHex crc.value = Crc32.checksum record.data

variable {record record' : ConnIoReqRes}

theorem lookup_addOrGetHeader (record : ConnIoReqRes) (name value : Qstring) (k : Nat) :
    (record.addOrGetHeader name value).1.headers[k]? =
      record.headers[k]?.or
        (if Crc32.checksum name = k then some (Header.create name value) else none) := by
  simp only [addOrGetHeader]
  cases kept : record.headers[Crc32.checksum name]? with
  | none =>
    dsimp only
    rw [OrderedMap.lookup_insert]
    split
    · rename_i here
      rw [← here, kept]
      rfl
    · rw [Option.or_none]
  | some header =>
    by_cases here : Crc32.checksum name = k
    · rw [if_pos here, ← here, kept]
      rfl
    · rw [if_neg here, Option.or_none]

theorem data_addHeaders (record : ConnIoReqRes) (fields : List (Qstring × Qstring)) :
    (record.addHeaders fields).data = record.data := by
  induction fields generalizing record with
  | nil => rfl
  | cons field rest ih =>
    rw [addHeaders, List.foldl_cons]
    refine (ih _).trans ?_
    simp only [addOrGetHeader]
    split <;> rfl

theorem headers_setPayloads (record : ConnIoReqRes) (payloads : List Qstring) :
    (payloads.foldl setPayload record).headers = record.headers := by
  induction payloads generalizing record with
  | nil => rfl
  | cons first rest ih => exact ih (record.setPayload first)

/-- What a record held before stays in front of the headers that are added. -/
theorem lookup_addHeaders (record : ConnIoReqRes) (fields : List (Qstring × Qstring)) (k : Nat) :
    (record.addHeaders fields).headers[k]? =
      record.headers[k]?.or (({} : ConnIoReqRes).addHeaders fields).headers[k]? := by
  induction fields generalizing record with
  | nil => exact (Option.or_none ..).symm
  | cons field rest ih =>
    have first := ih (record.addOrGetHeader (Qstring.cString field.1) (Qstring.cString field.2)).1
    have second :=
      ih (({} : ConnIoReqRes).addOrGetHeader (Qstring.cString field.1) (Qstring.cString field.2)).1
    change (record.addHeaders (field :: rest)).headers[k]? = _ at first
    change (({} : ConnIoReqRes).addHeaders (field :: rest)).headers[k]? = _ at second
    rw [first, second, lookup_addOrGetHeader, lookup_addOrGetHeader, OrderedMap.lookup_empty,
      Option.none_or, Option.or_assoc]

/-- Every header is kept under the checksum of its name. -/
def Keyed (record : ConnIoReqRes) : Prop :=
  ∀ (k : Nat) (header : Header), record.headers[k]? = some header → k = Crc32.checksum header.name

theorem Keyed.addHeaders (keyed : record.Keyed) (fields : List (Qstring × Qstring)) :
    (record.addHeaders fields).Keyed := by
  induction fields generalizing record with
  | nil => exact keyed
  | cons field rest ih =>
    refine ih fun k header found => ?_
    rw [lookup_addOrGetHeader, Option.or_eq_some_iff] at found
    rcases found with before | ⟨_, now⟩
    · exact keyed k header before
    · split at now
      · rename_i here
        obtain rfl := Option.some.inj now
        rw [← here]
        exact congrArg Crc32.checksum (Qstring.cString_of_nul_free (Qstring.cString_clean field.1)).symm
      · cases now

theorem Keyed.empty : Keyed {} := by
  intro k header found
  rw [OrderedMap.lookup_empty] at found
  cases found

/-- The headers of a record in the order of the map. -/
def headerList (record : ConnIoReqRes) : List Header := record.headers.toList.map Prod.snd

theorem Keyed.toList (keyed : record.Keyed) :
    record.headers.toList = record.headerList.map fun header =>
      (Crc32.checksum header.name, header) := by
  rw [headerList, List.map_map]
  refine (List.map_id _).symm.trans (List.map_congr_left fun entry member => ?_)
  have found := TreeMap.mem_toList_iff_getElem?_eq_some.mp member
  exact Prod.ext (keyed entry.1 entry.2 found) rfl

/-- Records with the same headers list them in the same way. -/
theorem headerList_eq_iff (keyed : record.Keyed) (keyed' : record'.Keyed) :
    record.headerList = record'.headerList ↔
      ∀ k : Nat, record.headers[k]? = record'.headers[k]? := by
  constructor
  · intro same k
    have lists : record.headers.toList = record'.headers.toList := by
      rw [keyed.toList, keyed'.toList, same]
    exact (TreeMap.equiv_iff_toList_eq.mpr lists).getElem?_eq
  · intro same
    exact congrArg (List.map Prod.snd) (TreeMap.Equiv.of_forall_constGet?_eq same).toList_eq

end ConnIoReqRes
end Gearsdk
