import Gearsdk.OrderedMap
import Gearsdk.Qlogfile
import Gearsdk.Qstring.Split
import Mathlib.Algebra.GroupWithZero.Nat

/-! The crawler of the statistics files: it cuts a file into lines, takes the
lines of counters apart and puts them together in statements, one for each
counter. -/
namespace Gearsdk
open Std Qstring

/-- `fgets`, with room for this many characters: the line with its line feed, or
as much of it as fits, and the rest of the file. -/
def fgets : (room : Nat) → Qstring → Qstring × Qstring
  | 0, file => ([], file)
  | _, [] => ([], [])
  | room + 1, c :: file =>
      if c = 10 then ([10], file)
      else
        let (line, rest) := fgets room file
        (c :: line, rest)

namespace QstatsCrawler

structure Batch where
  value : Qstring := []
  count : Nat := 0

/-- The statements sent so far: the table's name behind `stats_`, and the text
behind `VALUES`. -/
structure Crawler where
  batches : TreeMap Qstring Batch := ∅
  sent : List (Qstring × Qstring) := []

def countStatsBatchCount : Nat := 200

def totalStatFields : Nat := 19

def getNumberOfCountStats (batches : TreeMap Qstring Batch) : Nat :=
  (batches.toList.map fun kv => kv.2.count).sum

def batchSendCountStats (c : Crawler) : Crawler :=
  { batches := ∅, sent := c.sent ++ c.batches.toList.map fun kv => (kv.1, kv.2.value) }

/-- The conversion in the format string for the field `x`, and its argument. -/
def formatField (x : Nat) (field : Qstring) : Qstring :=
  if operatorEq field (literal "NULL") then cString field
  else if x = 2 ∨ x = 12 then cString field
  else 39 :: (cString field ++ [39])

def insertValues (list : List Qstring) : Qstring :=
  40 :: ([44].intercalate ((list.zipIdx.drop 2).map fun field => formatField field.2 field.1) ++ [41])

def batchKey (list : List Qstring) : Qstring := list.getD 0 [] ++ literal "_" ++ list.getD 1 []

def appendCountStats (batches : TreeMap Qstring Batch) (list : List Qstring) :
    TreeMap Qstring Batch :=
  if list.length ≠ totalStatFields then batches
  else
    let key := batchKey list
    let batch := batches.getD key {}
    let value := if batches.contains key then batch.value ++ literal "," else batch.value
    batches.insert key { value := value ++ insertValues list, count := batch.count + 1 }

/-- The fields of a line. Quotes are replaced in each of them. -/
def lineFields (line : Qstring) : List Qstring :=
  (line.split (literal "|") true).map fun field => field.replace (literal "'") (literal "#")

/-- Lines of other kinds are passed over. -/
def parseLine (c : Crawler) (line : Qstring) : Crawler :=
  match lineFields line with
  | [] => c
  | kind :: fields =>
      if operatorEq kind (literal "count") then
        let c := { c with batches := appendCountStats c.batches (kind :: fields) }
        if getNumberOfCountStats c.batches ≥ countStatsBatchCount then batchSendCountStats c else c
      else c

def parseLines (lines : List Qstring) : List (Qstring × Qstring) :=
  let c := lines.foldl parseLine {}
  (if c.batches.size > 0 then batchSendCountStats c else c).sent

def maxCharsInALine : Nat := 1024

def replaceNewlineWithZeroAtTheEnd (str : Qstring) : Qstring :=
  if (cString str).getLast? = some 10 then (cString str).dropLast else cString str

/-- Every line uses up a byte. -/
def fileLines : (rounds : Nat) → Qstring → List Qstring
  | 0, _ => []
  | _, [] => []
  | rounds + 1, file =>
      let (str, rest) := fgets (maxCharsInALine - 1) file
      replaceNewlineWithZeroAtTheEnd str :: fileLines rounds rest

def parseFile (file : Qstring) : List (Qstring × Qstring) := parseLines (fileLines file.length file)

end QstatsCrawler
end Gearsdk
