import Gearsdk.Qlogfile
import Gearsdk.Trim

/-! The logger of the servers and the script that reads its files: a file is cut into
records, and these go to the index in bulk requests. Texts are ASCII. -/
namespace Gearsdk
open Qstring

namespace Qcustomlogger

/-- `elog_type` -/
inductive LogType where
  | infoLog | debugLog | warnLog | errorLog
  deriving DecidableEq

/-- `elog_type_string` -/
def LogType.text : LogType → Qstring
  | .infoLog => literal "INFO"
  | .debugLog => literal "DEBUG"
  | .warnLog => literal "WARN"
  | .errorLog => literal "ERROR"

def singleLogRecordLength : Nat := 512

def singleMsgLength : Nat := singleLogRecordLength - 64

structure Call where
  utcTime : Int
  type : LogType
  tag : Qstring
  pid : Option Qstring
  roomid : Option Qstring
  /-- What the format makes of its arguments. -/
  message : Qstring

/-- What `snprintf` leaves of a text in an array of `size`. -/
def fit (size : Nat) (text : Qstring) : Qstring := text.take (size - 1)

def formattedMessage (c : Call) : Qstring := fit singleMsgLength (cString c.message)

def record (c : Call) : Qstring :=
  fit singleLogRecordLength (signed c.utcTime ++ literal "|" ++ c.type.text ++ literal "|" ++
    cString c.tag ++ literal "|" ++
    cString (c.pid.getD []) ++ literal "|" ++ cString (c.roomid.getD []) ++ literal "|" ++
      formattedMessage c)

/-- `log` of an open file. -/
def log (q : Qlogfile) (c : Call) (locked : Bool) : Qlogfile := q.logBuffer (record c) locked

end Qcustomlogger

namespace QlogsCrawler

/-- `str.isspace` -/
def isspace (byte : UInt8) : Bool := Qstring.isspace byte || (28 ≤ byte.toNat && byte.toNat ≤ 31)

def strip (s : Qstring) : Qstring := Trim.trim isspace s

/-- An underscore may stand between two digits. -/
def moreDigits (value : Nat) : Qstring → Option Nat
  | [] => some value
  | 95 :: c :: rest => if isdigit c then moreDigits (10 * value + (c.toNat - 48)) rest else none
  | c :: rest => if isdigit c then moreDigits (10 * value + (c.toNat - 48)) rest else none

def digits : Qstring → Option Nat
  | [] => none
  | c :: rest => if isdigit c then moreDigits (c.toNat - 48) rest else none

/-- `int` of a text without blanks around it. -/
def int : Qstring → Option Int
  | 45 :: rest => (digits rest).map fun n => -(n : Int)
  | 43 :: rest => (digits rest).map fun n => (n : Int)
  | text => (digits text).map fun n => (n : Int)

structure LogData where
  timestamp : Qstring
  level : Qstring
  pid : Qstring
  roomid : Qstring
  message : Qstring
  source : Qstring
  deriving DecidableEq

inductive Bulk where
  | raised
  /-- `items` tells which of them have an error. -/
  | response (errors : Bool) (items : List Bool)

def Bulk.accepted : Bulk → Bool
  | .raised => false
  | .response errors items => !errors && items.all (!·)

structure Services where
  /-- `datetime.datetime.utcfromtimestamp(..).isoformat()`, where it does not raise. -/
  isoformat : Int → Option Qstring
  /-- By the number of the request. -/
  bulk : Nat → Bulk

/-- What `parse_log_record` returns; `raised` is an exception. -/
inductive Parsed where
  | raised
  | nothing
  | data (logData : LogData)

def orDefault (text default : Qstring) : Qstring := if text = [] then default else text

def parseLogRecord (services : Services) (record : Qstring) : Parsed :=
  match record.splitOn 124 with
  | timestamp :: level :: source :: pid :: roomid :: message =>
      match (int (strip timestamp)).bind services.isoformat with
      | none => .raised
      | some isoformat =>
          .data {
            timestamp := isoformat ++ literal "Z"
            level := strip level
            source := strip source
            pid := orDefault (strip pid) (literal "nopid")
            roomid := orDefault (strip roomid) (literal "noroom")
            message := [124].intercalate (message.map strip) }
  | _ => .nothing

/-- Line ends of a file that is read as text. -/
def universalNewlines : Qstring → Qstring
  | [] => []
  | 13 :: 10 :: rest => 10 :: universalNewlines rest
  | 13 :: rest => 10 :: universalNewlines rest
  | c :: rest => c :: universalNewlines rest

/-- Without their line feeds, which `strip` removes. -/
def lines (file : Qstring) : List Qstring :=
  let parts := (universalNewlines file).splitOn 10
  if parts.getLast? = some [] then parts.dropLast else parts

/-- `sent` holds the bodies of the bulk requests. -/
structure Reading where
  sent : List (List LogData) := []
  batch : List LogData := []
  success : Bool := true

/-- `send_batch` and what its caller does with the result. An empty batch is not
sent, and counts as a failure. -/
def Reading.sendBatch (services : Services) (r : Reading) : Reading :=
  if r.batch = [] then { r with success := false }
  else
    { sent := r.sent ++ [r.batch]
      batch := []
      success := r.success && (services.bulk r.sent.length).accepted }

/-- The rest of a line of the loop after the record has been appended. -/
def Reading.sendFull (services : Services) (maxBatchSize : Int) (r : Reading) : Reading :=
  if maxBatchSize ≤ r.batch.length then r.sendBatch services else r

/-- The loop over the lines with what comes after it. -/
def Reading.readLines (services : Services) (maxBatchSize : Int) : Reading → List Qstring → Reading
  | r, [] => if r.batch = [] then r else r.sendBatch services
  | r, line :: rest =>
      match parseLogRecord services (strip line) with
      | .raised => { r with success := false }
      | .nothing => readLines services maxBatchSize (r.sendFull services maxBatchSize) rest
      | .data logData =>
          readLines services maxBatchSize ({ r with
            batch := r.batch ++ [logData] }.sendFull services maxBatchSize) rest

inductive Folder where
  | logged
  | logFailed
  deriving DecidableEq

structure Outcome where
  sent : List (List LogData)
  folder : Folder

def isascii (text : Qstring) : Bool := text.all (· < 128)

theorem isascii_iff {text : Qstring} : isascii text = true ↔ ∀ byte ∈ text, byte < 128 := by
  simp only [isascii, List.all_eq_true, decide_eq_true_eq]

/-- One file of `process_logs`. A text that is not ASCII is left open. -/
def processFile (services : Services) (maxBatchSize : Int) (file : Qstring) : Option Outcome :=
  if isascii file then
    let r := Reading.readLines services maxBatchSize {} (lines file)
    some { sent := r.sent, folder := if r.success then .logged else .logFailed }
  else none

end QlogsCrawler
end Gearsdk
