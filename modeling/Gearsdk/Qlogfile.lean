import Gearsdk.OrderedMap
import Gearsdk.Qstring.Split
import Gearsdk.Str2int

/-! The log file of a session. Files are named by a counter that starts again with
every session; the open one ends in `.tmp`, and is renamed when it has grown past
the limit. Opening and renaming are taken to succeed, so that a session always has
its file. -/
namespace Gearsdk
open Std Qstring

/-- `session` numbers the session that opened the file last. Nothing reads it. -/
structure LogFile where
  content : Qstring := []
  session : Nat := 0
  deriving DecidableEq

/-- What has been done to the files, for reference only. -/
inductive Io where
  | opened (path previous : Qstring)
  | written (record : Qstring)
  | renamed (old new content : Qstring)
  deriving DecidableEq

structure Disk where
  files : TreeMap Qstring LogFile := ∅
  sessions : Nat := 0
  history : List Io := []

namespace Disk

def contentOf (d : Disk) (path : Qstring) : Qstring :=
  ((d.files[path]?).map LogFile.content).getD []

def store (d : Disk) (path content : Qstring) : Disk :=
  { d with files := d.files.insert path { content, session := d.sessions } }

/-- Mode `a`. -/
def fopen (d : Disk) (path : Qstring) : Disk :=
  { d.store path (d.contentOf path) with history := d.history ++ [.opened path (d.contentOf path)] }

def fprintf (d : Disk) (path : Qstring) (records : List Qstring) : Disk :=
  { d.store path (d.contentOf path ++ records.flatten) with
    history := d.history ++ records.map .written }

/-- A file of the new name is replaced. -/
def rename (d : Disk) (old new : Qstring) : Disk :=
  match d.files[old]? with
  | none => d
  | some file =>
      { d with files := (d.files.erase old).insert new file,
               history := d.history ++ [.renamed old new file.content] }

end Disk

structure Qlogfile where
  nextMinorCounter : Nat := 0
  nextMajorVersion : Nat := 0
  currentLogfilePath : Qstring := []
  logfileSize : Nat := 0
  records : List Qstring := []
  recordsWaiting : List Qstring := []

namespace Qlogfile

/-- The callers' paths have no `.tmp`, which would be replaced too. -/
structure Config where
  logfilePath : Qstring
  maxSizeOfFile : Nat
  single : ¬ literal ".tmp" <:+: logfilePath

inductive Fault where
  | endless
  deriving DecidableEq

def minorVersionResetAt : Nat := 100

/-- The record of `log`. Its size has room for nine more characters and the
terminator. -/
def logRecord (utcTimeReadable tag buffer : Qstring) : Qstring :=
  cString utcTimeReadable ++ literal " : [" ++ cString tag ++ literal "] - " ++
    cString buffer ++ [10]

/-- The record of `log_buffer`. The line feed and the terminator have room behind
the buffer. -/
def bufferRecord (buffer : Qstring) : Qstring := cString buffer ++ [10]

def versionPath (cfg : Config) (major minor : Nat) (extension : Qstring) : Qstring :=
  cString cfg.logfilePath ++ 45 :: (unsigned major ++ 45 :: (unsigned minor ++ extension))

def nextVersion (q : Qlogfile) : Qlogfile :=
  if q.nextMinorCounter + 1 ≥ minorVersionResetAt then
    { q with nextMajorVersion := q.nextMajorVersion + 1, nextMinorCounter := 0 }
  else { q with nextMinorCounter := q.nextMinorCounter + 1 }

/-- The search for the next file, with `rounds` left. -/
def probe (cfg : Config) (files : TreeMap Qstring LogFile) :
    (rounds : Nat) → Qlogfile → Except Fault Qlogfile
  | 0, _ => .error .endless
  | rounds + 1, q =>
      let currentLogfilePath :=
        versionPath cfg q.nextMajorVersion q.nextMinorCounter (literal ".tmp")
      let finalizedLogfilePath :=
        versionPath cfg q.nextMajorVersion q.nextMinorCounter (literal ".log")
      let q := { q.nextVersion with currentLogfilePath }
      if (files[currentLogfilePath]?).any (·.content.length < cfg.maxSizeOfFile) then .ok q
      else if files.contains currentLogfilePath || files.contains finalizedLogfilePath then
        probe cfg files rounds q
      else .ok q

def finaliseLogfile (d : Disk) (q : Qlogfile) : Disk :=
  d.rename q.currentLogfilePath (q.currentLogfilePath.replace (literal ".tmp") (literal ".log"))

def createNewLogfile (cfg : Config) (d : Disk) (q : Qlogfile) (finalizePrevFile : Bool) :
    Except Fault (Disk × Qlogfile) :=
  let d := if finalizePrevFile then finaliseLogfile d q else d
  (probe cfg d.files (d.files.size + 1) q).map fun q =>
    (d.fopen q.currentLogfilePath, { q with logfileSize := (d.contentOf q.currentLogfilePath).length })

/-- The part that `log` and `log_buffer` share. -/
def append (q : Qlogfile) (record : Qstring) (locked : Bool) : Qlogfile :=
  if locked then { q with records := q.records ++ q.recordsWaiting ++ [record], recordsWaiting := [] }
  else { q with recordsWaiting := q.recordsWaiting ++ [record] }

def log (q : Qlogfile) (utcTimeReadable tag buffer : Qstring) (locked : Bool) : Qlogfile :=
  q.append (logRecord utcTimeReadable tag buffer) locked

def logBuffer (q : Qlogfile) (buffer : Qstring) (locked : Bool) : Qlogfile :=
  q.append (bufferRecord buffer) locked

def flush (cfg : Config) (d : Disk) (q : Qlogfile) (checkForLogFileSize locked : Bool) :
    Except Fault (Disk × Qlogfile) :=
  if locked then
    let d := d.fprintf q.currentLogfilePath q.records
    let q := { q with logfileSize := q.logfileSize + q.records.flatten.length, records := [] }
    if checkForLogFileSize && q.logfileSize > cfg.maxSizeOfFile then createNewLogfile cfg d q true
      else .ok (d, q)
  else .ok (d, q)

def construct (cfg : Config) (d : Disk) : Except Fault (Disk × Qlogfile) :=
  createNewLogfile cfg { d with sessions := d.sessions + 1 } {} false

/-- The destructor. -/
def destruct (cfg : Config) (d : Disk) (q : Qlogfile) (locked : Bool) : Except Fault Disk :=
  (flush cfg d { q with
    records := q.records ++ q.recordsWaiting, recordsWaiting := [] } false locked).map Prod.fst

end Qlogfile
end Gearsdk
