import Gearsdk.Transition
import Gearsdk.Qlogfile.Names
import Mathlib.Data.List.DropRight

/-! Sessions of the logger, one after the other in the same directory, and the
crawler that moves finalised files out of it. Each call of the logger, and each
move of the crawler, is one step. -/
namespace Gearsdk
open Std Qstring

namespace Fs

def filename (path : Qstring) : Qstring := path.rtakeWhile (· ≠ 47)

/-- With the separator at its end. -/
def parentPath (path : Qstring) : Qstring := path.rdropWhile (· ≠ 47)

/-- A dot at the start of the name does not begin an extension. -/
def extension (path : Qstring) : Qstring :=
  if filename path = literal "." ∨ filename path = literal ".." ∨
    ((filename path).rdropWhile (· ≠ 46)).length ≤ 1 then []
  else 46 :: (filename path).rtakeWhile (· ≠ 46)

end Fs

namespace Qlogfile

/-- The directories that the crawler moves files to. -/
inductive Archive where
  | crawled
  | crawlFailed
  deriving DecidableEq

structure Moved where
  archive : Archive
  name : Qstring
  file : LogFile
  deriving DecidableEq

/-- `pending` is what is left of the crawler's list. -/
structure State where
  disk : Disk := {}
  session : Option Qlogfile := none
  crawled : TreeMap Qstring LogFile := ∅
  crawlFailed : TreeMap Qstring LogFile := ∅
  pending : List Qstring := []
  moved : List Moved := []

def State.archive (s : State) : Archive → TreeMap Qstring LogFile
  | .crawled => s.crawled
  | .crawlFailed => s.crawlFailed

inductive Event where
  | start
  | log (utcTimeReadable tag buffer : Qstring) (locked : Bool)
  | logBuffer (buffer : Qstring) (locked : Bool)
  | flush (checkForLogFileSize locked : Bool)
  | shutdown (locked : Bool)
  | tryCrawl (files : List Qstring)
  | parsed (result : Archive)

/-- An iterator of no directory fails. -/
def getAllLogFiles (cfg : Config) (files : TreeMap Qstring LogFile) : List Qstring :=
  let dir := Fs.parentPath (cString cfg.logfilePath)
  if dir = [] then [] else files.keys.filter fun path => Fs.parentPath path = dir &&
    Fs.extension path = literal ".log"

/-- The move of the next file after it has been parsed. -/
def State.crawlNext (s : State) (result : Archive) : State :=
  match s.pending with
  | [] => s
  | path :: pending =>
      match s.disk.files[path]? with
      | none => { s with pending }
      | some file =>
          let moved := s.moved ++ [{ archive := result, name := Fs.filename path, file }]
          let s := { s with pending, moved, disk := { s.disk with files := s.disk.files.erase path } }
          match result with
          | .crawled => { s with crawled := s.crawled.insert (Fs.filename path) file }
          | .crawlFailed => { s with crawlFailed := s.crawlFailed.insert (Fs.filename path) file }

def State.withLogfile (s : State) (result : Disk × Qlogfile) : State :=
  { s with disk := result.1, session := some result.2 }

def enabled (cfg : Config) (s : State) : Event → Prop
  | .start => s.session = none
  | .tryCrawl files => s.pending = [] ∧ files.Perm (getAllLogFiles cfg s.disk.files)
  | .parsed _ => s.pending ≠ []
  | _ => s.session ≠ none

def step (cfg : Config) (s : State) : Event → Except Fault State
  | .start => (construct cfg s.disk).map s.withLogfile
  | .log utcTimeReadable tag buffer locked =>
      .ok { s with session := s.session.map fun q => q.log utcTimeReadable tag buffer locked }
  | .logBuffer buffer locked =>
    .ok { s with session := s.session.map fun q => q.logBuffer buffer locked }
  | .flush checkForLogFileSize locked =>
      match s.session with
      | none => .ok s
      | some q => (flush cfg s.disk q checkForLogFileSize locked).map s.withLogfile
  | .shutdown locked =>
      match s.session with
      | none => .ok s
      | some q => (destruct cfg s.disk q locked).map fun disk => { s with disk, session := none }
  | .tryCrawl files => .ok { s with pending := files }
  | .parsed result => .ok (s.crawlNext result)

instance (cfg : Config) (s : State) (e : Event) : Decidable (enabled cfg s e) := by
  cases e <;> simp only [enabled] <;> infer_instance

/-- What there is before the first session. -/
structure Directory (cfg : Config) where
  files : TreeMap Qstring LogFile
  exclusive : ∀ n, tmpPath cfg n ∈ files → logPath cfg n ∉ files
  original : ∀ (path : Qstring) (file : LogFile), files[path]? = some file → file.session = 0

def Directory.empty (cfg : Config) : Directory cfg where
  files := ∅
  exclusive _ present := absurd present TreeMap.not_mem_emptyc
  original _ _ found := absurd (found.symm.trans TreeMap.getElem?_emptyc) (by simp)

def sessions (cfg : Config) (directory : Directory cfg) : Transition.Machine State Event Fault where
  init := { disk := { files := directory.files } }
  enabled := enabled cfg
  next := step cfg

instance (cfg : Config) (directory : Directory cfg) (s : State) (e : Event) :
    Decidable ((sessions cfg directory).enabled s e) :=
  inferInstanceAs (Decidable (enabled cfg s e))

/-- The statistics of one port, in files of some limit. -/
def statfile (maxSizeOfFile : Nat) : Config where
  logfilePath := literal "./gstats/4005/q_statfile"
  maxSizeOfFile
  single := by decide +kernel

end Qlogfile
end Gearsdk
