import Gearsdk.Transition
import Gearsdk.Qlogfile
import Mathlib.Algebra.GroupWithZero.Nat
import Mathlib.Data.List.TakeDrop

/-! The queue of a log file, with the memory of its records. Each call is one step
that finds the mutex free or not. The C library's functions are taken as the C
standard describes them, without failing at more than `INT_MAX` bytes, and every
write as done. -/
namespace Gearsdk.LogQueue
open Qstring Qlogfile Transition

/-- What `data` holds before its terminator. -/
structure Record where
  data : Qstring
  index : Nat
  deriving DecidableEq

/-- The characters that do not fit are left out, as is one for the terminator. -/
def snprintf (size : Nat) (text : Qstring) : Qstring := text.take (size - 1)

/-- The conversion of a size to `int`. -/
def toInt (size : Int) : Int := size.bmod (2 ^ 32)

/-- The format `%.*s`. A negative precision is taken as none. -/
def Record.printed (record : Record) : Qstring :=
  if toInt record.index < 0 then record.data else record.data.take (toInt record.index).toNat

/-- The calls that log. The callers hand over the length of the buffer with it. -/
inductive Call where
  | log (utcTimeReadable tag buffer : Qstring)
  | logBuffer (buffer : Qstring)
  deriving DecidableEq

namespace Call

/-- The record as the format describes it. -/
def text : Call → Qstring
  | .log utcTimeReadable tag buffer => logRecord utcTimeReadable tag buffer
  | .logBuffer buffer => bufferRecord buffer

def totalRecordSz : Call → Nat
  | .log utcTimeReadable tag buffer =>
    utcTimeReadable.length + 10 + (cString tag).length + buffer.length
  | .logBuffer buffer => buffer.length + 2

def Clean : Call → Prop
  | .log utcTimeReadable tag buffer => Qstring.Clean utcTimeReadable ∧ Qstring.Clean tag ∧
    Qstring.Clean buffer
  | .logBuffer buffer => Qstring.Clean buffer

def record (call : Call) : Record where
  data := snprintf call.totalRecordSz call.text
  index := call.totalRecordSz

end Call

/-- `closed` and `current` are the bytes written to the files so far, `accepted` the
calls that did not return -1, and `destroyed` what the destructor's flush returned. -/
structure State where
  fp : Bool
  logfileSize : Nat
  records : List Record := []
  recordsWaiting : List Record := []
  closed : List Qstring := []
  current : Qstring := []
  accepted : List Call := []
  destroyed : Option Int := none
  deriving DecidableEq

namespace State

/-- The bytes of all files, in the order in which they were written. -/
def written (s : State) : Qstring := s.closed.flatten ++ s.current

/-- The pending records are moved by a call that has the mutex. -/
def movePending (s : State) (locked : Bool) : State :=
  if locked then { s with records := s.records ++ s.recordsWaiting, recordsWaiting := [] } else s

def createNewRecord (s : State) (call : Call) (locked : Bool) : State :=
  if locked then { s with records := s.records ++ [call.record] }
  else { s with recordsWaiting := s.recordsWaiting ++ [call.record] }

/-- The part that `log` and `log_buffer` share. -/
def append (s : State) (call : Call) (locked : Bool) : State :=
  if s.fp then { (s.movePending locked).createNewRecord call locked with
    accepted := s.accepted ++ [call] }
  else s.movePending locked

def log (s : State) (utcTimeReadable tag buffer : Qstring) (locked : Bool) : State :=
  s.append (.log utcTimeReadable tag buffer) locked

def logBuffer (s : State) (buffer : Qstring) (locked : Bool) : State :=
  s.append (.logBuffer buffer) locked

/-- `reopened` is the size of the file that `fopen` opens, if it does. -/
def createNewLogfile (s : State) (reopened : Option Nat) : State :=
  { s with
    closed := s.closed ++ [s.current], current := [], fp := reopened.isSome,
    logfileSize := reopened.getD s.logfileSize }

/-- A negative number is not added to the size. -/
def bytesWritten (record : Record) : Nat :=
  if record.printed.length < 2 ^ 31 then record.printed.length else 0

/-- The loop over the records. -/
def printRecords (s : State) : State :=
  { s with
    current := s.current ++ (s.records.map Record.printed).flatten,
    logfileSize := s.logfileSize + (s.records.map bytesWritten).sum, records := [] }

def flush (maxSizeOfFile : Nat) (s : State) (checkForLogFileSize locked : Bool)
    (reopened : Option Nat) : Int × State :=
  if !locked then (-2, s)
  else if !s.fp then (-1, s)
  else
    let flushedCnt := toInt s.records.length
    let s := s.printRecords
    if checkForLogFileSize && s.logfileSize > maxSizeOfFile then (flushedCnt,
      s.createNewLogfile reopened) else (flushedCnt, s)

/-- The destructor. The waiting records stay in their list as well. -/
def destruct (maxSizeOfFile : Nat) (s : State) (locked : Bool) : State :=
  let (flushResult, s) :=
    flush maxSizeOfFile { s with records := s.records ++ s.recordsWaiting } false locked none
  { s with destroyed := some flushResult }

end State

inductive Event where
  | log (utcTimeReadable tag buffer : Qstring) (locked : Bool)
  | logBuffer (buffer : Qstring) (locked : Bool)
  | flush (checkForLogFileSize locked : Bool) (reopened : Option Nat)
  | destruct (locked : Bool)

def Event.call : Event → Option Call
  | .log utcTimeReadable tag buffer _ => some (.log utcTimeReadable tag buffer)
  | .logBuffer buffer _ => some (.logBuffer buffer)
  | _ => none

def enabled (s : State) (e : Event) : Prop := s.destroyed = none ∧ ∀ call ∈ e.call, call.Clean

def step (maxSizeOfFile : Nat) (s : State) : Event → State
  | .log utcTimeReadable tag buffer locked => s.log utcTimeReadable tag buffer locked
  | .logBuffer buffer locked => s.logBuffer buffer locked
  | .flush checkForLogFileSize locked reopened =>
    (s.flush maxSizeOfFile checkForLogFileSize locked reopened).2
  | .destruct locked => s.destruct maxSizeOfFile locked

/-- A log file that has opened a file of some size. -/
def qlogfile (maxSizeOfFile logfileSize : Nat) : Machine State Event Empty where
  init := { fp := true, logfileSize }
  enabled := enabled
  next s e := .ok (step maxSizeOfFile s e)

variable {maxSizeOfFile initialSize : Nat}

/-- The sizes that `int` keeps, or that leave the format without a precision. -/
def Kept (size : Nat) : Prop := size < 2 ^ 31 ∨ 2 ^ 31 ≤ size % 2 ^ 32

instance (size : Nat) : Decidable (Kept size) := inferInstanceAs (Decidable (_ ∨ _))

theorem toInt_nonneg_iff (size : Nat) : 0 ≤ toInt size ↔ size % 2 ^ 32 < 2 ^ 31 := by
  rw [toInt, Int.bmod_def]
  split <;> omega

theorem toInt_toNat (size : Nat) (nonneg : 0 ≤ toInt size) :
    (toInt size).toNat = size % 2 ^ 32 := by
  have low := (toInt_nonneg_iff size).mp nonneg
  rw [toInt, Int.bmod_def, if_pos (by omega)]
  omega

namespace Call

theorem length_separators : (literal " : [").length = 4 ∧ (literal "] - ").length = 4 := by
  decide +kernel

theorem length_text {call : Call} (clean : call.Clean) :
    call.totalRecordSz = call.text.length + 1 := by
  cases call with
  | log utcTimeReadable tag buffer =>
    obtain ⟨time, _, message⟩ := clean
    simp only [totalRecordSz, text, logRecord, cString_of_nul_free time,
      cString_of_nul_free message, List.length_append, List.length_singleton, length_separators.1,
      length_separators.2]
    omega
  | logBuffer buffer =>
    simp only [totalRecordSz, text, bufferRecord, cString_of_nul_free clean, List.length_append,
      List.length_singleton]

/-- The size has room for the whole record. -/
theorem record_data (clean : Clean call) : call.record.data = call.text := by
  simp only [record, snprintf, length_text clean, Nat.add_sub_cancel, List.take_length]

theorem printed_prefix (clean : Clean call) : call.record.printed <+: call.text := by
  rw [Record.printed, record_data clean]
  split
  · exact List.prefix_refl _
  · exact List.take_prefix _ _

/-- Only the conversion of its size can cut a record. -/
theorem printed_iff (clean : Clean call) :
    call.record.printed = call.text ↔ Kept call.totalRecordSz := by
  have size : call.record.index = call.text.length + 1 := length_text clean
  rw [Record.printed, record_data clean, length_text clean, size, Kept]
  split
  · rename_i negative
    have high := mt (toInt_nonneg_iff _).mpr (Int.not_le.mpr negative)
    simp only [true_iff]
    omega
  · rename_i nonneg
    have low := (toInt_nonneg_iff _).mp (Int.not_lt.mp nonneg)
    rw [toInt_toNat _ (Int.not_lt.mp nonneg), List.take_eq_self_iff]
    omega

end Call

theorem length_flatten_le {f g : α → List β} {items : List α}
    (shorter : ∀ item ∈ items, f item <+: g item) :
    (items.map f).flatten.length ≤ (items.map g).flatten.length := by
  induction items with
  | nil => exact Nat.le_refl _
  | cons item items ih =>
    have first := (shorter item List.mem_cons_self).length_le
    have rest := ih fun other member => shorter other (List.mem_cons_of_mem _ member)
    simp only [List.map_cons, List.flatten_cons, List.length_append]
    omega

/-- Nothing makes up for a part that is cut. -/
theorem flatten_eq_iff {f g : α → List β} {items : List α}
    (shorter : ∀ item ∈ items, f item <+: g item) :
    (items.map f).flatten = (items.map g).flatten ↔ ∀ item ∈ items, f item = g item := by
  constructor
  · intro same
    induction items with
    | nil => exact fun item member => absurd member List.not_mem_nil
    | cons item items ih =>
      have later : ∀ other ∈ items, f other <+: g other :=
        fun other member => shorter other (List.mem_cons_of_mem _ member)
      have total := congrArg List.length same
      simp only [List.map_cons, List.flatten_cons, List.length_append] at same total
      have first := shorter item List.mem_cons_self
      have whole : f item = g item :=
        first.eq_of_length_le (by have := length_flatten_le later; omega)
      rw [whole] at same
      rintro other (_ | ⟨_, member⟩)
      · exact whole
      · exact ih later (List.append_cancel_left same) other member
  · intro same
    rw [List.map_congr_left same]

namespace State

/-- What the queue is without the memory. -/
def queue (s : State) : Qlogfile where
  logfileSize := s.logfileSize
  records := s.records.map Record.printed
  recordsWaiting := s.recordsWaiting.map Record.printed

/-- The records that are not written yet. -/
def pending (s : State) : List Qstring := s.queue.records ++ s.queue.recordsWaiting

theorem queue_append (s : State) (call : Call) (locked : Bool) (opened : s.fp = true) :
    (s.append call locked).queue = s.queue.append call.record.printed locked := by
  rw [append, if_pos opened]
  cases locked with
  | false => simp [movePending, createNewRecord, queue, Qlogfile.append]
  | true => simp [movePending, createNewRecord, queue, Qlogfile.append]

/-- The records are whole in the queue where their sizes are kept. -/
theorem queue_append_kept (s : State) (locked : Bool) (opened : s.fp = true)
    (clean : Call.Clean call) (kept : Kept call.totalRecordSz) :
    (s.append call locked).queue = s.queue.append call.text locked := by
  rw [queue_append s call locked opened, (Call.printed_iff clean).mpr kept]

/-- A call changes neither the files nor what is accepted when no file is open, and
adds its record to both the queue and the account otherwise. -/
theorem append_cases (s : State) (call : Call) (locked : Bool) :
    (s.append call locked).written = s.written ∧ (s.append call locked).destroyed = s.destroyed ∧
      ((s.fp = true ∧ (s.append call locked).accepted = s.accepted ++ [call] ∧
          (s.append call locked).pending = s.pending ++ [call.record.printed]) ∨
        (s.fp = false ∧ (s.append call locked).accepted = s.accepted ∧
          (s.append call locked).pending = s.pending)) := by
  cases opened : s.fp with
  | false =>
    rw [append, opened]
    cases locked <;> simp [movePending, written, pending, queue]
  | true =>
    have queued := queue_append s call locked opened
    simp only [pending, queued]
    rw [append, opened]
    cases locked <;> simp [movePending, createNewRecord, written, queue, Qlogfile.append]

theorem written_printRecords (s : State) :
    s.printRecords.written = s.written ++ s.queue.records.flatten := by
  rw [written, written, List.append_assoc]
  rfl

theorem written_createNewLogfile (s : State) (reopened : Option Nat) :
    (s.createNewLogfile reopened).written = s.written := by
  simp [written, createNewLogfile]

/-- What a flush leaves. -/
structure Flushed (s t : State) : Prop where
  written : t.written = s.written ++ s.queue.records.flatten
  pending : t.pending = s.queue.recordsWaiting
  accepted : t.accepted = s.accepted
  destroyed : t.destroyed = s.destroyed

theorem Flushed.createNewLogfile (flushed : Flushed s t) (reopened : Option Nat) :
    Flushed s (t.createNewLogfile reopened) where
  written := (written_createNewLogfile t reopened).trans flushed.written
  pending := flushed.pending
  accepted := flushed.accepted
  destroyed := flushed.destroyed

theorem flushed_printRecords (s : State) : Flushed s s.printRecords where
  written := written_printRecords s
  pending := rfl
  accepted := rfl
  destroyed := rfl

theorem flush_cases (maxSizeOfFile : Nat) (s : State) (check locked : Bool)
    (reopened : Option Nat) :
    ((s.flush maxSizeOfFile check locked reopened).1 < 0 ∧
      (s.flush maxSizeOfFile check locked reopened).2 = s) ∨
      (locked = true ∧ s.fp = true ∧ Flushed s (s.flush maxSizeOfFile check locked reopened).2) := by
  rw [flush]
  cases locked with
  | false => exact .inl ⟨(by decide : (-2 : Int) < 0), rfl⟩
  | true =>
    cases opened : s.fp with
    | false => exact .inl ⟨(by decide : (-1 : Int) < 0), rfl⟩
    | true =>
      refine .inr ⟨rfl, rfl, ?_⟩
      simp only [Bool.not_true, Bool.false_eq_true, if_false]
      split
      · exact (flushed_printRecords s).createNewLogfile reopened
      · exact flushed_printRecords s

/-- The records that the accepted calls have made, as they are printed. -/
def printedCalls (s : State) : List Qstring := s.accepted.map fun call => call.record.printed

/-- Every accepted call has its record in the files or in the queue, in the order of
the calls, until the queue is given up. -/
structure Accounted (s : State) : Prop where
  clean : ∀ call ∈ s.accepted, call.Clean
  queued : s.destroyed = none → s.written ++ s.pending.flatten = s.printedCalls.flatten
  delivered : ∀ flushResult, s.destroyed = some flushResult → 0 ≤ flushResult →
    s.written = s.printedCalls.flatten

theorem Accounted.append (accounted : Accounted s) (alive : s.destroyed = none)
    (clean : Call.Clean call) (locked : Bool) :
    Accounted (s.append call locked) := by
  obtain ⟨written, destroyed, ⟨-, accepted, pending⟩ | ⟨-, accepted, pending⟩⟩ :=
    append_cases s call locked
  · refine ⟨?_, ?_, ?_⟩
    · intro other member
      rw [accepted, List.mem_append, List.mem_singleton] at member
      rcases member with before | rfl
      · exact accounted.clean other before
      · exact clean
    · intro _
      rw [written, pending, List.flatten_append, ← List.append_assoc, accounted.queued alive,
        printedCalls, printedCalls, accepted, List.map_append, List.flatten_append]
      rfl
    · intro flushResult dead
      exact absurd (alive.symm.trans (destroyed.symm.trans dead)) (by simp)
  · refine ⟨fun other member => accounted.clean other (accepted ▸ member), ?_, ?_⟩
    · intro _
      rw [written, pending, accounted.queued alive, printedCalls, printedCalls, accepted]
    · intro flushResult dead
      exact absurd (alive.symm.trans (destroyed.symm.trans dead)) (by simp)

theorem Flushed.accounted (flushed : Flushed s t) (accounted : Accounted s)
    (alive : s.destroyed = none) : Accounted t := by
  refine ⟨fun call member => accounted.clean call (flushed.accepted ▸ member), ?_, ?_⟩
  · intro _
    rw [flushed.written, flushed.pending, printedCalls, flushed.accepted, List.append_assoc,
      ← List.flatten_append]
    exact accounted.queued alive
  · intro flushResult dead
    exact absurd (alive.symm.trans (flushed.destroyed.symm.trans dead)) (by simp)

theorem Accounted.flush (accounted : Accounted s) (alive : s.destroyed = none) (maxSizeOfFile : Nat)
    (check locked : Bool) (reopened : Option Nat) :
    Accounted (s.flush maxSizeOfFile check locked reopened).2 := by
  rcases flush_cases maxSizeOfFile s check locked reopened with ⟨-, same⟩ | ⟨-, -, flushed⟩
  · rw [same]
    exact accounted
  · exact flushed.accounted accounted alive

/-- The flush of the destructor finds every record in the one list. -/
theorem Accounted.destruct (accounted : Accounted s) (alive : s.destroyed = none)
    (maxSizeOfFile : Nat) (locked : Bool) :
    Accounted (s.destruct maxSizeOfFile locked) := by
  let moved : State := { s with records := s.records ++ s.recordsWaiting }
  have whole : moved.queue.records = s.pending := List.map_append
  refine ⟨?_, ?_, ?_⟩
  · rcases flush_cases maxSizeOfFile moved false locked none with ⟨-, same⟩ | ⟨-, -, flushed⟩
    · exact fun call member => accounted.clean call ((congrArg accepted same) ▸ member)
    · exact fun call member => accounted.clean call (flushed.accepted ▸ member)
  · intro dead
    exact absurd dead (by simp [State.destruct])
  · intro flushResult result succeeded
    have returned : (moved.flush maxSizeOfFile false locked none).1 = flushResult :=
      Option.some.inj result
    rcases flush_cases maxSizeOfFile moved false locked none with ⟨negative, -⟩ | ⟨-, -, flushed⟩
    · omega
    · have all : moved.written ++ moved.queue.records.flatten = s.printedCalls.flatten := by
        rw [whole]
        exact accounted.queued alive
      have printed : s.printedCalls = (moved.flush maxSizeOfFile false locked none).2.printedCalls := by
        rw [printedCalls, printedCalls, flushed.accepted]
      exact (flushed.written.trans all).trans (congrArg List.flatten printed)

theorem Accounted.step (accounted : Accounted s)
    (stepped : (qlogfile maxSizeOfFile initialSize).Step s e t) : Accounted t := by
  obtain ⟨⟨alive, clean⟩, ok⟩ := stepped
  cases Except.ok.inj ok
  cases e with
  | log utcTimeReadable tag buffer locked => exact accounted.append alive (clean _ rfl) locked
  | logBuffer buffer locked => exact accounted.append alive (clean _ rfl) locked
  | flush check locked reopened => exact accounted.flush alive maxSizeOfFile check locked reopened
  | destruct locked => exact accounted.destruct alive maxSizeOfFile locked

theorem accounted_of_run (run : (qlogfile maxSizeOfFile initialSize).Run es s) : Accounted s := by
  refine run.invariant Accounted.step ⟨?_, ?_, ?_⟩
  · exact fun call member => absurd member List.not_mem_nil
  · exact fun _ => rfl
  · exact fun flushResult dead => absurd dead (by simp [qlogfile])

theorem fp_append (s : State) (call : Call) (locked : Bool) : (s.append call locked).fp = s.fp := by
  rw [append]
  cases locked <;> split <;> rfl

theorem fp_flush {s : State} (opened : s.fp = true) (opens : check = true → reopened ≠ none)
    (maxSizeOfFile : Nat) (locked : Bool) :
    (s.flush maxSizeOfFile check locked reopened).2.fp = true := by
  rw [flush, opened]
  cases locked with
  | false => exact opened
  | true =>
    simp only [Bool.not_true, Bool.false_eq_true, if_false]
    split
    · rename_i large
      exact Option.isSome_iff_ne_none.mpr (opens (Bool.and_eq_true_iff.mp large).1)
    · exact opened

theorem accepted_flush (s : State) (maxSizeOfFile : Nat) (check locked : Bool)
    (reopened : Option Nat) :
    (s.flush maxSizeOfFile check locked reopened).2.accepted = s.accepted := by
  rcases flush_cases maxSizeOfFile s check locked reopened with ⟨-, same⟩ | ⟨-, -, flushed⟩
  · rw [same]
  · exact flushed.accepted

theorem accepted_append {s : State} (opened : s.fp = true) (call : Call) (locked : Bool) :
    (s.append call locked).accepted = s.accepted ++ [call] := by
  rcases append_cases s call locked with ⟨-, -, ⟨-, accepted, -⟩ | ⟨absent, -, -⟩⟩
  · exact accepted
  · rw [opened] at absent
    contradiction

/-- Where every file opens, a step accepts its call. -/
theorem accepted_step {s : State} (opened : s.fp = true)
    (opens : ∀ check locked, e ≠ .flush check locked none) (maxSizeOfFile : Nat) :
    (LogQueue.step maxSizeOfFile s e).fp = true ∧
      (LogQueue.step maxSizeOfFile s e).accepted = s.accepted ++ e.call.toList := by
  cases e with
  | log utcTimeReadable tag buffer locked =>
    exact ⟨(fp_append s _ locked).trans opened, accepted_append opened _ locked⟩
  | logBuffer buffer locked =>
    exact ⟨(fp_append s _ locked).trans opened, accepted_append opened _ locked⟩
  | flush check locked reopened =>
    have present : reopened ≠ none :=
      fun absent => opens check locked (congrArg (Event.flush check locked) absent)
    exact ⟨fp_flush opened (fun _ => present) maxSizeOfFile locked,
      (accepted_flush s maxSizeOfFile check locked reopened).trans (List.append_nil _).symm⟩
  | destruct locked =>
    let moved : State := { s with records := s.records ++ s.recordsWaiting }
    have ready : moved.fp = true := opened
    have kept : (moved.flush maxSizeOfFile false locked none).2.fp = true :=
      fp_flush ready (fun check => absurd check Bool.false_ne_true) maxSizeOfFile locked
    exact ⟨kept, (accepted_flush _ maxSizeOfFile false locked none).trans (List.append_nil _).symm⟩

/-- As long as every file opens, every call is accepted. -/
theorem accepted_of_opened (run : (qlogfile maxSizeOfFile initialSize).Run es s)
    (opens : ∀ check locked, Event.flush check locked none ∉ es) :
    s.accepted = es.filterMap Event.call := by
  refine (Machine.Run.induction (P := fun es s => (∀ check locked, Event.flush check locked none ∉ es) →
    s.fp = true ∧ s.accepted = es.filterMap Event.call) (fun _ => ⟨rfl, rfl⟩) ?_ run opens).2
  intro es s e t _ ih stepped opens
  obtain ⟨opened, accepted⟩ :=
    ih fun check locked member => opens check locked (List.mem_append_left _ member)
  have now : ∀ check locked, e ≠ .flush check locked none := by
    rintro check locked rfl
    exact opens check locked (List.mem_append_right _ List.mem_cons_self)
  cases Except.ok.inj stepped.2
  obtain ⟨stays, logged⟩ := accepted_step opened now maxSizeOfFile
  refine ⟨stays, ?_⟩
  rw [logged, accepted, List.filterMap_append, List.filterMap_cons, List.filterMap_nil]
  cases e.call <;> rfl

end State

/-- Once the destructor has flushed, the files hold the records of the accepted calls in their
order and nothing else, just when the size of each is kept. -/
theorem delivered_iff (run : (qlogfile maxSizeOfFile initialSize).Run es s)
    (destroyed : s.destroyed = some flushResult) (succeeded : 0 ≤ flushResult) :
    s.written = (s.accepted.map Call.text).flatten ↔
      ∀ call ∈ s.accepted, Kept call.totalRecordSz := by
  have accounted := State.accounted_of_run run
  rw [accounted.delivered flushResult destroyed succeeded, State.printedCalls,
    flatten_eq_iff fun call member => Call.printed_prefix (accounted.clean call member)]
  exact forall₂_congr fun call member => Call.printed_iff (accounted.clean call member)

instance : (call : Call) → Decidable call.Clean
  | .log utcTimeReadable tag buffer =>
      inferInstanceAs (Decidable (Qstring.Clean utcTimeReadable ∧ Qstring.Clean tag ∧
        Qstring.Clean buffer))
  | .logBuffer buffer => inferInstanceAs (Decidable (Qstring.Clean buffer))

instance (s : State) (e : Event) : Decidable (enabled s e) :=
  inferInstanceAs (Decidable (s.destroyed = none ∧ ∀ call ∈ e.call, call.Clean))

instance (maxSizeOfFile logfileSize : Nat) (s : State) (e : Event) :
    Decidable ((qlogfile maxSizeOfFile logfileSize).enabled s e) :=
  inferInstanceAs (Decidable (enabled s e))

/-- The mutex is missed by calls that log and by a flush. -/
def missedLocks : List Event :=
  [.logBuffer [97] true, .log [49] [98] [99] false, .flush true false none,
    .flush true true (some 0), .logBuffer [100] true, .logBuffer [101] false, .destruct true]

theorem missed_locks_delivered : ∃ s, (qlogfile 1 0).Run missedLocks s ∧ s.destroyed = some 3 ∧
    s.written = (s.accepted.map Call.text).flatten := by
  have shown :
      ((qlogfile 1 0).exec (qlogfile 1 0).init missedLocks).map
        (fun s => (s.destroyed, s.accepted)) =
      some (some 3, [.logBuffer [97], .log [49] [98] [99], .logBuffer [100],
        .logBuffer [101]]) := by decide +kernel
  obtain ⟨s, run, observed⟩ := Machine.exec_observe shown
  obtain ⟨destroyed, accepted⟩ := Prod.mk.inj observed
  refine ⟨s, run, destroyed, (delivered_iff run destroyed (by decide)).mpr ?_⟩
  rw [accepted]
  decide +kernel

/-- A message of 2^32 - 2 bytes. -/
def overlong : Qstring := List.replicate (2 ^ 32 - 2) 97

/-- The conversion makes nothing of a size that is a multiple of 2^32. -/
theorem printed_multiple {call : Call} (multiple : toInt call.totalRecordSz = 0) :
    call.record.printed = [] := by
  have index : toInt call.record.index = 0 := multiple
  rw [Record.printed, index]
  rfl

theorem overlong_record_lost :
    ∃ s, (qlogfile 262144 0).Run [.logBuffer overlong true, .destruct true] s ∧
    s.destroyed = some 1 ∧ s.accepted = [.logBuffer overlong] ∧
      s.written ≠ (s.accepted.map Call.text).flatten := by
  have clean : Clean overlong := by
    intro byte member
    rw [List.eq_of_mem_replicate member]
    decide
  have size : toInt (Call.logBuffer overlong).totalRecordSz = 0 := by
    rw [Call.totalRecordSz, overlong, List.length_replicate]
    decide
  let logged : State := State.logBuffer { fp := true, logfileSize := 0 } overlong true
  have first : (qlogfile 262144 0).Step (qlogfile 262144 0).init (.logBuffer overlong true) logged := by
    refine ⟨⟨rfl, ?_⟩, rfl⟩
    intro call logs
    cases logs
    exact clean
  have last : (qlogfile 262144 0).Step logged (.destruct true) (logged.destruct 262144 true) :=
    ⟨⟨rfl, fun call logs => absurd logs (by simp [Event.call])⟩, rfl⟩
  have run := (Machine.Reaches.single first).step last
  have destroyed : (logged.destruct 262144 true).destroyed = some (toInt 1) := rfl
  have one : toInt 1 = 1 := by decide
  rw [one] at destroyed
  refine ⟨_, run, destroyed, rfl, ?_⟩
  rw [(State.accounted_of_run run).delivered 1 destroyed (by decide)]
  have accepted : (logged.destruct 262144 true).accepted = [.logBuffer overlong] := rfl
  have nothing : (logged.destruct 262144 true).printedCalls = [[]] :=
    congrArg (fun printed => [printed]) (printed_multiple size)
  rw [nothing, accepted]
  exact fun same => absurd (congrArg List.getLast? same) (by simp [Call.text, bufferRecord])

end Gearsdk.LogQueue
