import Gearsdk.QlogsCrawler.Files

/-! The way of a record from the logger through its file into the index. -/
namespace Gearsdk
open Qstring

namespace QlogsCrawler

/-! ### Numbers -/

theorem moreDigits_eq {text : Qstring} (all : ∀ byte ∈ text, isdigit byte = true) (value : Nat) :
    moreDigits value text = some (Strtol.accumulate value text).1 := by
  induction text generalizing value with
  | nil => rfl
  | cons c rest ih =>
    obtain ⟨digit, later⟩ := List.forall_mem_cons.mp all
    have other : c ≠ 95 := by
      rintro rfl
      revert digit
      decide
    have step : moreDigits value (c :: rest) = moreDigits (10 * value + (c.toNat - 48)) rest := by
      cases rest with
      | nil => simp only [moreDigits, digit, if_true]
      | cons d rest =>
        rw [moreDigits, if_pos digit]
        exact fun _ _ same _ => other same
    rw [step, ih later, Strtol.accumulate, if_pos digit]

theorem digits_unsigned (n : Nat) : digits (unsigned n) = some n := by
  have read := Strtol.accumulate_unsigned n
  have all := unsigned_digits n
  obtain ⟨c, rest, shape⟩ := List.exists_cons_of_ne_nil (unsigned_ne_nil n)
  rw [shape] at read all ⊢
  obtain ⟨digit, later⟩ := List.forall_mem_cons.mp all
  rw [digits, if_pos digit, moreDigits_eq later]
  rw [Strtol.accumulate, if_pos digit, Nat.mul_zero, Nat.zero_add] at read
  rw [read]

/-- The script reads the time that the logger prints. -/
theorem int_signed (n : Int) : int (signed n) = some n := by
  cases n with
  | ofNat n =>
    have plain : int (unsigned n) = (digits (unsigned n)).map fun m => (m : Int) := by
      have all := unsigned_digits n
      unfold int
      split
      · rename_i shape
        exact absurd (all 45 (shape ▸ List.mem_cons_self)) (by decide)
      · rename_i shape
        exact absurd (all 43 (shape ▸ List.mem_cons_self)) (by decide)
      · rfl
    rw [signed, plain, digits_unsigned]
    rfl
  | negSucc n =>
    rw [signed, int, digits_unsigned]
    rfl

theorem mem_signed {n : Int} {byte : UInt8} (inside : byte ∈ signed n) :
    byte = 45 ∨ isdigit byte = true := by
  cases n with
  | ofNat n => exact .inr (unsigned_digits n byte inside)
  | negSucc n =>
    exact (List.mem_cons.mp inside).imp id fun later => unsigned_digits (n + 1) byte later

/-- Neither a blank nor a separator stands in a number. -/
theorem solid_signed {n : Int} {byte : UInt8} (inside : byte ∈ signed n) :
    isspace byte = false ∧ byte ≠ 124 ∧ byte ≠ 10 ∧ byte ≠ 13 ∧ byte < 128 := by
  rcases mem_signed inside with rfl | digit
  · decide
  · have bounds := isdigit_bounds digit
    refine ⟨?_, ?_, ?_, ?_, ?_⟩
    · rw [isspace, isspace_of_digit digit, Bool.false_or, Bool.and_eq_false_iff,
        decide_eq_false_iff_not, decide_eq_false_iff_not]
      omega
    · rintro rfl
      exact absurd digit (by decide)
    · rintro rfl
      exact absurd digit (by decide)
    · rintro rfl
      exact absurd digit (by decide)
    · rw [UInt8.lt_iff_toNat_lt]
      exact Nat.lt_of_le_of_lt bounds.2 (by decide)

theorem strip_signed (n : Int) : strip (signed n) = signed n := by
  refine Trim.trim_eq_self_iff.mpr ⟨fun byte first => ?_, fun byte last => ?_⟩
  · exact (solid_signed (List.mem_of_mem_head? first)).1
  · exact (solid_signed (List.mem_of_mem_getLast? last)).1

/-! ### Lines -/

theorem universalNewlines_eq {file : Qstring} (absent : 13 ∉ file) :
    universalNewlines file = file := by
  induction file with
  | nil => rfl
  | cons c rest ih =>
    rw [List.mem_cons, not_or] at absent
    rw [universalNewlines, ih absent.2]
    · exact fun _ same _ => absent.1 same.symm
    · exact fun same => absent.1 same.symm

/-- A file of lines is read line by line. -/
theorem splitOn_lines {records : List Qstring}
    (single : ∀ record ∈ records, (10 : UInt8) ∉ record) :
    (records.flatMap fun record => record ++ [10]).splitOn (10 : UInt8) = records ++ [[]] := by
  induction records with
  | nil => rfl
  | cons record rest ih =>
    obtain ⟨here, later⟩ := List.forall_mem_cons.mp single
    rw [List.flatMap_cons, List.append_assoc, List.singleton_append,
      List.splitOn_append_cons_self_of_not_mem here, ih later, List.cons_append]

theorem lines_records {records : List Qstring} (single : ∀ record ∈ records, (10 : UInt8) ∉ record)
    (noReturn : ∀ record ∈ records, (13 : UInt8) ∉ record) :
    lines (records.flatMap fun record => record ++ [10]) = records := by
  have absent : (13 : UInt8) ∉ records.flatMap fun record => record ++ [10] := by
    intro inside
    obtain ⟨record, member, within⟩ := List.mem_flatMap.mp inside
    rcases List.mem_append.mp within with here | last
    · exact noReturn record member here
    · exact absurd (List.mem_singleton.mp last) (by decide)
  rw [lines, universalNewlines_eq absent, splitOn_lines single]
  simp only [List.getLast?_append, List.getLast?_singleton, Option.some_or, if_true,
    List.dropLast_concat]

theorem map_strip_splitOn (s : Qstring) :
    ((s.rdropWhile isspace).splitOn (124 : UInt8)).map strip = (s.splitOn 124).map strip := by
  induction size : s.length using Nat.strongRecOn generalizing s with
  | ind size' ih =>
    subst size
    by_cases inside : (124 : UInt8) ∈ s
    · obtain ⟨before, after, rfl, absent⟩ := List.eq_append_cons_of_mem inside
      have shorter : after.length < (before ++ 124 :: after).length := by
        rw [List.length_append, List.length_cons]
        omega
      have solid : isspace 124 = false := rfl
      rw [Trim.rdropWhile_append_cons solid, List.splitOn_append_cons_self_of_not_mem absent,
        List.splitOn_append_cons_self_of_not_mem absent, List.map_cons, List.map_cons,
        ih _ shorter after rfl]
    · have absent : (124 : UInt8) ∉ s.rdropWhile isspace :=
        fun within => inside (List.rdropWhile_prefix _ _ |>.subset within)
      rw [List.splitOn_eq_singleton absent, List.splitOn_eq_singleton inside, List.map_singleton,
        List.map_singleton, strip, strip, Trim.trim_rdropWhile fun _ same => same]

end QlogsCrawler

namespace Qcustomlogger
open QlogsCrawler

/-! ### Calls -/

/-- What the caller chooses besides the message. -/
def texts (c : Call) : List Qstring :=
  [cString c.tag, cString (c.pid.getD []), cString (c.roomid.getD [])]

def front (c : Call) : Qstring :=
  signed c.utcTime ++
    124 :: (c.type.text ++ 124 :: (cString c.tag ++ 124 :: (cString (c.pid.getD []) ++ 124 ::
    cString (c.roomid.getD []))))

/-- A call whose record fits into its buffer and is one line of ASCII, with bars in
the message only. -/
structure Call.Plain (c : Call) : Prop where
  separate : ∀ text ∈ texts c, 124 ∉ text
  printable : ∀ text ∈ texts c ++ [formattedMessage c], ∀ byte ∈ text, byte ≠ 10 ∧ byte ≠ 13 ∧
    byte < 128
  fits : (front c ++ 124 :: formattedMessage c).length < singleLogRecordLength

variable {c : Call}

theorem record_eq (plain : c.Plain) : record c = front c ++ 124 :: formattedMessage c := by
  have fits := plain.fits
  have bar : literal "|" = [124] := rfl
  have whole : record c = fit singleLogRecordLength (front c ++ 124 :: formattedMessage c) := by
    rw [record, bar, front]
    congr 1
    simp only [List.append_assoc, List.cons_append, List.nil_append]
  rw [whole, fit, List.take_of_length_le (by omega)]

theorem solid_text (type : LogType) : ∀ byte ∈ type.text, QlogsCrawler.isspace byte = false ∧
    byte ≠ 124 ∧ byte ≠ 10 ∧ byte ≠ 13 ∧ byte < 128 := by
  cases type <;> decide +kernel

theorem Call.Plain.byte (plain : c.Plain) :
    ∀ byte ∈ record c, byte ≠ 10 ∧ byte ≠ 13 ∧ byte < 128 := by
  have printable := plain.printable
  simp only [texts, List.cons_append, List.nil_append, List.forall_mem_cons] at printable
  obtain ⟨tag, pid, roomid, message, -⟩ := printable
  have number : ∀ byte ∈ signed c.utcTime, byte ≠ 10 ∧ byte ≠ 13 ∧ byte < 128 :=
    fun _ inside => (solid_signed inside).2.2
  have type : ∀ byte ∈ c.type.text, byte ≠ 10 ∧ byte ≠ 13 ∧ byte < 128 :=
    fun byte inside => (solid_text c.type byte inside).2.2
  have bar : (124 : UInt8) ≠ 10 ∧ (124 : UInt8) ≠ 13 ∧ (124 : UInt8) < 128 := by decide
  rw [record_eq plain, front]
  simp only [List.forall_mem_append, List.forall_mem_cons]
  exact ⟨⟨number, bar, type, bar, tag, bar, pid, bar, roomid⟩, bar, message⟩

/-- What the index receives of a call. -/
def document (services : Services) (c : Call) : LogData where
  timestamp := (services.isoformat c.utcTime).getD [] ++ literal "Z"
  level := c.type.text
  pid := orDefault (strip (cString (c.pid.getD []))) (literal "nopid")
  roomid := orDefault (strip (cString (c.roomid.getD []))) (literal "noroom")
  message := [124].intercalate (((formattedMessage c).splitOn 124).map strip)
  source := strip (cString c.tag)

/-- The end of the line is all that `strip` may take from a record. -/
theorem strip_record (plain : c.Plain) :
    strip (record c) = front c ++ 124 :: (formattedMessage c).rdropWhile QlogsCrawler.isspace := by
  have solid : QlogsCrawler.isspace 124 = false := rfl
  have start : (front c ++ 124 :: formattedMessage c).dropWhile QlogsCrawler.isspace = front c ++
      124 :: formattedMessage c := by
    obtain ⟨byte, rest, shape⟩ : ∃ byte rest, signed c.utcTime = byte :: rest := by
      refine List.exists_cons_of_ne_nil fun empty => ?_
      have read := int_signed c.utcTime
      rw [empty] at read
      cases read
    have first := (solid_signed (n := c.utcTime) (shape ▸ List.mem_cons_self)).1
    rw [front, shape, List.cons_append, List.cons_append,
      List.dropWhile_cons_of_neg (by rw [first]; decide)]
  rw [record_eq plain, strip, Trim.trim, start, Trim.rdropWhile_append_cons solid]

/-- The script takes a record apart into the fields of its call. -/
theorem parse_record (plain : c.Plain) (services : Services)
    (time : services.isoformat c.utcTime = some timestamp) :
    parseLogRecord services (strip (record c)) = .data (document services c) := by
  have separate := plain.separate
  simp only [texts, List.forall_mem_cons] at separate
  obtain ⟨tag, pid, roomid, -⟩ := separate
  have number : (124 : UInt8) ∉ signed c.utcTime := fun inside => (solid_signed inside).2.1 rfl
  have type : (124 : UInt8) ∉ c.type.text := fun inside => (solid_text c.type _ inside).2.1 rfl
  have level : strip c.type.text = c.type.text := by
    cases c.type <;> decide +kernel
  rw [strip_record plain, front, parseLogRecord]
  simp only [List.append_assoc, List.cons_append, List.splitOn_append_cons_self_of_not_mem number,
    List.splitOn_append_cons_self_of_not_mem type, List.splitOn_append_cons_self_of_not_mem tag,
    List.splitOn_append_cons_self_of_not_mem pid, List.splitOn_append_cons_self_of_not_mem roomid,
    strip_signed, int_signed, Option.bind_some, time, level, map_strip_splitOn, document,
    Option.getD_some]

/-! ### Files -/

/-- Calls, each with whether it got the lock of the file. -/
def logAll (q : Qlogfile) (calls : List (Call × Bool)) : Qlogfile :=
  calls.foldl (fun q call => log q call.1 call.2) q

/-- The calls up to the last one that got the lock. -/
def reached (calls : List (Call × Bool)) : List Call :=
  (calls.rdropWhile fun call => !call.2).map Prod.fst

variable {q : Qlogfile} {calls : List (Call × Bool)}

theorem currentLogfilePath_logAll (q : Qlogfile) (calls : List (Call × Bool)) :
    (logAll q calls).currentLogfilePath = q.currentLogfilePath := by
  induction calls generalizing q with
  | nil => rfl
  | cons call rest ih =>
    rw [logAll, List.foldl_cons, ← logAll, ih, log, Qlogfile.logBuffer, Qlogfile.append]
    split <;> rfl

/-- Calls without the lock wait for the next one that has it. -/
theorem records_logAll (records : q.records = []) (waiting : q.recordsWaiting = [])
    (calls : List (Call × Bool)) :
    (logAll q calls).records = (reached calls).map (fun c => Qlogfile.bufferRecord (record c)) ∧
      (logAll q calls).records ++ (logAll q calls).recordsWaiting =
        calls.map fun call => Qlogfile.bufferRecord (record call.1) := by
  induction calls using List.reverseRecOn with
  | nil => exact ⟨records, by rw [logAll, List.foldl_nil, records, waiting]; rfl⟩
  | append_singleton calls call ih =>
    obtain ⟨before, all⟩ := ih
    have last : logAll q (calls ++ [call]) = log (logAll q calls) call.1 call.2 := List.foldl_append
    obtain ⟨c, locked⟩ := call
    rw [last, log, Qlogfile.logBuffer, Qlogfile.append, List.map_append, ← all, reached]
    cases locked with
    | true =>
      have whole : (calls ++ [(c, true)]).rdropWhile (fun call => !call.2) = calls ++ [(c, true)] :=
        List.rdropWhile_concat_neg _ _ _ Bool.false_ne_true
      rw [if_pos rfl, whole, List.map_append, List.map_append, List.map_map]
      refine ⟨?_, List.append_nil _⟩
      dsimp only
      rw [all]
      rfl
    | false =>
      have same : (calls ++ [(c, false)]).rdropWhile (fun call => !call.2) = calls.rdropWhile
        fun call => !call.2 :=
        List.rdropWhile_concat_pos _ _ _ rfl
      rw [if_neg Bool.false_ne_true, same]
      exact ⟨before, (List.append_assoc _ _ _).symm⟩

theorem bufferRecord_record (plain : c.Plain) :
    Qlogfile.bufferRecord (record c) = record c ++ [10] := by
  have number : ∀ byte ∈ signed c.utcTime, byte ≠ 0 := by
    rintro byte inside rfl
    rcases mem_signed inside with zero | zero <;> revert zero <;> decide
  have type : ∀ byte ∈ c.type.text, byte ≠ 0 := by
    cases c.type <;> decide +kernel
  have message : ∀ byte ∈ formattedMessage c, byte ≠ 0 := fun byte inside =>
    cString_clean _ byte (List.mem_of_mem_take inside)
  have clean : ∀ byte ∈ record c, byte ≠ 0 := by
    rw [record_eq plain, front]
    simp only [List.forall_mem_append, List.forall_mem_cons]
    exact ⟨⟨number,
      by decide, type, by decide, cString_clean _, by decide, cString_clean _, by decide, cString_clean _⟩,
      by decide, message⟩
  rw [Qlogfile.bufferRecord, cString_of_nul_free clean]

theorem documents_records {calls : List Call} {services : Services} (plain : ∀ c ∈ calls, c.Plain)
    (times : ∀ c ∈ calls, (services.isoformat c.utcTime).isSome = true) :
    documents services (calls.map record) = (calls.map (document services), false) := by
  induction calls with
  | nil => rfl
  | cons c rest ih =>
    obtain ⟨here, later⟩ := List.forall_mem_cons.mp plain
    obtain ⟨time, times⟩ := List.forall_mem_cons.mp times
    obtain ⟨timestamp, time⟩ := Option.isSome_iff_exists.mp time
    rw [List.map_cons, documents, parse_record here services time]
    simp only [ih later times, List.map_cons]

theorem contentOf_rename {d : Disk} {old new : Qstring} (present : d.files[old]? = some file) :
    (d.rename old new).contentOf new = file.content := by
  simp only [Disk.rename, present, Disk.contentOf, OrderedMap.lookup_insert, if_true,
    Option.map_some, Option.getD_some]

/-- What the calls of a new file leave in it, under the name that the script looks for. -/
theorem content_logged {d : Disk} (new : d.contentOf q.currentLogfilePath = [])
    (records : q.records = []) (waiting : q.recordsWaiting = [])
    (plain : ∀ call ∈ calls, call.1.Plain) (cfg : Qlogfile.Config) :
    ∃ d' q', Qlogfile.flush cfg d (logAll q calls) false true = .ok (d', q') ∧
      (Qlogfile.finaliseLogfile d' q').contentOf
          (q'.currentLogfilePath.replace (literal ".tmp") (literal ".log")) =
        ((reached calls).map record).flatMap fun record => record ++ [10] := by
  have written := (records_logAll records waiting calls).1
  have path := currentLogfilePath_logAll q calls
  have printed : ((reached calls).map fun c => Qlogfile.bufferRecord (record c)) =
      ((reached calls).map record).map fun record => record ++ [10] := by
    rw [List.map_map]
    refine List.map_congr_left fun c inside => ?_
    obtain ⟨call, member, rfl⟩ := List.mem_map.mp inside
    exact bufferRecord_record (plain call ((List.rdropWhile_prefix _ _).subset member))
  refine ⟨_, _, rfl, ?_⟩
  have stored :=
    (OrderedMap.lookup_insert d.files (logAll q calls).currentLogfilePath
      (logAll q calls).currentLogfilePath
      { content := d.contentOf (logAll q calls).currentLogfilePath ++
          (logAll q calls).records.flatten,
        session := d.sessions }).trans (if_pos rfl)
  refine (contentOf_rename stored).trans ?_
  rw [path, new, written, printed, List.nil_append, List.flatMap_def]

/-- From a new log file, the script sends the records of all calls up to the last one
that got the lock, once and in order, and takes the file for logged. -/
theorem logged_calls_indexed (cfg : Qlogfile.Config) (d : Disk) (q : Qlogfile) (services : Services)
    (n : Nat) (calls : List (Call × Bool)) (new : d.contentOf q.currentLogfilePath = [])
    (records : q.records = []) (waiting : q.recordsWaiting = []) (positive : 0 < n)
    (plain : ∀ call ∈ calls, call.1.Plain)
    (times : ∀ call ∈ calls, (services.isoformat call.1.utcTime).isSome = true)
    (accepts : ∀ k, (services.bulk k).accepted = true) :
    ∃ d' q' outcome, Qlogfile.flush cfg d (logAll q calls) false true = .ok (d', q') ∧
      processFile services n
        ((Qlogfile.finaliseLogfile d' q').contentOf
          (q'.currentLogfilePath.replace (literal ".tmp") (literal ".log"))) =
          some outcome ∧
      outcome.folder = .logged ∧
        outcome.sent.flatten = (reached calls).map (document services) := by
  obtain ⟨d', q', flushed, content⟩ := content_logged new records waiting plain cfg
  have member : ∀ c ∈ reached calls, ∃ call ∈ calls, call.1 = c := by
    intro c inside
    obtain ⟨call, within, same⟩ := List.mem_map.mp inside
    exact ⟨call, (List.rdropWhile_prefix _ _).subset within, same⟩
  have each : ∀ c ∈ reached calls, c.Plain := by
    intro c inside
    obtain ⟨call, within, rfl⟩ := member c inside
    exact plain call within
  have known : ∀ c ∈ reached calls, (services.isoformat c.utcTime).isSome = true := by
    intro c inside
    obtain ⟨call, within, rfl⟩ := member c inside
    exact times call within
  have parsed := documents_records each known
  have byte : ∀ line ∈ (reached calls).map record, ∀ byte ∈ line, byte ≠ 10 ∧ byte ≠ 13 ∧
      byte < 128 := by
    intro line inside
    obtain ⟨c, within, rfl⟩ := List.mem_map.mp inside
    exact (each c within).byte
  have read : lines (((reached calls).map record).flatMap fun line => line ++ [10]) =
    (reached calls).map record :=
    lines_records (fun line inside feed => (byte line inside 10 feed).1 rfl)
      fun line inside carriage => (byte line inside 13 carriage).2.1 rfl
  have ascii : ∀ byte ∈ ((reached calls).map record).flatMap (fun line => line ++ [10]),
      byte < 128 := by
    intro c inside
    obtain ⟨line, within, here⟩ := List.mem_flatMap.mp inside
    rcases List.mem_append.mp here with text | last
    · exact (byte line within c text).2.2
    · rw [List.mem_singleton.mp last]
      decide
  have flatten := flatten_sent services positive ((reached calls).map record)
  have folder := folder_iff services positive ((reached calls).map record)
  rw [parsed, if_neg Bool.false_ne_true] at flatten
  rw [parsed] at folder
  let r := Reading.readLines services n {} ((reached calls).map record)
  refine ⟨d', q', { sent := r.sent, folder := if r.success then .logged else .logFailed },
    flushed, ?_,
    folder.mpr ⟨rfl, fun k _ => accepts k⟩, flatten⟩
  rw [content, processFile, if_pos (isascii_iff.mpr ascii), read]

def sampleCall : Call :=
  { utcTime := 1700000000, type := .warnLog, tag := literal "room", pid := some (literal "p1"),
    roomid := none,
    message := literal "left | early" }

theorem sampleCall_plain : sampleCall.Plain where
  separate := by decide +kernel
  printable := by decide +kernel
  fits := by decide +kernel

def sampleConfig : Qlogfile.Config where
  logfilePath := literal "./glog"
  maxSizeOfFile := 100
  single := by decide +kernel

/-- Of two calls the second one waits for the lock. -/
theorem logged_calls_indexed_pair : ∃ d' q' outcome,
    Qlogfile.flush sampleConfig {}
      (logAll { currentLogfilePath := literal "./glog-0-0.tmp" }
        [(sampleCall, true), (sampleCall, false)])
      false true = .ok (d', q') ∧
    processFile acceptingServices 50
      ((Qlogfile.finaliseLogfile d' q').contentOf
        (q'.currentLogfilePath.replace (literal ".tmp") (literal ".log"))) =
        some outcome ∧
    outcome.folder = .logged ∧
    outcome.sent.flatten = [document acceptingServices sampleCall] :=
  logged_calls_indexed sampleConfig {} { currentLogfilePath := literal "./glog-0-0.tmp" }
    acceptingServices 50 [(sampleCall, true), (sampleCall, false)] rfl rfl rfl (by decide)
    (by simp [sampleCall_plain]) (fun _ _ => rfl) fun _ => rfl

end Qcustomlogger
end Gearsdk
