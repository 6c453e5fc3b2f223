import Gearsdk.QstatsCrawler.Lines
import Gearsdk.Qstatslogger

/-! The way of a record from the logger through the crawler into the rows of the
statements. The table of a row is compared as bytes; whether the insert header may
name it is no part of the row. -/
namespace Gearsdk
open Std Qstring

namespace QstatsCrawler

/-- A record goes through if its line gives its row, and the file with this line
gives this row and no other. -/
structure RoundTrips (buffer : Qstring) (row : Qstring × List Sql.Value) : Prop where
  line : rows (parseLines [cString buffer]) = [row]
  file : rows (parseFile (Qlogfile.bufferRecord buffer)) = [row]

/-- A text without a character that the line, the file or the statement gives a meaning. -/
def Plain (text : Qstring) : Prop := ∀ byte ∈ text, byte ≠ 124 ∧ byte ≠ 10 ∧ byte ≠ 39 ∧ byte ≠ 0

instance : DecidablePred Plain := fun text => List.decidableBAll _ text

end QstatsCrawler

open QstatsCrawler

namespace ServerCount

/-- The texts between the separators. -/
def written (record : ServerCount) (logger : Qstatslogger) (now : Tm) (utcTime : Int) :
    List Qstring :=
  [literal "count", record.counter, signed record.countVal, record.session, record.pid,
    logger.clientVersion.1, record.epic, record.myth, record.legend, record.story,
    logger.installOs.1, getTimeUtcPostgresqlFormat now, literal "NULL", signed utcTime,
    record.message, logger.deviceName.1, logger.deviceModel.1, signed logger.totalRam,
    logger.appId.1]

/-- The texts of the record beside the numbers and times. -/
def texts (record : ServerCount) (logger : Qstatslogger) : List Qstring :=
  [record.session, record.pid, record.version, record.epic, record.myth, record.legend,
    record.story, logger.installOs.1, record.message, logger.deviceName.1, logger.deviceModel.1,
    logger.appId.1]

/-- The table of the counter and the columns. -/
def row (record : ServerCount) (logger : Qstatslogger) (now : Tm) (utcTime : Int) :
    Qstring × List Sql.Value :=
  (literal "count_" ++ record.counter,
    [.integer record.countVal, .text record.session, .text record.pid, .text record.version,
      .text record.epic, .text record.myth, .text record.legend, .text record.story,
      .text logger.installOs.1, .text (getTimeUtcPostgresqlFormat now), .null,
      .text (signed utcTime), .text record.message, .text logger.deviceName.1,
      .text logger.deviceModel.1, .text (signed logger.totalRam), .text logger.appId.1])

/-- The version of the record is that of the client, no text has a character of
the format or is the word for an empty column, the last one is not empty, and
the line fits into the reader's buffer. -/
structure Kept (record : ServerCount) (logger : Qstatslogger) (now : Tm) (utcTime : Int) :
    Prop where
  version : record.version = logger.clientVersion.1.replace (literal "'") (literal "#")
  counter : Plain record.counter
  plain : ∀ text ∈ record.texts logger, Plain text
  given : ∀ text ∈ record.texts logger, text ≠ literal "NULL"
  appId : logger.appId.1 ≠ []
  short : ((record.written logger now utcTime).map List.length).sum + 18 ≤ 1023

end ServerCount

/-- The table of the counter and the columns. -/
def ClientCount.row (record : ClientCount) (logger : Qstatslogger) (now : Tm) (utcTime : Int) :
    Qstring × List Sql.Value :=
  (literal "count_" ++ record.counter,
    [.integer record.countVal, .text logger.clientSession.1, .text logger.clientPid.1,
      .text logger.clientVersion.1, .text record.epic, .text record.myth, .text record.legend,
      .text record.story, .text logger.installOs.1, .null, .text (getTimeUtcPostgresqlFormat now),
      .text (signed utcTime), .text record.message, .text logger.deviceName.1,
      .text logger.deviceModel.1, .text (signed logger.totalRam), .text logger.appId.1])

namespace QstatsCrawler

/-- The time of the client is not quoted. -/
theorem clientCount_not_roundTrips (logger : Qstatslogger) (record : ClientCount) (now : Tm)
    (utcTime : Int) :
    ¬ RoundTrips (logger.clientCount record now utcTime) (record.row logger now utcTime) := by
  intro through
  have clean : ∀ line ∈ [cString (logger.clientCount record now utcTime)], Clean line :=
    List.forall_mem_singleton.mpr (cString_clean _)
  obtain ⟨line, inside, -, -, read⟩ := rows_single through.line rfl clean
  have tstamp : ((lineFields line)[12]?).map (fun field => Sql.readValue (formatField 12 field)) =
    some (some (.text (getTimeUtcPostgresqlFormat now))) := read 10
  rw [Option.map_eq_some_iff] at tstamp
  obtain ⟨field, found, value⟩ := tstamp
  obtain ⟨-, free, cleanField⟩ := mem_lineFields (clean line inside) (List.mem_of_getElem? found)
  exact readValue_formatField_bare cleanField free (.inr rfl) _ value

/-! ### Numbers and times -/

/-- The characters of numbers and times. -/
def Numeric (text : Qstring) : Prop :=
  ∀ byte ∈ text, isdigit byte = true ∨ byte = 45 ∨ byte = 32 ∨ byte = 58

theorem numeric_append : Numeric (a ++ b) ↔ Numeric a ∧ Numeric b := List.forall_mem_append

theorem numeric_unsigned (n : Nat) : Numeric (unsigned n) :=
  fun byte inside => .inl (unsigned_digits n byte inside)

theorem numeric_signed (i : Int) : Numeric (signed i) := by
  cases i with
  | ofNat n => exact numeric_unsigned n
  | negSucc n => exact List.forall_mem_cons.mpr ⟨.inr (.inl rfl), numeric_unsigned (n + 1)⟩

theorem numeric_padded (width n : Nat) : Numeric (padded width n) := by
  refine numeric_append.mpr ⟨fun byte inside => ?_, numeric_unsigned n⟩
  rw [(List.mem_replicate.mp inside).2]
  exact .inl rfl

theorem numeric_time (now : Tm) : Numeric (getTimeUtcPostgresqlFormat now) := by
  have dash : Numeric (literal "-") := List.forall_mem_singleton.mpr (.inr (.inl rfl))
  have space : Numeric (literal " ") := List.forall_mem_singleton.mpr (.inr (.inr (.inl rfl)))
  have colon : Numeric (literal ":") := List.forall_mem_singleton.mpr (.inr (.inr (.inr rfl)))
  simp only [getTimeUtcPostgresqlFormat, numeric_append, numeric_padded, dash, space, colon,
    and_self]

theorem Numeric.plain (numeric : Numeric text) : Plain text := by
  intro byte inside
  rcases numeric byte inside with digit | rfl | rfl | rfl
  · have bounds := isdigit_bounds digit
    refine ⟨?_, ?_, ?_, ?_⟩ <;> rintro rfl <;> revert bounds <;> decide
  · decide
  · decide
  · decide

theorem Numeric.ne_null (numeric : Numeric text) : text ≠ literal "NULL" := by
  rintro rfl
  exact absurd (numeric 78 List.mem_cons_self) (by decide)

theorem signed_ne_nil (i : Int) : signed i ≠ [] := by
  cases i with
  | ofNat n => exact unsigned_ne_nil n
  | negSucc n => exact List.cons_ne_nil _ _

theorem Plain.absent (plain : Plain text) : 124 ∉ text ∧ 10 ∉ text ∧ 39 ∉ text ∧ Clean text :=
  ⟨fun inside => (plain 124 inside).1 rfl, fun inside => (plain 10 inside).2.1 rfl, fun inside =>
    (plain 39 inside).2.2.1 rfl,
    fun byte inside => (plain byte inside).2.2.2⟩

/-- What is read back without its quotes was written in them. -/
theorem values_formatField_text (plain : Plain text) (given : text ≠ literal "NULL")
    (quoted : x ≠ 2 ∧ x ≠ 12) :
    formatField x text = 39 :: (text ++ [39]) := by
  obtain ⟨-, -, -, clean⟩ := plain.absent
  have other : ¬ operatorEq text (literal "NULL") = true :=
    fun same => given ((operatorEq_iff clean (by decide)).mp same)
  rw [formatField, if_neg other, if_neg (not_or.mpr quoted), cString_of_nul_free clean]

theorem formatField_number (i : Int) : formatField 2 (signed i) = signed i := by
  simp only [formatField, cString_of_nul_free (numeric_signed i).plain.absent.2.2.2, true_or,
    if_true, ite_self]

end QstatsCrawler

theorem Qstring.mem_intercalate {texts : List Qstring} {delimiter byte : UInt8}
    (inside : byte ∈ [delimiter].intercalate texts) :
    byte = delimiter ∨ ∃ text ∈ texts, byte ∈ text := by
  induction texts with
  | nil => exact absurd inside List.not_mem_nil
  | cons text rest ih =>
    cases rest with
    | nil =>
      rw [List.intercalate_singleton] at inside
      exact .inr ⟨text, List.mem_cons_self, inside⟩
    | cons next rest =>
      rw [List.intercalate_cons_cons, List.mem_append, List.mem_append,
        List.mem_singleton] at inside
      rcases inside with (here | between) | later
      · exact .inr ⟨text, List.mem_cons_self, here⟩
      · exact .inl between
      · rcases ih later with between | ⟨other, listed, member⟩
        · exact .inl between
        · exact .inr ⟨other, List.mem_cons_of_mem _ listed, member⟩

theorem Qstring.mem_intercalate_of_mem {texts : List Qstring} {text : Qstring} {byte : UInt8}
    (delimiter : UInt8) (listed : text ∈ texts) (inside : byte ∈ text) :
    byte ∈ [delimiter].intercalate texts := by
  induction texts with
  | nil => exact absurd listed List.not_mem_nil
  | cons first rest ih =>
    cases rest with
    | nil =>
      rw [List.intercalate_singleton, ← List.mem_singleton.mp listed]
      exact inside
    | cons next rest =>
      rw [List.intercalate_cons_cons]
      rcases List.mem_cons.mp listed with rfl | later
      · exact List.mem_append_left _ (List.mem_append_left _ inside)
      · exact List.mem_append_right _ (ih later)

theorem Qstring.length_intercalate (delimiter : UInt8) (text : Qstring) (rest : List Qstring) :
    ([delimiter].intercalate (text :: rest)).length = ((text :: rest).map List.length).sum +
    rest.length := by
  induction rest generalizing text with
  | nil => simp only [List.intercalate_singleton, List.map_cons, List.map_nil, List.sum_cons,
    List.sum_nil, List.length_nil, Nat.add_zero]
  | cons next rest ih =>
    rw [List.intercalate_cons_cons, List.length_append, List.length_append, ih next]
    simp only [List.map_cons, List.sum_cons, List.length_cons, List.length_nil]
    omega

namespace ServerCount
variable {record : ServerCount} {logger : Qstatslogger} {now : Tm} {utcTime : Int}

theorem serverCount_eq :
    logger.serverCount record now utcTime = [124].intercalate (record.written logger now utcTime) :=
  foldl_separated 124 _ _

/-- The fields of the line before and after the version of the client. -/
def before (record : ServerCount) : List Qstring :=
  [literal "count", record.counter, signed record.countVal, record.session, record.pid]

def after (record : ServerCount) (logger : Qstatslogger) (now : Tm) (utcTime : Int) :
    List Qstring :=
  [record.epic, record.myth, record.legend, record.story, logger.installOs.1,
    getTimeUtcPostgresqlFormat now, literal "NULL", signed utcTime, record.message,
    logger.deviceName.1, logger.deviceModel.1] ++ [signed logger.totalRam, logger.appId.1]

theorem written_eq : record.written logger now utcTime =
    record.before ++ logger.clientVersion.1 :: record.after logger now utcTime := rfl

/-- What holds of the fields of a line beside the version of the client. -/
theorem forall_around {P : Qstring → Prop} (constants : P (literal "count") ∧ P (literal "NULL"))
    (counter : P record.counter) (number : ∀ i, P (signed i))
    (time : P (getTimeUtcPostgresqlFormat now)) (each : ∀ text ∈ record.texts logger, P text) :
    (∀ text ∈ record.before, P text) ∧ ∀ text ∈ record.after logger now utcTime, P text := by
  simp only [texts, List.forall_mem_cons, List.not_mem_nil, false_imp_iff, implies_true,
    and_true] at each
  obtain ⟨session, pid, -, epic, myth, legend, story, installOs, message, deviceName, deviceModel,
    appId⟩ := each
  simp only [before, after, List.cons_append, List.nil_append, List.forall_mem_cons,
    List.not_mem_nil, false_imp_iff, implies_true, and_true]
  exact ⟨⟨constants.1, counter, number _, session, pid⟩, epic, myth, legend, story, installOs, time,
    constants.2, number _, message,
    deviceName, deviceModel, number _, appId⟩

theorem forall_written {P : Qstring → Prop}
    (around : (∀ text ∈ record.before, P text) ∧ ∀ text ∈ record.after logger now utcTime, P text)
    (version : P logger.clientVersion.1) : ∀ text ∈ record.written logger now utcTime, P text := by
  rw [written_eq, List.forall_mem_append, List.forall_mem_cons]
  exact ⟨around.1, version, around.2⟩

/-- The line as the crawler takes it apart: the version of the record is where
the one of the client was written. -/
def seen (record : ServerCount) (logger : Qstatslogger) (now : Tm) (utcTime : Int) : List Qstring :=
  (record.written logger now utcTime).set 5 record.version

theorem Kept.fields (kept : record.Kept logger now utcTime) :
    ∀ text ∈ record.written logger now utcTime, 124 ∉ text ∧ 10 ∉ text ∧ Clean text := by
  have plain : ∀ text, Plain text → 124 ∉ text ∧ 10 ∉ text ∧ Clean text :=
    fun text free => ⟨free.absent.1, free.absent.2.1, free.absent.2.2.2⟩
  have version : 124 ∉ logger.clientVersion.1 ∧ 10 ∉ logger.clientVersion.1 ∧
      Clean logger.clientVersion.1 := by
    have known :=
      plain _ (kept.plain record.version (by simp only [texts, List.mem_cons, true_or, or_true]))
    rw [kept.version, replace_quotes logger.clientVersion.2, not_mem_unquote (by decide),
      not_mem_unquote (by decide)] at known
    exact ⟨known.1, known.2.1, logger.clientVersion.2⟩
  refine forall_written (forall_around ⟨plain _ (by decide), plain _ (by decide)⟩ (plain _ kept.counter)
    (fun i => plain _ (numeric_signed i).plain) (plain _ (numeric_time now).plain) ?_) version
  exact fun text listed => plain _ (kept.plain text listed)

theorem Kept.clean (kept : record.Kept logger now utcTime) :
    Clean ([124].intercalate (record.written logger now utcTime)) := by
  intro byte inside
  rcases mem_intercalate inside with rfl | ⟨text, listed, member⟩
  · decide
  · exact (kept.fields text listed).2.2 byte member

/-- The crawler sees the fields of the row. -/
theorem Kept.lineFields_eq (kept : record.Kept logger now utcTime) :
    lineFields ([124].intercalate (record.written logger now utcTime)) =
      record.seen logger now utcTime := by
  have clean := kept.clean
  have parts : ([124].intercalate (record.written logger now utcTime)).splitOn 124 =
      (record.written logger now utcTime).dropLast ++ [logger.appId.1] :=
    List.splitOn_intercalate 124 (fun text inside => (kept.fields text inside).1) (List.cons_ne_nil _ _)
  have texts := kept.plain
  simp only [ServerCount.texts, List.forall_mem_cons, List.not_mem_nil, false_imp_iff, implies_true,
    and_true] at texts
  obtain ⟨session, pid, -, epic, myth, legend, story, installOs, message, deviceName, deviceModel,
    appId⟩ := texts
  have version : logger.clientVersion.1.map unquote = record.version := by
    rw [kept.version, replace_quotes logger.clientVersion.2]
  have same (text : Qstring) (free : Plain text) : text.map unquote = text :=
    map_unquote free.absent.2.2.1
  rw [lineFields_of_splitOn clean parts, if_pos ⟨kept.appId, List.cons_ne_nil _ _⟩]
  simp only [written, seen, List.dropLast, List.cons_append, List.nil_append, List.map_cons,
    List.map_nil, List.set_cons_zero, List.set_cons_succ, version, same _ kept.counter,
    same _ session, same _ pid, same _ epic, same _ myth, same _ legend, same _ story,
    same _ installOs, same _ message, same _ deviceName, same _ deviceModel, same _ appId,
    same _ (numeric_signed _).plain, same _ (numeric_time now).plain,
    same (literal "count") (by decide), same (literal "NULL") (by decide)]

/-- A text in quotes. -/
def quote (text : Qstring) : Qstring := 39 :: (text ++ [39])

theorem formatField_quote (x : Nat) (plain : Plain text) (given : text ≠ literal "NULL")
    (quoted : x ≠ 2 ∧ x ≠ 12 := by decide) :
    formatField x text = quote text := values_formatField_text plain given quoted

theorem readValue_quote (plain : Plain text) : Sql.readValue (quote text) = some (.text text) :=
  Sql.readValue_quoted plain.absent.2.2.1

theorem solid_quote (plain : Plain text) : Sql.Solid (quote text) :=
  Sql.solid_quoted plain.absent.2.2.1

theorem readValue_signed (i : Int) : Sql.readValue (signed i) = some (.integer i) := by
  rw [Sql.readValue_bare (numeric_signed i).plain.absent.2.2.1, if_neg (numeric_signed i).ne_null,
    Sql.readInteger_signed, Option.map_some]

theorem solid_signed (i : Int) : Sql.Solid (signed i) := by
  apply Sql.solid_bare
  intro byte inside
  rcases numeric_signed i byte inside with digit | rfl | rfl | rfl
  · have bounds := isdigit_bounds digit
    refine ⟨?_, ?_, ?_⟩ <;> rintro rfl <;> revert bounds <;> decide
  · decide
  · decide
  · decide

theorem Kept.values_eq (kept : record.Kept logger now utcTime) :
    Sql.values (insertValues (record.seen logger now utcTime)) =
      some [(record.row logger now utcTime).2] := by
  have texts := kept.plain
  have given := kept.given
  simp only [ServerCount.texts, List.forall_mem_cons, List.not_mem_nil, false_imp_iff, implies_true,
    and_true] at texts given
  obtain ⟨session, pid, version, epic, myth, legend, story, installOs, message, deviceName,
    deviceModel, appId⟩ := texts
  obtain ⟨session', pid', version', epic', myth', legend', story', installOs', message',
    deviceName', deviceModel', appId'⟩ := given
  have time := numeric_time now
  have utc := numeric_signed utcTime
  have ram := numeric_signed logger.totalRam
  have shape : formatted (record.seen logger now utcTime) =
      [signed record.countVal, quote record.session, quote record.pid, quote record.version,
        quote record.epic, quote record.myth, quote record.legend, quote record.story,
        quote logger.installOs.1, quote (getTimeUtcPostgresqlFormat now), literal "NULL",
        quote (signed utcTime), quote record.message, quote logger.deviceName.1,
        quote logger.deviceModel.1, quote (signed logger.totalRam), quote logger.appId.1] := by
    have cells : formatted (record.seen logger now utcTime) =
        [formatField 2 (signed record.countVal), formatField 3 record.session,
          formatField 4 record.pid, formatField 5 record.version, formatField 6 record.epic,
          formatField 7 record.myth, formatField 8 record.legend, formatField 9 record.story,
          formatField 10 logger.installOs.1, formatField 11 (getTimeUtcPostgresqlFormat now),
          literal "NULL", formatField 13 (signed utcTime), formatField 14 record.message,
          formatField 15 logger.deviceName.1, formatField 16 logger.deviceModel.1,
          formatField 17 (signed logger.totalRam), formatField 18 logger.appId.1] := rfl
    rw [cells, formatField_number, formatField_quote 3 session session',
      formatField_quote 4 pid pid', formatField_quote 5 version version',
      formatField_quote 6 epic epic', formatField_quote 7 myth myth',
      formatField_quote 8 legend legend', formatField_quote 9 story story',
      formatField_quote 10 installOs installOs', formatField_quote 11 time.plain time.ne_null,
      formatField_quote 13 utc.plain utc.ne_null, formatField_quote 14 message message',
      formatField_quote 15 deviceName deviceName', formatField_quote 16 deviceModel deviceModel',
      formatField_quote 17 ram.plain ram.ne_null, formatField_quote 18 appId appId']
  rw [insertValues_eq, shape]
  apply Sql.values_row (List.cons_ne_nil _ _)
  · have null : Sql.Solid (literal "NULL") := Sql.solid_bare (by decide)
    simp only [List.forall_mem_cons, solid_signed, solid_quote session, solid_quote pid,
      solid_quote version, solid_quote epic, solid_quote myth, solid_quote legend,
      solid_quote story, solid_quote installOs, solid_quote time.plain, null, solid_quote utc.plain,
      solid_quote message, solid_quote deviceName, solid_quote deviceModel, solid_quote ram.plain,
      solid_quote appId, List.not_mem_nil, false_imp_iff, implies_true, and_self]
  · have null : Sql.readValue (literal "NULL") = some .null := rfl
    rw [Sql.mapM_some_iff]
    simp only [row, List.map_cons, List.map_nil, readValue_signed, readValue_quote session,
      readValue_quote pid, readValue_quote version, readValue_quote epic, readValue_quote myth,
      readValue_quote legend, readValue_quote story, readValue_quote installOs,
      readValue_quote time.plain, null, readValue_quote utc.plain, readValue_quote message,
      readValue_quote deviceName, readValue_quote deviceModel, readValue_quote ram.plain,
      readValue_quote appId]

theorem Kept.roundTrips (kept : record.Kept logger now utcTime) :
    RoundTrips (logger.serverCount record now utcTime) (record.row logger now utcTime) := by
  have clean := kept.clean
  have absent : 10 ∉ [124].intercalate (record.written logger now utcTime) := by
    intro inside
    rcases mem_intercalate inside with eq | ⟨text, listed, member⟩
    · exact absurd eq (by decide)
    · exact (kept.fields text listed).2.1 member
  have fits : ([124].intercalate (record.written logger now utcTime)).length ≤
      maxCharsInALine - 1 := by
    rw [written, length_intercalate]
    exact kept.short
  have seen := kept.lineFields_eq
  have parsed : parseLines [[124].intercalate (record.written logger now utcTime)] =
      [(literal "count_" ++ record.counter, insertValues (record.seen logger now utcTime))] := by
    rw [parseLines_single seen (congrArg List.length seen) (by decide), seen]
    rfl
  have single : rows (parseLines [[124].intercalate (record.written logger now utcTime)]) =
      [record.row logger now utcTime] := by
    rw [parsed, rows, List.flatMap_singleton, kept.values_eq]
    rfl
  rw [serverCount_eq]
  constructor
  · rw [cString_of_nul_free clean]
    exact single
  · rw [Qlogfile.bufferRecord, cString_of_nul_free clean, parseFile]
    rcases fileLines_record clean absent fits with alone | followed
    · rw [alone]
      exact single
    · rw [followed]
      exact single

theorem plain_of_absent (separator : 124 ∉ text) (feed : 10 ∉ text) (quote : 39 ∉ text)
    (clean : Clean text) : Plain text :=
  fun byte inside => ⟨fun eq => separator (eq ▸ inside), fun eq => feed (eq ▸ inside), fun eq =>
    quote (eq ▸ inside), clean byte inside⟩

/-- A line that has been read as the record. -/
structure Recorded (record : ServerCount) (logger : Qstatslogger) (line : Qstring) : Prop where
  clean : Clean line
  fields : (lineFields line).length = totalStatFields
  counter : (lineFields line)[1]? = some record.counter
  version : (lineFields line)[5]? = some record.version
  appId : (lineFields line)[18]? = some logger.appId.1
  texts : ∀ text ∈ record.texts logger, text ≠ literal "NULL" ∧ 124 ∉ text ∧ 39 ∉ text ∧ Clean text

theorem recorded_of_read (clean : Clean line) (counts : Counts line)
    (keyed : batchKey (lineFields line) = (record.row logger now utcTime).1)
    (read : ∀ i, ((lineFields line)[2 + i]?).map (fun field =>
    Sql.readValue (formatField (2 + i) field)) =
      (record.row logger now utcTime).2[i]?.map some) : Recorded record logger line := by
  have column (i : Nat) (t : Qstring) (place : (record.row logger now utcTime).2[i]? =
    some (.text t)) (quoted : i ≠ 0 ∧ i ≠ 10) :=
    field_of_text clean read place quoted
  have version := column 3 record.version rfl (by decide)
  have appId := column 16 logger.appId.1 rfl (by decide)
  refine ⟨clean, counts.fields, counter_of_key clean counts keyed, version.1, appId.1, ?_⟩
  simp only [ServerCount.texts, List.forall_mem_cons, List.not_mem_nil, false_imp_iff, implies_true,
    and_true]
  exact ⟨(column 1 record.session rfl (by decide)).2, (column 2 record.pid rfl (by decide)).2,
    version.2,
    (column 4 record.epic rfl (by decide)).2, (column 5 record.myth rfl (by decide)).2,
      (column 6 record.legend rfl (by decide)).2,
    (column 7 record.story rfl (by decide)).2, (column 8 logger.installOs.1 rfl (by decide)).2,
    (column 12 record.message rfl (by decide)).2, (column 13 logger.deviceName.1 rfl (by decide)).2,
    (column 14 logger.deviceModel.1 rfl (by decide)).2, appId.2⟩

theorem Recorded.counter_fields (recorded : Recorded record logger line) :
    124 ∉ record.counter ∧ 39 ∉ record.counter ∧ Clean record.counter :=
  mem_lineFields recorded.clean (List.mem_of_getElem? recorded.counter)

/-- No text ends the line early, so that the line is what was written. -/
theorem Recorded.line_eq (recorded : Recorded record logger line)
    (same : line = cString (logger.serverCount record now utcTime)) :
    line = [124].intercalate (record.written logger now utcTime) := by
  have texts : ∀ text ∈ record.written logger now utcTime, Clean text :=
    forall_written (forall_around (by decide) recorded.counter_fields.2.2 (fun i =>
      (numeric_signed i).plain.absent.2.2.2)
      (numeric_time now).plain.absent.2.2.2 fun text listed =>
        (recorded.texts text listed).2.2.2) logger.clientVersion.2
  rw [same, serverCount_eq]
  apply cString_of_nul_free
  intro byte member
  rcases mem_intercalate member with rfl | ⟨text, listed, within⟩
  · decide
  · exact texts text listed byte within

theorem Recorded.separated (recorded : Recorded record logger line) (now : Tm) (utcTime : Int) :
    (∀ text ∈ record.before, 124 ∉ text) ∧ ∀ text ∈ record.after logger now utcTime, 124 ∉ text :=
  forall_around (by decide) recorded.counter_fields.1 (fun i =>
    (numeric_signed i).plain.absent.1) (numeric_time now).plain.absent.1
    fun text listed => (recorded.texts text listed).2.1

/-- The version of the client, which is not among the fields of the record, has
not parted the line, and the record has it. -/
theorem Recorded.version_eq (recorded : Recorded record logger line)
    (written : line = [124].intercalate (record.written logger now utcTime)) :
    124 ∉ logger.clientVersion.1 ∧ logger.appId.1 ≠ [] ∧
      logger.clientVersion.1.map unquote = record.version := by
  obtain ⟨absentBefore, absentAfter⟩ := recorded.separated now utcTime
  obtain ⟨clientVersion, filled, seen⟩ :=
    lineFields_joined recorded.clean written absentBefore absentAfter (signed_ne_nil _)
      recorded.fields recorded.appId
  refine ⟨clientVersion, filled, ?_⟩
  have place := recorded.version
  rw [seen] at place
  exact Option.some.inj place

/-- The reader has the line of the file in one piece. -/
theorem Recorded.fits (recorded : Recorded record logger line)
    (written : line = [124].intercalate (record.written logger now utcTime))
    (file : rows (parseLines (fileLines (line ++ [10]).length (line ++ [10]))) =
    [record.row logger now utcTime]) :
    10 ∉ [124].intercalate (record.written logger now utcTime) ∧
      ([124].intercalate (record.written logger now utcTime)).length ≤ maxCharsInALine - 1 := by
  have fileClean := fileLines_clean (line ++ [10]).length (line ++ [10])
  obtain ⟨piece, inside, counts, keyed, read⟩ := rows_single file rfl fileClean
  have again : Recorded record logger piece :=
    recorded_of_read (fileClean piece inside) counts keyed read
  have clean := recorded.clean
  have whole : (record.written logger now utcTime).dropLast ++ [logger.appId.1] =
    record.written logger now utcTime := rfl
  have fields : ∀ text ∈ (record.written logger now utcTime).dropLast, 124 ∉ text :=
    fun text listed =>
      forall_written (recorded.separated now utcTime) (recorded.version_eq written).1 text
        ((List.dropLast_prefix _).subset listed)
  have appId : logger.appId.1 ∈ record.texts logger := by
    simp only [ServerCount.texts, List.mem_cons, true_or, or_true]
  have start : literal "count|" <+: [124].intercalate (record.written logger now utcTime) := by
    rw [ServerCount.written, List.intercalate_cons_cons]
    exact List.prefix_append _ _
  rw [written, ← whole] at clean inside
  rw [← whole] at start
  exact record_fits clean start rfl fields ⟨(recorded.texts _ appId).2.1,
    (recorded.texts _ appId).2.2.1⟩ inside again.fields again.appId

/-- What a record that goes through was. -/
theorem kept_of_roundTrips
    (through : RoundTrips (logger.serverCount record now utcTime) (record.row logger now utcTime)) :
    record.Kept logger now utcTime := by
  have all : ∀ line ∈ [cString (logger.serverCount record now utcTime)], Clean line :=
    List.forall_mem_singleton.mpr (cString_clean _)
  obtain ⟨line, inside, counts, keyed, read⟩ := rows_single through.line rfl all
  have recorded : Recorded record logger line :=
    recorded_of_read (all line inside) counts keyed read
  have same := List.mem_singleton.mp inside
  have written := recorded.line_eq same
  obtain ⟨-, filled, replaced⟩ := recorded.version_eq written
  have file : rows (parseLines (fileLines (line ++ [10]).length (line ++ [10]))) =
      [record.row logger now utcTime] := by
    rw [same]
    exact through.file
  obtain ⟨noFeed, short⟩ := recorded.fits written file
  have feedless : ∀ text ∈ record.written logger now utcTime, 10 ∉ text :=
    fun text listed member => noFeed (mem_intercalate_of_mem 124 listed member)
  have version : 10 ∉ record.version := by
    rw [← replaced, not_mem_unquote (by decide)]
    exact feedless _ (by simp only [ServerCount.written, List.mem_cons, true_or, or_true])
  have feeds : ∀ text ∈ record.texts logger, 10 ∉ text := by
    simp only [ServerCount.written, List.forall_mem_cons, List.not_mem_nil, false_imp_iff,
      implies_true, and_true] at feedless
    obtain ⟨-, -, -, session, pid, -, epic, myth, legend, story, installOs, -, -, -, message,
      deviceName, deviceModel, -, appId⟩ :=
      feedless
    simp only [ServerCount.texts, List.forall_mem_cons, List.not_mem_nil, false_imp_iff,
      implies_true, and_true]
    exact ⟨session, pid, version, epic, myth, legend, story, installOs, message, deviceName,
      deviceModel, appId⟩
  constructor
  · rw [replace_quotes logger.clientVersion.2, replaced]
  · obtain ⟨separator, quote, clean⟩ := recorded.counter_fields
    exact plain_of_absent separator (feedless _ (by simp only [ServerCount.written, List.mem_cons,
      true_or, or_true])) quote clean
  · intro text listed
    obtain ⟨-, separator, quote, clean⟩ := recorded.texts text listed
    exact plain_of_absent separator (feeds text listed) quote clean
  · exact fun text listed => (recorded.texts text listed).1
  · exact filled
  · rw [ServerCount.written, length_intercalate] at short
    exact short

end ServerCount

/-- The record of a server goes through exactly if it is plain and its version is
that of the client; no record of a client does. -/
theorem stats_record_round_trip_iff (logger : Qstatslogger) (now : Tm) (utcTime : Int) :
    (∀ record : ServerCount,
      RoundTrips (logger.serverCount record now utcTime) (record.row logger now utcTime) ↔
        record.Kept logger now utcTime) ∧
    ∀ record : ClientCount,
      ¬ RoundTrips (logger.clientCount record now utcTime) (record.row logger now utcTime) :=
  ⟨fun _ => ⟨ServerCount.kept_of_roundTrips, ServerCount.Kept.roundTrips⟩,
    fun record => clientCount_not_roundTrips logger record now utcTime⟩

/-- The version that a server gives to its record is not written. -/
theorem version_not_logged :
    let logger : Qstatslogger :=
      ({} : Qstatslogger).init (literal "linux") (literal "host") (literal "vm") (literal "qserver") 16
    let record : ServerCount := {
      counter := literal "parse", countVal := 1, session := [], pid := literal "4a3f", version :=
        literal "1.0", epic := literal "hit"
      myth := [], legend := [], story := [] }
    ¬ RoundTrips (logger.serverCount record ⟨124, 4, 6, 7, 8,
      9⟩ 1714979289) (record.row logger ⟨124, 4, 6, 7, 8, 9⟩ 1714979289) := by
  intro logger record through
  exact absurd (ServerCount.kept_of_roundTrips through).version (by decide)

end Gearsdk
