import Gearsdk.Batching
import Gearsdk.QstatsCrawler

/-! The statements of a file with what becomes of them. A statement that fails is appended to a
file of its own, if that can be opened, and is not counted. -/
namespace Gearsdk.QstatsCrawler
open Std Qstring

/-- What the database and the file system answer, by the number of the statement. -/
structure Services where
  executeQuery : Nat → Bool
  opensErrorFile : Nat → Bool

structure Statement where
  table : Qstring
  batch : Batch
  executed : Bool

structure Crawl where
  batches : TreeMap Qstring Batch := ∅
  statements : List Statement := []
  /-- What has been appended to the error file. -/
  errorFile : Qstring := []
  totalRecordsSentToDbThroughBatching : Int := 0

def insertHeader (table : Qstring) : Qstring :=
  literal "INSERT INTO gsdk_stats.stats_" ++ cString table ++
    literal ("(count_val, session, pid, version, epic, myth, legend, story, install_os, " ++
      "server_tstamp, client_tstamp, time, message, device_name, device_model, total_ram, " ++
      "app_id) VALUES")

def sqlScript (table : Qstring) (batch : Batch) : Qstring :=
  insertHeader table ++ batch.value ++ literal ";"

/-- An `int` that is too large goes on from the least one. -/
def toInt (n : Int) : Int := n.bmod (2 ^ 32)

namespace Crawl

def execute (services : Services) (c : Crawl) (entry : Qstring × Batch) : Crawl :=
  let sqlScript := sqlScript entry.1 entry.2
  let executed := services.executeQuery c.statements.length
  let statements := c.statements ++ [⟨entry.1, entry.2, executed⟩]
  if executed then
    { c with
      statements
      totalRecordsSentToDbThroughBatching :=
        toInt (c.totalRecordsSentToDbThroughBatching + entry.2.count) }
  else if services.opensErrorFile c.statements.length then
    { c with statements, errorFile := c.errorFile ++ sqlScript }
  else { c with statements }

def batchSendCountStats (services : Services) (c : Crawl) : Crawl :=
  { c.batches.toList.foldl (execute services) c with batches := ∅ }

def parseLine (services : Services) (c : Crawl) (line : Qstring) : Crawl :=
  match lineFields line with
  | [] => c
  | kind :: fields =>
      if operatorEq kind (literal "count") then
        let c := { c with batches := appendCountStats c.batches (kind :: fields) }
        if getNumberOfCountStats c.batches ≥ countStatsBatchCount then
          c.batchSendCountStats services else c
      else c

def parseLines (services : Services) (lines : List Qstring) : Crawl :=
  let c := lines.foldl (parseLine services) {}
  if c.batches.size > 0 then c.batchSendCountStats services else c

def parseFile (services : Services) (file : Qstring) : Crawl :=
  parseLines services (fileLines file.length file)

end Crawl

/-! ### Accounts -/

/-- The table and the row of a line that is accepted. -/
def accepted (line : Qstring) : Option (Qstring × Qstring) :=
  let list := lineFields line
  if operatorEq (list.getD 0 []) (literal "count") ∧ list.length = totalStatFields then
    some (batchKey list, insertValues list)
  else none

/-- The rows of a statement, between commas. -/
def batchOf (rows : List Qstring) : Batch :=
  { value := [44].intercalate rows, count := rows.length }

/-- The statements hold the rows of the lines, each once and those of a table in their order; the
ones that failed are in the error file, and the rows of the others are counted. -/
structure Accounted (lines : List Qstring) (c : Crawl) : Prop where
  rows : ∃ groups : List (Qstring × List Qstring),
    c.statements.map (fun statement => (statement.table, statement.batch)) =
      groups.map (fun group => (group.1, batchOf group.2)) ∧
      (∀ group ∈ groups, group.2 ≠ []) ∧
      ∀ table, Batching.itemsOf table groups =
        ((lines.filterMap accepted).filter fun row => row.1 = table).map Prod.snd
  errorFile : c.errorFile =
    (c.statements.filter fun statement => !statement.executed).flatMap fun statement =>
      sqlScript statement.table statement.batch
  reported : c.totalRecordsSentToDbThroughBatching =
    ((c.statements.filter fun statement => statement.executed).map fun statement =>
      statement.batch.count).sum

/-- The statements that a file makes, whatever becomes of them. -/
def statementsOf (lines : List Qstring) : List (Qstring × List Qstring) :=
  Batching.run countStatsBatchCount (lines.filterMap accepted)

def executedRows (services : Services) (groups : List (Qstring × List Qstring)) : Nat :=
  ((groups.zipIdx.filter fun group => services.executeQuery group.2).map fun group =>
    group.1.2.length).sum

/-! ### Statements -/

variable {services : Services} {c : Crawl} {s : Batching.State Qstring Qstring}

/-- A group goes out as a statement that is executed or not. -/
def sent (services : Services) (group : (Qstring × List Qstring) × Nat) : Statement :=
  ⟨group.1.1, batchOf group.1.2, services.executeQuery group.2⟩

/-- The batches are the rows held, and the statements those that have gone. -/
structure Represents (services : Services) (c : Crawl) (s : Batching.State Qstring Qstring) :
    Prop where
  batches : ∀ table : Qstring, c.batches[table]? = s.groups[table]?.map batchOf
  statements : c.statements = s.gone.zipIdx.map (sent services)

theorem Represents.toList (represents : Represents services c s) :
    c.batches.toList = s.groups.toList.map fun group => (group.1, batchOf group.2) :=
  OrderedMap.toList_of_lookup represents.batches

theorem Represents.number (represents : Represents services c s) :
    getNumberOfCountStats c.batches = Batching.held s.groups := by
  rw [getNumberOfCountStats, represents.toList, List.map_map]
  rfl

theorem batchOf_append (filled : rows ≠ []) (row : Qstring) :
    batchOf (rows ++ [row]) = { value := (batchOf rows).value ++ literal "," ++ row,
                                count := (batchOf rows).count + 1 } := by
  have joined : [44].intercalate (rows ++ [row]) = [44].intercalate rows ++ literal "," ++ row := by
    induction rows with
    | nil => exact absurd rfl filled
    | cons first rest ih =>
      cases rest with
      | nil =>
        rw [List.cons_append, List.nil_append, List.intercalate_cons_cons,
          List.intercalate_singleton, List.intercalate_singleton]
        rfl
      | cons second rest =>
        rw [List.cons_append, List.cons_append, List.intercalate_cons_cons, ← List.cons_append,
          ih (List.cons_ne_nil _ _), List.intercalate_cons_cons]
        simp only [List.append_assoc]
  rw [batchOf, joined, List.length_append]
  rfl

/-- A row is put behind those of its table. -/
theorem Represents.append (represents : Represents services c s) (filled : s.Filled)
    (fields : (list : List Qstring).length = totalStatFields) :
    Represents services { c with batches := appendCountStats c.batches list }
      { s with groups := Batching.add s.groups (batchKey list, insertValues list) } := by
  refine ⟨fun table => ?_, represents.statements⟩
  rw [appendCountStats, if_neg (not_not.mpr fields)]
  dsimp only [Batching.add]
  rw [OrderedMap.lookup_insert, OrderedMap.lookup_insert]
  split
  · rw [Option.map_some, TreeMap.getD_eq_getD_getElem?, TreeMap.getD_eq_getD_getElem?,
      ← TreeMap.isSome_getElem?_eq_contains, represents.batches]
    cases held : s.groups[batchKey list]? with
    | none =>
      rw [Option.getD_none, List.nil_append, batchOf, List.intercalate_singleton]
      rfl
    | some rows =>
      rw [Option.map_some, Option.getD_some, Option.getD_some, batchOf_append (filled.1 _ _ held)]
      rfl
  · exact represents.batches table

theorem statements_execute (services : Services) (c : Crawl) (entry : Qstring × Batch) :
    (c.execute services entry).statements =
      c.statements ++ [⟨entry.1, entry.2, services.executeQuery c.statements.length⟩] := by
  rw [Crawl.execute]
  split
  · rfl
  · split <;> rfl

theorem statements_foldl (services : Services) (entries : List (Qstring × Batch)) (c : Crawl) :
    (entries.foldl (Crawl.execute services) c).statements =
      c.statements ++ (entries.zipIdx c.statements.length).map fun entry =>
        ⟨entry.1.1, entry.1.2, services.executeQuery entry.2⟩ := by
  induction entries generalizing c with
  | nil => exact (List.append_nil _).symm
  | cons entry rest ih =>
    rw [List.foldl_cons, ih, statements_execute, List.length_append, List.append_assoc,
      List.zipIdx_cons, List.map_cons]
    rfl

theorem Represents.send (represents : Represents services c s) :
    Represents services (c.batchSendCountStats services) (Batching.flush s) := by
  refine ⟨fun table => ?_, ?_⟩
  · rw [Crawl.batchSendCountStats, Batching.flush, OrderedMap.lookup_empty, OrderedMap.lookup_empty]
    rfl
  · rw [Crawl.batchSendCountStats, Batching.flush, represents.toList, statements_foldl,
      List.zipIdx_append, List.map_append, ← represents.statements, represents.statements,
      List.length_map, List.length_zipIdx, Nat.zero_add, List.zipIdx_map, List.map_map]
    rfl

/-- An accepted line is a step of the batching, and no other line changes anything. -/
theorem Represents.line (represents : Represents services c s) (filled : s.Filled)
    (few : Batching.held s.groups < countStatsBatchCount) (line : Qstring) :
    Represents services (c.parseLine services line)
      (match accepted line with
      | some row => Batching.step countStatsBatchCount s row
      | none => s) := by
  cases list : lineFields line with
  | nil =>
    have read : accepted line = none := by
      rw [accepted, list]
      exact if_neg fun accepted => absurd accepted.2 (by decide)
    have parsed : c.parseLine services line = c := by rw [Crawl.parseLine, list]
    rw [read, parsed]
    exact represents
  | cons kind fields =>
    by_cases count : operatorEq kind (literal "count") = true
    · have parsed : c.parseLine services line =
          if getNumberOfCountStats (appendCountStats c.batches (kind ::
            fields)) ≥ countStatsBatchCount then
            ({ c with batches := appendCountStats c.batches (kind ::
              fields) } : Crawl).batchSendCountStats services
          else { c with batches := appendCountStats c.batches (kind :: fields) } := by
        rw [Crawl.parseLine, list]
        exact if_pos count
      by_cases full : (kind :: fields).length = totalStatFields
      · have read : accepted line = some (batchKey (kind :: fields), insertValues (kind :: fields)) := by
          rw [accepted, list]
          exact if_pos ⟨count, full⟩
        have added := represents.append filled full
        have number : getNumberOfCountStats (appendCountStats c.batches (kind :: fields)) = _ :=
          added.number
        rw [read, parsed, number]
        dsimp only [Batching.step]
        split
        · exact added.send
        · exact added
      · have read : accepted line = none := by
          rw [accepted, list]
          exact if_neg fun accepted => full accepted.2
        have unchanged : appendCountStats c.batches (kind :: fields) = c.batches := by
          rw [appendCountStats, if_pos full]
        rw [read, parsed, unchanged, represents.number, if_neg (Nat.not_le_of_lt few)]
        exact represents
    · have read : accepted line = none := by
        rw [accepted, list]
        exact if_neg fun accepted => count accepted.1
      have parsed : c.parseLine services line = c := by
        rw [Crawl.parseLine, list]
        exact if_neg count
      rw [read, parsed]
      exact represents

/-- A pass over the lines is the batching of those that are accepted. -/
theorem represents_lines (services : Services) (lines : List Qstring) :
    Represents services (lines.foldl (Crawl.parseLine services) {})
        ((lines.filterMap accepted).foldl (Batching.step countStatsBatchCount) {}) := by
  have steps : ∀ (c : Crawl) (s : Batching.State Qstring Qstring), Represents services c s →
    s.Filled →
      Batching.held s.groups < countStatsBatchCount →
      Represents services (lines.foldl (Crawl.parseLine services) c)
        ((lines.filterMap accepted).foldl (Batching.step countStatsBatchCount) s) := by
    induction lines with
    | nil => exact fun c s represents _ _ => represents
    | cons line rest ih =>
      intro c s represents filled few
      have next := represents.line filled few line
      rw [List.foldl_cons]
      cases read : accepted line with
      | none =>
        rw [read] at next
        rw [List.filterMap_cons_none read]
        exact ih _ _ next filled few
      | some row =>
        rw [read] at next
        rw [List.filterMap_cons_some read, List.foldl_cons]
        exact ih _ _ next (filled.step _ row) (Batching.held_step (by decide) s row)
  have initial : Represents services {} {} := by
    refine ⟨fun table => ?_, rfl⟩
    rw [OrderedMap.lookup_empty, OrderedMap.lookup_empty]
    rfl
  exact steps {} {} initial Batching.filled_init (by decide)

theorem statements_parseLines (services : Services) (lines : List Qstring) :
    (Crawl.parseLines services lines).statements = (statementsOf lines).zipIdx.map (sent services) := by
  have represents := represents_lines services lines
  rw [Crawl.parseLines, statementsOf, Batching.run]
  split
  · exact represents.send.statements
  · rename_i none
    have empty : (lines.foldl (Crawl.parseLine services) {}).batches.toList = [] := by
      rw [← List.length_eq_zero_iff, TreeMap.length_toList]
      exact Nat.eq_zero_of_not_pos none
    rw [represents.toList, List.map_eq_nil_iff] at empty
    rw [Batching.flush, empty, List.append_nil]
    exact represents.statements

/-- The crawler without what becomes of its statements. -/
def Crawl.crawler (c : Crawl) : Crawler where
  batches := c.batches
  sent := c.statements.map fun statement => (statement.table, statement.batch.value)

theorem crawler_send (services : Services) (c : Crawl) :
    (c.batchSendCountStats services).crawler = QstatsCrawler.batchSendCountStats c.crawler := by
  have listed : ((c.batches.toList.zipIdx c.statements.length).map fun entry =>
        (⟨entry.1.1, entry.1.2, services.executeQuery entry.2⟩ : Statement)).map
        (fun statement => (statement.table, statement.batch.value)) = c.batches.toList.map
          fun entry => (entry.1, entry.2.value) := by
    rw [List.map_map]
    conv => rhs; rw [← List.zipIdx_map_fst c.statements.length c.batches.toList, List.map_map]
    rfl
  rw [Crawl.crawler, Crawl.batchSendCountStats, statements_foldl, List.map_append, listed]
  rfl

theorem crawler_line (services : Services) (c : Crawl) (line : Qstring) :
    (c.parseLine services line).crawler = QstatsCrawler.parseLine c.crawler line := by
  rw [Crawl.parseLine, QstatsCrawler.parseLine]
  cases lineFields line with
  | nil => rfl
  | cons kind fields =>
    dsimp only
    split
    · by_cases full : getNumberOfCountStats (appendCountStats c.batches (kind ::
        fields)) ≥ countStatsBatchCount
      · rw [if_pos full]
        exact (crawler_send services _).trans (if_pos full).symm
      · rw [if_neg full]
        exact (if_neg full).symm
    · rfl

/-- The statements do not depend on what becomes of them. -/
theorem sent_parseFile (services : Services) (file : Qstring) :
    ((Crawl.parseFile services file).statements.map fun statement =>
      (statement.table, statement.batch.value)) =
      QstatsCrawler.parseFile file := by
  have steps : ∀ (lines : List Qstring) (c : Crawl),
      (lines.foldl (Crawl.parseLine services) c).crawler =
        lines.foldl QstatsCrawler.parseLine c.crawler := by
    intro lines
    induction lines with
    | nil => exact fun c => rfl
    | cons line rest ih => exact fun c => by rw [List.foldl_cons, List.foldl_cons, ih, crawler_line]
  have read := steps (fileLines file.length file) {}
  rw [Crawl.parseFile, Crawl.parseLines, QstatsCrawler.parseFile, QstatsCrawler.parseLines]
  have initial : ({} : Crawl).crawler = {} := rfl
  rw [initial] at read
  rw [← read]
  by_cases waiting : ((fileLines file.length file).foldl (Crawl.parseLine services) {}).batches.size > 0
  · rw [if_pos waiting]
    exact congrArg Crawler.sent ((crawler_send services _).trans (if_pos waiting).symm)
  · have idle : ¬ ((fileLines file.length file).foldl
      (Crawl.parseLine services) {}).crawler.batches.size > 0 := waiting
    rw [if_neg waiting, if_neg idle]
    rfl

/-! ### The error file and the count -/

/-- What a statement adds to the error file. -/
def written (services : Services) (statement : Statement × Nat) : Qstring :=
  if statement.1.executed then []
  else if services.opensErrorFile statement.2 then sqlScript statement.1.table statement.1.batch
  else []

def executedCount (statements : List Statement) : Nat :=
  ((statements.filter fun statement => statement.executed).map fun statement => statement.batch.count).sum

structure Booked (services : Services) (c : Crawl) : Prop where
  errorFile : c.errorFile = c.statements.zipIdx.flatMap (written services)
  reported : c.totalRecordsSentToDbThroughBatching = toInt (executedCount c.statements)

theorem toInt_add (a : Int) (b : Nat) : toInt (toInt a + b) = toInt (a + b) := Int.bmod_add_bmod ..

theorem Booked.execute (booked : Booked services c) (entry : Qstring × Batch) :
    Booked services (c.execute services entry) := by
  have indexed :
    (c.statements ++
    [(⟨entry.1, entry.2, services.executeQuery c.statements.length⟩ : Statement)]).zipIdx.flatMap
      (written services) = c.errorFile ++ written services (⟨entry.1, entry.2,
        services.executeQuery c.statements.length⟩, c.statements.length) := by
    rw [List.zipIdx_append, List.flatMap_append, ← booked.errorFile, Nat.zero_add]
    exact congrArg (c.errorFile ++ ·) (List.append_nil _)
  have counted : executedCount (c.statements ++
    [⟨entry.1, entry.2, services.executeQuery c.statements.length⟩]) =
      executedCount c.statements + if services.executeQuery c.statements.length then entry.2.count
        else 0 := by
    rw [executedCount, List.filter_append, List.map_append, List.sum_append, executedCount]
    congr 1
    cases services.executeQuery c.statements.length <;> rfl
  constructor
  · rw [statements_execute, indexed, written, Crawl.execute]
    split
    · exact (List.append_nil _).symm
    · split
      · rfl
      · exact (List.append_nil _).symm
  · rw [statements_execute, counted, Crawl.execute]
    split
    · rw [booked.reported, toInt_add, Int.natCast_add]
    · split <;> exact booked.reported

theorem Booked.send (booked : Booked services c) :
    Booked services (c.batchSendCountStats services) := by
  have all : ∀ (entries : List (Qstring × Batch)) (c : Crawl), Booked services c →
      Booked services (entries.foldl (Crawl.execute services) c) := by
    intro entries
    induction entries with
    | nil => exact fun c booked => booked
    | cons entry rest ih => exact fun c booked => ih _ (booked.execute entry)
  have sent := all c.batches.toList c booked
  exact ⟨sent.errorFile, sent.reported⟩

theorem Booked.line (booked : Booked services c) (line : Qstring) :
    Booked services (c.parseLine services line) := by
  rw [Crawl.parseLine]
  split
  · exact booked
  · rename_i kind fields _
    have added : Booked services { c with
      batches := appendCountStats c.batches (kind :: fields) } :=
      ⟨booked.errorFile, booked.reported⟩
    split
    · dsimp only
      split
      · exact added.send
      · exact added
    · exact booked

theorem booked_parseLines (services : Services) (lines : List Qstring) :
    Booked services (Crawl.parseLines services lines) := by
  have steps : ∀ c : Crawl, Booked services c →
      Booked services (lines.foldl (Crawl.parseLine services) c) := by
    induction lines with
    | nil => exact fun c booked => booked
    | cons line rest ih => exact fun c booked => ih _ (booked.line line)
  have read := steps {} ⟨rfl, rfl⟩
  rw [Crawl.parseLines]
  split
  · exact read.send
  · exact read

/-! ### Accounts of whole files -/

/-- Parts that may be left out make up the whole just when none is. -/
theorem flatMap_eq_iff {l : List α} {f g : α → List β} (parts : ∀ a ∈ l, f a = g a ∨ f a = []) :
    l.flatMap f = l.flatMap g ↔ ∀ a ∈ l, f a = g a := by
  have shorter : ∀ l : List α, (∀ a ∈ l, f a = g a ∨ f a = []) →
      (l.flatMap f).length ≤ (l.flatMap g).length := by
    intro l parts
    induction l with
    | nil => exact Nat.le_refl 0
    | cons a rest ih =>
      obtain ⟨here, later⟩ := List.forall_mem_cons.mp parts
      have below := ih later
      rw [List.flatMap_cons, List.flatMap_cons, List.length_append, List.length_append]
      rcases here with same | none
      · rw [same]
        omega
      · rw [none, List.length_nil]
        omega
  constructor
  · intro whole
    induction l with
    | nil => exact fun a inside => absurd inside List.not_mem_nil
    | cons a rest ih =>
      obtain ⟨here, later⟩ := List.forall_mem_cons.mp parts
      rw [List.flatMap_cons, List.flatMap_cons] at whole
      have same : f a = g a := by
        rcases here with same | none
        · exact same
        · have lengths := congrArg List.length whole
          have below := shorter rest later
          rw [List.length_append, List.length_append, none, List.length_nil] at lengths
          rw [none, List.length_eq_zero_iff.mp (show (g a).length = 0 by omega)]
      rw [same] at whole
      exact List.forall_mem_cons.mpr ⟨same, ih later (List.append_cancel_left whole)⟩
  · exact List.flatMap_congr

theorem flatMap_failed (statements : List Statement) :
    ((statements.filter fun statement => !statement.executed).flatMap fun statement =>
      sqlScript statement.table statement.batch) =
      statements.zipIdx.flatMap fun statement =>
        if statement.1.executed then [] else sqlScript statement.1.table statement.1.batch := by
  have indexed : ∀ f : Statement → Qstring, statements.zipIdx.flatMap (fun statement =>
      f statement.1) = statements.flatMap f := by
    intro f
    conv => rhs; rw [← List.zipIdx_map_fst 0 statements, List.flatMap_map]
  rw [indexed fun statement => if statement.executed then []
    else sqlScript statement.table statement.batch]
  clear indexed
  induction statements with
  | nil => rfl
  | cons statement rest ih =>
    rw [List.filter_cons, List.flatMap_cons, ← ih]
    cases statement.executed <;> rfl

theorem sqlScript_ne_nil (table : Qstring) (batch : Batch) : sqlScript table batch ≠ [] :=
  List.append_ne_nil_of_right_ne_nil _ (by decide)

/-- The error file is complete just when it can be opened whenever a statement fails. -/
theorem Booked.errorFile_iff (booked : Booked services c) :
    c.errorFile =
        (c.statements.filter fun statement => !statement.executed).flatMap (fun statement =>
          sqlScript statement.table statement.batch) ↔
      ∀ n statement, c.statements[n]? = some statement → statement.executed = false →
        services.opensErrorFile n = true := by
  rw [booked.errorFile, flatMap_failed, flatMap_eq_iff]
  · constructor
    · intro complete n statement found failed
      have added := complete (statement, n) (List.mem_zipIdx_iff_getElem?.mpr found)
      simp only [written, failed, Bool.false_eq_true, if_false] at added
      by_contra closed
      rw [if_neg closed] at added
      exact sqlScript_ne_nil _ _ added.symm
    · rintro opened ⟨statement, n⟩ inside
      have found := List.mem_zipIdx_iff_getElem?.mp inside
      cases executed : statement.executed with
      | true => simp only [written, executed, if_true]
      | false => simp only [written, executed, opened n statement found executed,
        Bool.false_eq_true, if_false, if_true]
  · rintro ⟨statement, n⟩ _
    cases executed : statement.executed with
    | true => exact .inl (by simp only [written, executed, if_true])
    | false =>
      cases opened : services.opensErrorFile n with
      | true =>
        exact .inl (by simp only [written, executed, opened, Bool.false_eq_true, if_false, if_true])
      | false => exact .inr (by simp only [written, executed, opened, Bool.false_eq_true, if_false])

theorem toInt_iff (n : Nat) : toInt n = n ↔ n < 2 ^ 31 := by
  rw [toInt, Int.bmod_def]
  split <;> omega

theorem executedCount_sent (services : Services) (groups : List (Qstring × List Qstring)) :
    executedCount (groups.zipIdx.map (sent services)) = executedRows services groups := by
  rw [executedCount, List.filter_map, List.map_map]
  rfl

/-- The rows of a file are all accounted for just when the error file can be opened for every
statement that fails, and the rows of the others fit an `int`. -/
theorem rows_accounted_iff (services : Services) (file : Qstring) :
    Accounted (fileLines file.length file) (Crawl.parseFile services file) ↔
      (∀ n < (statementsOf (fileLines file.length file)).length, services.executeQuery n = false →
        services.opensErrorFile n = true) ∧
        executedRows services (statementsOf (fileLines file.length file)) < 2 ^ 31 := by
  generalize lines_eq : fileLines file.length file = lines
  have statements := statements_parseLines services lines
  have booked := booked_parseLines services lines
  have failing : (∀ n statement, (Crawl.parseLines services lines).statements[n]? = some statement →
    statement.executed = false →
      services.opensErrorFile n = true) ↔
      ∀ n < (statementsOf lines).length, services.executeQuery n = false →
        services.opensErrorFile n = true := by
    have lookup : ∀ n, (Crawl.parseLines services lines).statements[n]? =
        (statementsOf lines)[n]?.map fun group => sent services (group, n) := by
      intro n
      rw [statements, List.getElem?_map, List.getElem?_zipIdx, Option.map_map, Nat.zero_add]
      rfl
    constructor
    · intro opened n inside failed
      exact opened n _ (by rw [lookup, List.getElem?_eq_getElem inside]; rfl) failed
    · intro opened n statement found failed
      rw [lookup, Option.map_eq_some_iff] at found
      obtain ⟨group, here, rfl⟩ := found
      exact opened n (List.getElem?_eq_some_iff.mp here).1 failed
  have counted : (Crawl.parseLines services lines).totalRecordsSentToDbThroughBatching =
      executedCount (Crawl.parseLines services lines).statements ↔
        executedRows services (statementsOf lines) < 2 ^ 31 := by
    rw [booked.reported, toInt_iff, statements, executedCount_sent]
  rw [Crawl.parseFile, lines_eq, ← failing, ← counted, ← booked.errorFile_iff]
  constructor
  · exact fun accounted => ⟨accounted.errorFile, accounted.reported⟩
  · rintro ⟨errorFile, reported⟩
    refine ⟨⟨statementsOf lines, ?_, Batching.run_filled _ _, fun table =>
      Batching.itemsOf_run _ table _⟩, errorFile, reported⟩
    rw [statements, List.map_map]
    conv => rhs; rw [← List.zipIdx_map_fst 0 (statementsOf lines), List.map_map]
    rfl

/-- A line of a counter without texts. -/
def bareLine : Qstring := literal "count|parse|1||||||||||0||||||x\n"

/-- The database is gone, and the directory cannot be written to. -/
theorem row_lost :
    let c := Crawl.parseFile ⟨fun _ => false, fun _ => false⟩ bareLine
    (fileLines bareLine.length bareLine).filterMap accepted =
        [(literal "count_parse", literal "(1,'','','','','','','','','',0,'','','','','','x')")] ∧
      c.statements.map (fun statement => (statement.batch.value, statement.executed)) =
        [(literal "(1,'','','','','','','','','',0,'','','','','','x')", false)] ∧
      c.errorFile = [] ∧ ¬ Accounted (fileLines bareLine.length bareLine) c := by
  intro c
  refine ⟨by decide +kernel, by decide +kernel, by decide +kernel, fun accounted => ?_⟩
  have lost : c.errorFile ≠ (c.statements.filter fun statement => !statement.executed).flatMap
      fun statement => sqlScript statement.table statement.batch := by decide +kernel
  exact lost accounted.errorFile

end Gearsdk.QstatsCrawler
