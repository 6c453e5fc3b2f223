import Gearsdk.Blocks
import Gearsdk.QlogsCrawler

/-! What becomes of the records of one file: which of them are sent, in which bulk
requests, and where the file goes. -/
namespace Gearsdk.QlogsCrawler
open Qstring Blocks

variable {services : Services} {n : Nat} {r : Reading}

/-- The records of the lines before the first one that raises an exception, and
whether there is such a line. -/
def documents (services : Services) : List Qstring → List LogData × Bool
  | [] => ([], false)
  | line :: rest =>
      match parseLogRecord services (strip line) with
      | .raised => ([], true)
      | .nothing => documents services rest
      | .data logData => (logData :: (documents services rest).1, (documents services rest).2)

/-- A block goes out as it is. -/
def collect (sent : List (List LogData)) (block : List LogData) : List (List LogData) :=
  sent ++ [block]

def acceptedAll (services : Services) (sent : List (List LogData)) : Bool :=
  (List.range sent.length).all fun k => (services.bulk k).accepted

/-- Nothing but the requests has been counted so far, and there is room in the batch. -/
structure Reading.Sound (services : Services) (n : Nat) (r : Reading) : Prop where
  room : r.batch.length < n
  success : r.success = acceptedAll services r.sent

theorem acceptedAll_snoc (services : Services) (sent : List (List LogData)) (batch : List LogData) :
    acceptedAll services (sent ++ [batch]) = (acceptedAll services sent &&
      (services.bulk sent.length).accepted) := by
  rw [acceptedAll, List.length_append, List.length_singleton, List.range_succ, List.all_append,
    List.all_cons, List.all_nil, Bool.and_true, acceptedAll]

/-- A line without a record changes nothing. -/
theorem Reading.Sound.sendFull_nothing (sound : r.Sound services n) :
    r.sendFull services n = r := by
  have room := sound.room
  exact if_neg (by omega)

/-- A record is one letter of the blocks. -/
theorem Reading.Sound.sendFull_data (sound : r.Sound services n) (logData : LogData) :
    ({ r with batch := r.batch ++ [logData] }.sendFull services n).Sound services n ∧
      ({ r with batch := r.batch ++ [logData] }.sendFull services n).sent =
        (feed n collect (r.sent, r.batch) logData).1 ∧
      ({ r with batch := r.batch ++ [logData] }.sendFull services n).batch =
        (feed n collect (r.sent, r.batch) logData).2 := by
  have room := sound.room
  have length : (r.batch ++ [logData]).length = r.batch.length + 1 := by
    rw [List.length_append, List.length_singleton]
  have filled : r.batch ++ [logData] ≠ [] :=
    List.append_ne_nil_of_right_ne_nil _ (List.cons_ne_nil _ _)
  by_cases full : r.batch.length + 1 = n
  · have sends : (n : Int) ≤ (r.batch ++ [logData]).length := by omega
    rw [Reading.sendFull, if_pos sends, Reading.sendBatch, if_neg filled, feed, if_pos full]
    refine ⟨⟨by dsimp only [List.length_nil]; omega, ?_⟩, rfl, rfl⟩
    rw [acceptedAll_snoc, ← sound.success]
  · have waits : ¬ (n : Int) ≤ (r.batch ++ [logData]).length := by omega
    rw [Reading.sendFull, if_neg waits, feed, if_neg full]
    exact ⟨⟨by dsimp only; omega, sound.success⟩, rfl, rfl⟩

/-- What is in the batch when the lines come to an end. -/
def finish (state : List (List LogData) × List LogData) (raised : Bool) : List (List LogData) :=
  if raised ∨ state.2 = [] then state.1 else state.1 ++ [state.2]

theorem readLines_spec (sound : r.Sound services n) (lines : List Qstring) :
    (Reading.readLines services n r lines).sent =
        finish (absorb n collect (r.sent,
          r.batch) (documents services lines).1) (documents services lines).2 ∧
      (Reading.readLines services n r lines).success =
        (!(documents services lines).2 &&
          acceptedAll services (Reading.readLines services n r lines).sent) := by
  induction lines generalizing r with
  | nil =>
    rw [Reading.readLines, documents, absorb_nil, finish]
    by_cases empty : r.batch = []
    · rw [if_pos empty, if_pos (.inr empty), sound.success]
      exact ⟨rfl, rfl⟩
    · have pending : ¬ ((false : Bool) = true ∨ r.batch = []) := by
        rintro (wrong | wrong)
        · contradiction
        · exact empty wrong
      rw [if_neg empty, if_neg pending, Reading.sendBatch, if_neg empty, sound.success]
      exact ⟨rfl, by rw [acceptedAll_snoc]; rfl⟩
  | cons line rest ih =>
    rw [Reading.readLines, documents]
    cases parseLogRecord services (strip line) with
    | raised => exact ⟨(if_pos (.inl rfl)).symm, rfl⟩
    | nothing =>
      simp only
      rw [sound.sendFull_nothing]
      exact ih sound
    | data logData =>
      obtain ⟨sound', sent, batch⟩ := sound.sendFull_data logData
      obtain ⟨sends, success⟩ := ih sound'
      rw [sent, batch] at sends
      exact ⟨sends, success⟩

theorem sound_init (services : Services) (positive : 0 < n) : Reading.Sound services n {} :=
  ⟨positive, rfl⟩

/-- The requests of a file: whole blocks, and at the end of the lines what is left. -/
theorem sent_eq (services : Services) (positive : 0 < n) (lines : List Qstring) :
    (Reading.readLines services n {} lines).sent =
      finish (blocks n ((documents services lines).1.length / n) (documents services lines).1,
        (documents services lines).1.drop (n *
          ((documents services lines).1.length / n))) (documents services lines).2 := by
  have collected : ∀ parts : List (List LogData), parts.foldl collect [] = parts := fun parts => by
    change parts.foldl (fun sent block => sent ++ [block]) [] = parts
    rw [List.foldl_append_eq_append, List.nil_append, ← List.flatMap_def, List.flatMap_singleton']
  rw [(readLines_spec (sound_init services positive) lines).1, absorb_eq positive, collected]

/-- Nothing is lost but an unfinished batch at an exception. -/
theorem flatten_finish (docs : List LogData) (raised : Bool) :
    (finish (blocks n (docs.length / n) docs, docs.drop (n * (docs.length / n))) raised).flatten =
      if raised then docs.take (n * (docs.length / n)) else docs := by
  rw [finish]
  cases raised with
  | true => rw [if_pos (.inl rfl), flatten_blocks, if_pos rfl]
  | false =>
    rw [if_neg Bool.false_ne_true]
    split
    · rename_i none
      have empty : docs.drop (n * (docs.length / n)) = [] := none.resolve_left Bool.false_ne_true
      have all := List.take_append_drop (n * (docs.length / n)) docs
      rw [empty, List.append_nil] at all
      rw [flatten_blocks, all]
    · rw [List.flatten_append, flatten_blocks, List.flatten_singleton, List.take_append_drop]

theorem flatten_sent (services : Services) (positive : 0 < n) (lines : List Qstring) :
    (Reading.readLines services n {} lines).sent.flatten =
      if (documents services lines).2 then
        (documents services lines).1.take (n * ((documents services lines).1.length / n))
      else (documents services lines).1 := by
  rw [sent_eq services positive, flatten_finish]

theorem folder_iff (services : Services) (positive : 0 < n) (lines : List Qstring) :
    (if (Reading.readLines services n {} lines).success = true then Folder.logged
      else .logFailed) = .logged ↔
      (documents services lines).2 = false ∧
        ∀ k < (Reading.readLines services n {} lines).sent.length,
          (services.bulk k).accepted = true := by
  rw [(readLines_spec (sound_init services positive) lines).2]
  cases (documents services lines).2 <;> simp [acceptedAll]

/-- The requests have `n` records each, the last one perhaps fewer. -/
theorem sizes_finish (positive : 0 < n) (docs : List LogData) (raised : Bool) :
    (∀ batch ∈ (finish (blocks n (docs.length / n) docs,
      docs.drop (n * (docs.length / n))) raised).dropLast, batch.length = n) ∧
      ∀ batch ∈ finish (blocks n (docs.length / n) docs, docs.drop (n * (docs.length / n))) raised,
        batch ≠ [] ∧ batch.length ≤ n := by
  have whole : ∀ batch ∈ blocks n (docs.length / n) docs, batch.length = n :=
    fun batch inside => length_of_mem_blocks (Nat.mul_div_le docs.length n) inside
  have rest : (docs.drop (n * (docs.length / n))).length < n := by
    have remainder := Nat.mod_lt docs.length positive
    have division := Nat.div_add_mod docs.length n
    rw [List.length_drop]
    omega
  have filled : ∀ batch ∈ blocks n (docs.length / n) docs, batch ≠ [] ∧ batch.length ≤ n := by
    intro batch inside
    have length := whole batch inside
    refine ⟨?_, Nat.le_of_eq length⟩
    rintro rfl
    rw [List.length_nil] at length
    omega
  rw [finish]
  split
  · exact ⟨fun batch inside => whole batch (List.dropLast_subset _ inside), filled⟩
  · rename_i more
    rw [List.dropLast_concat]
    refine ⟨whole, fun batch inside => ?_⟩
    rcases List.mem_append.mp inside with block | last
    · exact filled batch block
    · rw [List.mem_singleton.mp last]
      exact ⟨fun none => more (.inr none), Nat.le_of_lt rest⟩

/-- The records of a file go out once and in order, in requests of `n` records of
which only the last may have fewer. From a line that raises an exception on nothing is
read, and the batch that is held is lost. The file is taken for logged exactly when no
line raises one and every request is accepted. -/
theorem file_accounted (services : Services) (n : Nat) (positive : 0 < n) (file : Qstring)
    (ascii : ∀ byte ∈ file, byte < 128) :
    ∃ outcome, processFile services n file = some outcome ∧
      outcome.sent.flatten =
        (if (documents services (lines file)).2 then
          (documents services (lines file)).1.take (n * ((documents services (lines file)).1.length / n))
        else (documents services (lines file)).1) ∧
      (∀ batch ∈ outcome.sent.dropLast, batch.length = n) ∧
      (∀ batch ∈ outcome.sent, batch ≠ [] ∧ batch.length ≤ n) ∧
      (outcome.folder = .logged ↔
        (documents services (lines file)).2 = false ∧ ∀ k < outcome.sent.length,
          (services.bulk k).accepted = true) := by
  obtain ⟨full, small⟩ :=
    sizes_finish positive (documents services (lines file)).1 (documents services (lines file)).2
  rw [← sent_eq services positive] at full small
  exact ⟨_, if_pos (isascii_iff.mpr ascii), flatten_sent services positive _, full, small,
    folder_iff services positive _⟩

/-- An index that accepts everything, and a clock whose readings stay numbers. -/
def acceptingServices : Services where
  isoformat n := some (signed n)
  bulk _ := .response false []

/-- Two records and a line without one, in requests of one record. -/
theorem file_accounted_pair : ∃ outcome,
    processFile acceptingServices 1 (literal "7|INFO|tag|p|r|m\n8|WARN|tag||r|m\nmore\n") =
      some outcome ∧ outcome.folder = .logged := by
  obtain ⟨outcome, processed, -, -, -, folder⟩ := file_accounted acceptingServices 1 (by decide)
    (literal "7|INFO|tag|p|r|m\n8|WARN|tag||r|m\nmore\n") (by decide +kernel)
  exact ⟨outcome, processed, folder.mpr ⟨by decide +kernel, fun _ _ => rfl⟩⟩

end Gearsdk.QlogsCrawler
