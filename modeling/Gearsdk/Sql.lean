import Gearsdk.Str2int

/-! The text behind `VALUES` of an SQL statement: rows in parentheses with values
between commas. A value is the word `NULL`, an integer, or a text in single
quotes, where a doubled quote stands for one. Anything else, and a row that does
not end, is no list of rows. -/
namespace Sql
open Gearsdk Qstring

inductive Value where
  | null
  | integer (value : Int)
  | text (bytes : Qstring)
  deriving DecidableEq

def readDigits (s : Qstring) : Option Nat :=
  if s ≠ [] ∧ s.all isdigit then some (Strtol.accumulate 0 s).1 else none

def readInteger : Qstring → Option Int
  | 45 :: rest => (readDigits rest).map fun n => -(n : Int)
  | s => (readDigits s).map fun n => (n : Int)

/-- Behind the opening quote. -/
def readText : Qstring → Option Qstring
  | [] => none
  | [39] => some []
  | 39 :: 39 :: rest => (readText rest).map (39 :: ·)
  | c :: rest => if c = 39 then none else (readText rest).map (c :: ·)

def readValue : Qstring → Option Value
  | 39 :: rest => (readText rest).map .text
  | s => if s = literal "NULL" then some .null else (readInteger s).map .integer

/-- The texts of the values up to the end of the row, and what follows it.
Between quotes neither a comma nor a parenthesis counts. -/
def readRow (current : Qstring) (quoted : Bool) : Qstring → Option (List Qstring × Qstring)
  | [] => none
  | c :: rest =>
      if quoted then readRow (current ++ [c]) (c ≠ 39) rest
      else if c = 41 then some ([current], rest)
      else if c = 44 then (readRow [] false rest).map fun row => (current :: row.1, row.2)
      else readRow (current ++ [c]) (c = 39) rest

/-- Every row uses up a byte. -/
def readRows : (rounds : Nat) → Qstring → Option (List (List Value))
  | rounds + 1, 40 :: s =>
      match readRow [] false s with
      | some (fields, []) => (fields.mapM readValue).map ([·])
      | some (fields, 44 :: rest) => do
          let row ← fields.mapM readValue
          let rows ← readRows rounds rest
          some (row :: rows)
      | _ => none
  | _, _ => none

def values (s : Qstring) : Option (List (List Value)) := readRows s.length s

example : values (literal "(7,'a,(b)',NULL),(-1,'',2)") =
    some [[.integer 7, .text (literal "a,(b)"), .null], [.integer (-1), .text [], .integer 2]] := by
      decide +kernel

/-! ### Values -/

theorem readDigits_unsigned (n : Nat) : readDigits (unsigned n) = some n := by
  rw [readDigits, if_pos ⟨unsigned_ne_nil n, List.all_eq_true.mpr (unsigned_digits n)⟩,
    Strtol.accumulate_unsigned]

theorem readInteger_signed (i : Int) : readInteger (signed i) = some i := by
  cases i with
  | ofNat n =>
    obtain ⟨digit, rest, shape⟩ := List.exists_cons_of_ne_nil (unsigned_ne_nil n)
    have digits := unsigned_digits n digit (shape ▸ List.mem_cons_self)
    have other : digit ≠ 45 := by
      rintro rfl
      exact absurd (isdigit_bounds digits).1 (by decide)
    have read := readDigits_unsigned n
    rw [shape] at read
    rw [signed, shape, readInteger, read]
    · rfl
    · exact fun _ same => other (List.head_eq_of_cons_eq same)
  | negSucc n =>
    rw [signed, readInteger, readDigits_unsigned]
    rfl

theorem readText_quoted (free : 39 ∉ s) : readText (s ++ [39]) = some s := by
  induction s with
  | nil => rfl
  | cons c rest ih =>
    simp only [List.mem_cons, not_or] at free
    obtain ⟨other, later⟩ := free
    have different : ¬ c = 39 := fun same => other same.symm
    rw [List.cons_append, readText, if_neg different, ih later, Option.map_some]
    · exact fun same => absurd same different
    · exact fun _ same => absurd same different

theorem readValue_quoted (free : 39 ∉ s) : readValue (39 :: (s ++ [39])) = some (.text s) := by
  rw [readValue, readText_quoted free, Option.map_some]

/-- What does not begin with a quote is no text. -/
theorem readValue_bare (free : 39 ∉ s) : readValue s = if s = literal "NULL" then some .null
    else (readInteger s).map .integer := by
  rw [readValue]
  rintro rest rfl
  exact free List.mem_cons_self

theorem mapM_some_iff {es : List α} {f : α → Option β} {vs : List β} :
    es.mapM f = some vs ↔ es.map f = vs.map some := by
  induction es generalizing vs with
  | nil =>
    rw [List.mapM_nil, List.map_nil]
    constructor
    · rintro ⟨⟩
      rfl
    · intro none
      rw [List.map_eq_nil_iff.mp none.symm]
      rfl
  | cons e es ih =>
    cases vs with
    | nil =>
      simp only [List.mapM_cons, bind, Option.bind_eq_some_iff, pure, Option.some.injEq,
        List.cons_ne_nil, and_false, exists_false, List.map_cons, List.map_nil]
    | cons v vs =>
      simp only [List.mapM_cons, bind, Option.bind_eq_some_iff, pure, Option.some.injEq,
        List.cons.injEq, List.map_cons, ← ih]
      constructor
      · rintro ⟨_, here, _, later, rfl, rfl⟩
        exact ⟨here, later⟩
      · rintro ⟨here, later⟩
        exact ⟨v, here, vs, later, rfl, rfl⟩

/-! ### Rows -/

/-- A text that the reader of rows goes through without stopping. -/
def Solid (e : Qstring) : Prop :=
  ∀ current tail, readRow current false (e ++ tail) = readRow (current ++ e) false tail

theorem readRow_quoted (free : 39 ∉ s) (current tail : Qstring) :
    readRow current true (s ++ 39 :: tail) = readRow (current ++ (s ++ [39])) false tail := by
  induction s generalizing current with
  | nil => rfl
  | cons c rest ih =>
    simp only [List.mem_cons, not_or] at free
    obtain ⟨other, later⟩ := free
    have different : c ≠ 39 := fun same => other same.symm
    rw [List.cons_append, readRow, if_pos rfl, decide_eq_true different, ih later,
      List.append_assoc]
    rfl

theorem solid_quoted (free : 39 ∉ s) : Solid (39 :: (s ++ [39])) := by
  intro current tail
  have opening : readRow current false (39 :: (s ++ 39 :: tail)) =
    readRow (current ++ [39]) true (s ++ 39 :: tail) := rfl
  rw [List.cons_append, List.append_assoc, List.singleton_append, opening, readRow_quoted free,
    List.append_assoc]
  rfl

/-- Nothing in the text ends a value. -/
def Bare (e : Qstring) : Prop := ∀ c ∈ e, c ≠ 39 ∧ c ≠ 41 ∧ c ≠ 44

instance : DecidablePred Bare := fun e => List.decidableBAll _ e

theorem solid_bare (plain : Bare e) : Solid e := by
  intro current tail
  induction e generalizing current with
  | nil => rw [List.nil_append, List.append_nil]
  | cons c rest ih =>
    obtain ⟨⟨quote, close, comma⟩, later⟩ := List.forall_mem_cons.mp plain
    rw [List.cons_append, readRow, if_neg Bool.false_ne_true, if_neg close, if_neg comma,
      decide_eq_false quote, ih later, List.append_assoc]
    rfl

/-- The texts of a row, however they are cut. -/
def row (es : List Qstring) : Qstring := 40 :: ([44].intercalate es ++ [41])

theorem readRow_solid (filled : es ≠ []) (solid : ∀ e ∈ es, Solid e) (tail : Qstring) :
    readRow [] false ([44].intercalate es ++ 41 :: tail) = some (es, tail) := by
  induction es with
  | nil => exact absurd rfl filled
  | cons e rest ih =>
    obtain ⟨here, later⟩ := List.forall_mem_cons.mp solid
    cases rest with
    | nil =>
      rw [List.intercalate_singleton, here, List.nil_append]
      rfl
    | cons next rest =>
      have further : readRow e false (44 :: ([44].intercalate (next :: rest) ++ 41 :: tail)) =
        (readRow [] false ([44].intercalate (next :: rest) ++ 41 :: tail)).map fun row =>
          (e :: row.1, row.2) := rfl
      rw [List.intercalate_cons_cons, List.append_assoc, List.append_assoc, here, List.nil_append,
        List.singleton_append, further, ih (List.cons_ne_nil _ _) later]
      rfl

theorem values_row (filled : es ≠ []) (solid : ∀ e ∈ es, Solid e)
    (read : es.mapM readValue = some vs) :
    values (row es) = some [vs] := by
  rw [values, row, List.length_cons, readRows, readRow_solid filled solid]
  simp only [read, Option.map_some]

/-- A text without quotes may end the row or begin new values; if it does
neither it goes to the current value as it is. -/
theorem readRow_bare (free : 39 ∉ e)
    (read : readRow current false (e ++ tail) = some (fields, rest)) :
    tail.length ≤ rest.length ∨ ∃ front last later, readRow last false tail = some (later, rest) ∧
      fields = front ++ later ∧
      (front = [] → last = current ++ e) := by
  induction e generalizing current fields with
  | nil =>
    rw [List.nil_append] at read
    exact .inr ⟨[], current, fields, read, rfl, fun _ => (List.append_nil current).symm⟩
  | cons c e ih =>
    simp only [List.mem_cons, not_or] at free
    obtain ⟨other, later⟩ := free
    have different : c ≠ 39 := fun same => other same.symm
    rw [List.cons_append, readRow, if_neg Bool.false_ne_true] at read
    by_cases close : c = 41
    · rw [if_pos close] at read
      obtain ⟨-, rfl⟩ := Prod.mk.inj (Option.some.inj read)
      left
      rw [List.length_append]
      omega
    · rw [if_neg close] at read
      by_cases comma : c = 44
      · rw [if_pos comma, Option.map_eq_some_iff] at read
        obtain ⟨⟨inner, end'⟩, found, same⟩ := read
        obtain ⟨rfl, rfl⟩ := Prod.mk.inj same
        rcases ih later found with early | ⟨front, last, fields, read, shape, -⟩
        · exact .inl early
        · refine .inr ⟨current :: front, last, fields, read, ?_, fun none =>
            absurd none (List.cons_ne_nil _ _)⟩
          rw [List.cons_append, ← shape]
      · rw [if_neg comma, decide_eq_false different] at read
        rcases ih later read with early | ⟨front, last, fields, read, shape, unmoved⟩
        · exact .inl early
        · refine .inr ⟨front, last, fields, read, shape, fun none => ?_⟩
          rw [unmoved none, List.append_assoc]
          rfl

theorem readRow_cut (cut : 39 ∉ e ∨ Solid e)
    (read : readRow current false (e ++ tail) = some (fields, rest)) :
    tail.length ≤ rest.length ∨ ∃ front last later, readRow last false tail = some (later, rest) ∧
      fields = front ++ later ∧
      (front = [] → last = current ++ e) := by
  rcases cut with free | solid
  · exact readRow_bare free read
  · rw [solid] at read
    exact .inr ⟨[], current ++ e, fields, read, rfl, fun _ => rfl⟩

/-- A row that ends where its text ends has at least as many values as texts
went into it, and if it has as many it has these. -/
theorem readRow_row (filled : es ≠ []) (cut : ∀ e ∈ es, 39 ∉ e ∨ Solid e)
    (read : readRow current false ([44].intercalate es ++ 41 :: tail) = some (fields, rest)) :
    tail.length < rest.length ∨ rest = tail ∧ es.length ≤ fields.length ∧
      (fields.length = es.length → fields = es.modifyHead (current ++ ·)) := by
  induction es generalizing current fields with
  | nil => exact absurd rfl filled
  | cons e es ih =>
    obtain ⟨here, later⟩ := List.forall_mem_cons.mp cut
    cases es with
    | nil =>
      rw [List.intercalate_singleton] at read
      rcases readRow_cut here read with early | ⟨front, last, fields', ends, rfl, unmoved⟩
      · exact .inl early
      · obtain ⟨rfl, rfl⟩ := Prod.mk.inj (Option.some.inj ends)
        refine .inr ⟨rfl, ?_, fun same => ?_⟩
        · simp only [List.length_append, List.length_cons]
          omega
        · simp only [List.length_append, List.length_cons, List.length_nil] at same
          obtain rfl := List.length_eq_zero_iff.mp (show front.length = 0 by omega)
          rw [unmoved rfl]
          rfl
    | cons next es =>
      rw [List.intercalate_cons_cons, List.append_assoc, List.append_assoc,
        List.singleton_append] at read
      rcases readRow_cut here read with early | ⟨front, last, fields', ends, rfl, unmoved⟩
      · left
        simp only [List.length_cons, List.length_append] at early
        omega
      · have further : readRow last false (44 :: ([44].intercalate (next :: es) ++ 41 :: tail)) =
          (readRow [] false ([44].intercalate (next :: es) ++ 41 :: tail)).map fun row =>
            (last :: row.1, row.2) := rfl
        rw [further, Option.map_eq_some_iff] at ends
        obtain ⟨⟨inner, end'⟩, found, same⟩ := ends
        obtain ⟨rfl, rfl⟩ := Prod.mk.inj same
        rcases ih (List.cons_ne_nil _ _) later found with early | ⟨rfl, enough, exactly⟩
        · exact .inl early
        · refine .inr ⟨rfl, ?_, fun same => ?_⟩
          · simp only [List.length_append, List.length_cons] at enough ⊢
            omega
          · simp only [List.length_append, List.length_cons] at same enough exactly
            obtain rfl := List.length_eq_zero_iff.mp (show front.length = 0 by omega)
            rw [unmoved rfl, exactly (by omega)]
            rfl

theorem readRows_cases (read : readRows rounds s = some rows) :
    ∃ text fields rest vs, s = 40 :: text ∧ readRow [] false text = some (fields, rest) ∧
      fields.mapM readValue = some vs ∧
      (rest = [] ∧ rows = [vs] ∨ ∃ rounds rest' more, rest = 44 :: rest' ∧
        readRows rounds rest' = some more ∧ rows = vs :: more) := by
  revert read
  fun_cases readRows rounds s with
  | case1 rounds text fields found =>
    intro read
    obtain ⟨vs, values, rfl⟩ := Option.map_eq_some_iff.mp read
    exact ⟨text, fields, [], vs, rfl, found, values, .inl ⟨rfl, rfl⟩⟩
  | case2 rounds text fields rest found =>
    intro read
    obtain ⟨vs, values, read⟩ := Option.bind_eq_some_iff.mp read
    obtain ⟨more, later, read⟩ := Option.bind_eq_some_iff.mp read
    exact ⟨text, fields, _, vs, rfl, found, values,
      .inr ⟨rounds, rest, more, rfl, later, (Option.some.inj read).symm⟩⟩
  | case3 => exact fun read => absurd read (Option.some_ne_none _).symm
  | case4 => exact fun read => absurd read (Option.some_ne_none _).symm

theorem readRows_ne_nil (rounds : Nat) (s : Qstring) : readRows rounds s ≠ some [] := by
  intro read
  obtain ⟨_, _, _, _, -, -, -, ⟨-, same⟩ | ⟨_, _, _, -, -, same⟩⟩ := readRows_cases read
  · exact absurd same (List.cons_ne_nil _ _).symm
  · exact absurd same (List.cons_ne_nil _ _).symm

/-- One row, with as many values as texts went into it: then they are its
values, and no other row follows. -/
theorem values_single (filled : es ≠ []) (cut : ∀ e ∈ es, 39 ∉ e ∨ Solid e)
    (read : values (row es ++ more) = some [vs]) (same : vs.length = es.length) :
    more = [] ∧ es.mapM readValue = some vs := by
  obtain ⟨text, fields, rest, vs', shape, found, values, ending⟩ := readRows_cases read
  have start : text = [44].intercalate es ++ 41 :: more := by
    have whole : row es ++ more = 40 :: ([44].intercalate es ++ 41 :: more) := by
      simp only [row, List.cons_append, List.append_assoc, List.nil_append]
    exact (List.tail_eq_of_cons_eq (whole.symm.trans shape)).symm
  rw [start] at found
  have single : rest = [] ∧ vs' = vs := by
    rcases ending with ⟨rfl, rows⟩ | ⟨rounds, rest', rows, rfl, later, shape⟩
    · exact ⟨rfl, (List.head_eq_of_cons_eq rows).symm⟩
    · obtain rfl := List.tail_eq_of_cons_eq shape
      exact absurd later (readRows_ne_nil rounds rest')
  obtain ⟨rfl, rfl⟩ := single
  rcases readRow_row filled cut found with early | ⟨rfl, -, exactly⟩
  · exact absurd early (Nat.not_lt_zero _)
  · have count : fields.length = es.length := by
      have lengths := congrArg List.length (mapM_some_iff.mp values)
      rw [List.length_map, List.length_map] at lengths
      rw [lengths, same]
    rw [exactly count] at values
    refine ⟨rfl, ?_⟩
    cases es with
    | nil => exact values
    | cons e es => exact values

end Sql
