import Gearsdk.QstatsCrawler.Rows

/-! The lines that the crawler reads from a file. -/
namespace Gearsdk
open Std Qstring

theorem fgets_spec (room : Nat) (file : Qstring) :
    (fgets room file).1 ++ (fgets room file).2 = file ∧ (fgets room file).1.length ≤ room ∧
      10 ∉ (fgets room file).1.dropLast := by
  induction room generalizing file with
  | zero => exact ⟨rfl, Nat.le_refl 0, List.not_mem_nil⟩
  | succ room ih =>
    cases file with
    | nil => exact ⟨rfl, Nat.zero_le _, List.not_mem_nil⟩
    | cons c file =>
      by_cases feed : c = 10
      · subst feed
        exact ⟨rfl, Nat.succ_le_succ (Nat.zero_le room), List.not_mem_nil⟩
      · obtain ⟨whole, short, inside⟩ := ih file
        simp only [fgets, if_neg feed]
        refine ⟨congrArg (c :: ·) whole, Nat.succ_le_succ short, ?_⟩
        cases shape : (fgets room file).1 with
        | nil => exact List.not_mem_nil
        | cons next line =>
          rw [List.dropLast_cons_of_ne_nil (List.cons_ne_nil _ _), List.mem_cons, not_or, ← shape]
          exact ⟨fun same => feed same.symm, inside⟩

theorem fgets_line (absent : 10 ∉ line) (fits : line.length < room) (rest : Qstring) :
    fgets room (line ++ 10 :: rest) = (line ++ [10], rest) := by
  induction line generalizing room with
  | nil =>
    obtain ⟨room, rfl⟩ := Nat.exists_eq_add_one_of_ne_zero (Nat.ne_of_gt fits)
    rfl
  | cons c line ih =>
    simp only [List.mem_cons, not_or] at absent
    obtain ⟨room, rfl⟩ := Nat.exists_eq_add_one_of_ne_zero (Nat.ne_of_gt (Nat.zero_lt_of_lt fits))
    have other : ¬ c = 10 := fun same => absent.1 same.symm
    rw [List.cons_append, fgets, if_neg other, ih absent.2 (Nat.lt_of_succ_lt_succ fits)]
    rfl

theorem fgets_full (absent : 10 ∉ line) (rest : Qstring) :
    fgets line.length (line ++ rest) = (line, rest) := by
  induction line with
  | nil => cases rest <;> rfl
  | cons c line ih =>
    simp only [List.mem_cons, not_or] at absent
    have other : ¬ c = 10 := fun same => absent.1 same.symm
    rw [List.cons_append, List.length_cons, fgets, if_neg other, ih absent.2]

namespace QstatsCrawler

theorem not_mem_dropLast_prefix {s str : Qstring} (start : s <+: str) (absent : 10 ∉ str.dropLast) :
    10 ∉ s.dropLast := by
  intro inside
  rcases List.eq_nil_or_concat str with rfl | ⟨init, last, rfl⟩
  · rw [List.prefix_nil.mp start] at inside
    exact absurd inside List.not_mem_nil
  · rw [List.concat_eq_append] at start absent
    rw [List.dropLast_concat] at absent
    rcases List.prefix_concat_iff.mp start with rfl | shorter
    · rw [List.dropLast_concat] at inside
      exact absent inside
    · exact absent (shorter.subset ((List.dropLast_prefix s).subset inside))

theorem replaceNewline_spec (str : Qstring) :
    replaceNewlineWithZeroAtTheEnd str <+: str ∧ Clean (replaceNewlineWithZeroAtTheEnd str) ∧
      (10 ∉ str.dropLast → 10 ∉ replaceNewlineWithZeroAtTheEnd str) := by
  have start := cString_prefix str
  have clean := cString_clean str
  rw [replaceNewlineWithZeroAtTheEnd]
  split
  · exact ⟨(List.dropLast_prefix _).trans start, fun byte inside =>
      clean byte ((List.dropLast_prefix _).subset inside),
      not_mem_dropLast_prefix start⟩
  · rename_i other
    refine ⟨start, clean, fun absent inside => ?_⟩
    have inner := not_mem_dropLast_prefix start absent
    have filled := List.ne_nil_of_mem inside
    rw [← List.dropLast_append_getLast filled, List.mem_append, List.mem_singleton] at inside
    rcases inside with early | last
    · exact inner early
    · exact other (last ▸ List.getLast?_eq_getLast_of_ne_nil filled)

theorem replaceNewline_of_absent (clean : Clean line) (absent : 10 ∉ line) :
    replaceNewlineWithZeroAtTheEnd line = line := by
  rw [replaceNewlineWithZeroAtTheEnd, cString_of_nul_free clean, if_neg]
  exact fun last => absent (List.mem_of_getLast? last)

theorem replaceNewline_line (clean : Clean line) :
    replaceNewlineWithZeroAtTheEnd (line ++ [10]) = line := by
  have whole : Clean (line ++ [10]) := List.forall_mem_append.mpr ⟨clean, (by decide : Clean [10])⟩
  rw [replaceNewlineWithZeroAtTheEnd, cString_of_nul_free whole, if_pos List.getLast?_concat,
    List.dropLast_concat]

theorem fileLines_clean (rounds : Nat) (file : Qstring) :
    ∀ line ∈ fileLines rounds file, Clean line := by
  fun_induction fileLines rounds file with
  | case1 => exact fun _ inside => absurd inside List.not_mem_nil
  | case2 => exact fun _ inside => absurd inside List.not_mem_nil
  | case3 rounds file _ str rest _ ih =>
    exact List.forall_mem_cons.mpr ⟨(replaceNewline_spec str).2.1, ih⟩

/-- What is counted in a line is counted in the file. -/
theorem count_fileLines (rounds : Nat) (file : Qstring) (byte : UInt8) :
    ∀ line ∈ fileLines rounds file, line.count byte ≤ file.count byte := by
  fun_induction fileLines rounds file with
  | case1 => exact fun _ inside => absurd inside List.not_mem_nil
  | case2 => exact fun _ inside => absurd inside List.not_mem_nil
  | case3 rounds file _ str rest shape ih =>
    have whole : str ++ rest = file := by
      have spec := (fgets_spec (maxCharsInALine - 1) file).1
      rw [shape] at spec
      exact spec
    have total : file.count byte = str.count byte + rest.count byte := by
      rw [← whole, List.count_append]
    refine List.forall_mem_cons.mpr ⟨?_, fun line inside => ?_⟩
    · have first := (replaceNewline_spec str).1.sublist.count_le byte
      omega
    · have later := ih line inside
      omega

theorem fileLines_filled (filled : file ≠ []) (rounds : Nat) :
    fileLines (rounds + 1) file = replaceNewlineWithZeroAtTheEnd (fgets (maxCharsInALine - 1) file).1 ::
      fileLines rounds (fgets (maxCharsInALine - 1) file).2 := by
  obtain ⟨c, rest, rfl⟩ := List.exists_cons_of_ne_nil filled
  rfl

/-- A record is read in one piece: a line with all its separators is the first
one, from the start up to some byte of the last field. -/
theorem line_of_record {before last line : Qstring}
    (start : literal "count|" <+: before ++ 124 :: last) (separators : before.count 124 = 17)
    (absent : 124 ∉ last)
    (inside : line ∈
      fileLines (before ++ 124 :: last ++ [10]).length (before ++ 124 :: last ++ [10]))
    (many : 18 ≤ line.count 124) :
    ∃ t, line = before ++ 124 :: t ∧ t <+: last ∧ 10 ∉ line ∧
      line.length ≤ maxCharsInALine - 1 := by
  obtain ⟨tail, whole⟩ := start
  have filled : before ++ 124 :: last ++ [10] ≠ [] :=
    List.append_ne_nil_of_right_ne_nil _ (List.cons_ne_nil _ _)
  have length : (before ++ 124 :: last ++ [10]).length = (before ++ 124 :: last).length + 1 :=
    List.length_append
  rw [length, fileLines_filled filled, List.mem_cons] at inside
  obtain ⟨split, short, inner⟩ := fgets_spec (maxCharsInALine - 1) (before ++ 124 :: last ++ [10])
  have first : 1 ≤ (fgets (maxCharsInALine - 1) (before ++ 124 :: last ++ [10])).1.count 124 := by
    rw [← whole]
    apply List.one_le_count_iff.mpr
    have reads : (fgets (maxCharsInALine - 1) (literal "count|" ++ tail ++ [10])).1 =
      99 :: 111 :: 117 :: 110 :: 116 :: 124 :: (fgets (maxCharsInALine - 7) (tail ++ [10])).1 := rfl
    rw [reads]
    simp only [List.mem_cons, true_or, or_true]
  rcases inside with rfl | later
  · obtain ⟨prefixed, -, noFeed⟩ :=
      replaceNewline_spec (fgets (maxCharsInALine - 1) (before ++ 124 :: last ++ [10])).1
    have free := noFeed inner
    have bounded := prefixed.length_le
    have within := prefixed.trans ⟨_, split⟩
    generalize replaceNewlineWithZeroAtTheEnd
      (fgets (maxCharsInALine - 1) (before ++ 124 :: last ++ [10])).1 = line at *
    have starts : before <+: before ++ 124 :: last ++ [10] :=
      (List.prefix_append _ _).trans (List.prefix_append _ _)
    rcases List.prefix_or_prefix_of_prefix within starts with cut | full
    · have few := cut.sublist.count_le 124
      omega
    · obtain ⟨rest, rfl⟩ := full
      rw [List.append_assoc, List.prefix_append_right_inj, List.cons_append] at within
      cases rest with
      | nil =>
        rw [List.append_nil, separators] at many
        omega
      | cons c t =>
        obtain ⟨rfl, further⟩ := List.cons_prefix_cons.mp within
        refine ⟨t, rfl, ?_, free, Nat.le_trans bounded short⟩
        rcases List.prefix_concat_iff.mp further with rfl | further
        · simp only [List.mem_append, List.mem_cons, List.not_mem_nil, or_false, or_true,
            not_true_eq_false] at free
        · exact further
  · have few := count_fileLines _ _ 124 line later
    have total := congrArg (List.count 124) split
    have none : last.count 124 = 0 := List.count_eq_zero.mpr absent
    simp only [List.count_append, List.count_cons_self, separators, none,
      List.count_singleton] at total
    have feed : (if (10 : UInt8) == 124 then 1 else 0) = 0 := rfl
    omega

/-- If a line of the file of one record has all the fields and the last of them
as it was written, then it is the whole record. -/
theorem record_fits {fields : List Qstring} {last line : Qstring}
    (clean : Clean ([124].intercalate (fields ++ [last])))
    (start : literal "count|" <+: [124].intercalate (fields ++ [last]))
    (length : fields.length = 18) (absent : ∀ field ∈ fields, 124 ∉ field)
    (free : 124 ∉ last ∧ 39 ∉ last)
    (inside :
      line ∈ fileLines ([124].intercalate (fields ++ [last]) ++
      [10]).length ([124].intercalate (fields ++ [last]) ++ [10]))
    (count : (lineFields line).length = totalStatFields)
    (ending : (lineFields line)[18]? = some last) :
    10 ∉ [124].intercalate (fields ++ [last]) ∧
      ([124].intercalate (fields ++ [last])).length ≤ maxCharsInALine - 1 := by
  have filled : fields ≠ [] := by
    intro none
    rw [none] at length
    cases length
  have parts : ([124].intercalate fields).splitOn 124 = fields :=
    List.splitOn_intercalate 124 absent filled
  have separators : ([124].intercalate fields).count 124 = 17 := by
    have total := splitOn_length 124 ([124].intercalate fields)
    rw [parts, length] at total
    omega
  have whole : [124].intercalate (fields ++ [last]) = [124].intercalate fields ++ 124 :: last := by
    rw [intercalate_concat _ filled, List.append_assoc]
    rfl
  rw [whole] at start inside clean ⊢
  have cleanLine := fileLines_clean _ _ line inside
  obtain ⟨found, tail, split⟩ : ∃ found tail, line.splitOn 124 = found ++ [tail] :=
    ⟨_, _, (List.dropLast_append_getLast (List.splitOn_ne_nil 124 line)).symm⟩
  have many : 18 ≤ line.count 124 := by
    have pieces := splitOn_length 124 line
    rw [lineFields_of_splitOn cleanLine split, List.length_map] at count
    have fewer : (if tail ≠ [] ∧ found ≠ [] then found ++ [tail] else found).length ≤
        (line.splitOn 124).length := by
      rw [split]
      split_ifs
      · exact Nat.le_refl _
      · simp only [List.length_append]
        omega
    rw [count] at fewer
    simp only [totalStatFields] at fewer
    omega
  obtain ⟨t, rfl, cut, noFeed, short⟩ := line_of_record start separators free.1 inside many
  have again : ([124].intercalate fields ++ 124 :: t).splitOn 124 = fields ++ [t] := by
    rw [List.splitOn_append_cons_self, parts,
      List.splitOn_eq_singleton fun member => free.1 (cut.subset member)]
  have seen := lineFields_of_splitOn cleanLine again
  by_cases none : t = []
  · rw [if_neg fun both => both.1 none] at seen
    rw [seen, List.length_map, length] at count
    cases count
  · rw [if_pos ⟨none, filled⟩, List.map_append, List.map_singleton] at seen
    rw [seen, List.getElem?_append_right (by rw [List.length_map, length]), List.length_map, length,
      Nat.sub_self, List.getElem?_cons_zero, Option.some.injEq] at ending
    have same := cut.eq_of_length (by rw [← ending, List.length_map])
    subst same
    exact ⟨noFeed, short⟩

/-- A record without line feeds that fits into the reader's buffer is one line.
A line that fills the buffer leaves its line feed for an empty one. -/
theorem fileLines_record (clean : Clean record) (absent : 10 ∉ record)
    (fits : record.length ≤ maxCharsInALine - 1) :
    fileLines (record ++ [10]).length (record ++ [10]) = [record] ∨
      fileLines (record ++ [10]).length (record ++ [10]) = [record, []] := by
  have filled : record ++ [10] ≠ [] := List.append_ne_nil_of_right_ne_nil _ (List.cons_ne_nil _ _)
  rw [List.length_append, List.length_singleton, fileLines_filled filled]
  rcases Nat.lt_or_eq_of_le fits with shorter | full
  · left
    rw [fgets_line absent shorter, replaceNewline_line clean]
    cases record <;> rfl
  · right
    rw [← full, fgets_full absent, replaceNewline_of_absent clean absent, full]
    rfl

/-- The line of a counter in a file of its own. -/
theorem parseLines_single {line kind counter : Qstring} {fields : List Qstring}
    (shape : lineFields line = kind :: counter :: fields)
    (count : (lineFields line).length = totalStatFields)
    (isCount : operatorEq kind (literal "count") = true) :
    parseLines [line] = [(kind ++ literal "_" ++ counter, insertValues (lineFields line))] := by
  rw [shape] at count ⊢
  have long : ¬ (kind :: counter :: fields).length ≠ totalStatFields := not_not_intro count
  let batch : Batch := { value := insertValues (kind :: counter :: fields), count := 1 }
  have appended : appendCountStats ∅ (kind :: counter :: fields) =
      (∅ : TreeMap Qstring Batch).insert (kind ++ literal "_" ++ counter) batch := by
    rw [appendCountStats, if_neg long]
    rfl
  have listed : ((∅ : TreeMap Qstring Batch).insert (kind ++ literal "_" ++ counter) batch).toList =
      [(kind ++ literal "_" ++ counter, batch)] := by
    have perm := OrderedMap.toList_insert_new ∅ batch
      (OrderedMap.not_mem_iff_lookup.mpr (OrderedMap.lookup_empty (kind ++ literal "_" ++ counter)))
    rw [OrderedMap.toList_empty] at perm
    exact List.perm_singleton.mp perm
  have few : ¬ getNumberOfCountStats ((∅ : TreeMap Qstring Batch).insert (kind ++ literal "_" ++
      counter) batch) ≥ countStatsBatchCount := by
    rw [getNumberOfCountStats, listed]
    exact (by decide : ¬ 1 ≥ countStatsBatchCount)
  have parsed : parseLine {} line =
      { batches := (∅ : TreeMap Qstring Batch).insert (kind ++ literal "_" ++ counter) batch } := by
    simp only [parseLine, shape, if_pos isCount, appended, if_neg few]
  have some : 0 < ((∅ : TreeMap Qstring Batch).insert (kind ++ literal "_" ++ counter) batch).size := by
    rw [← TreeMap.length_toList, listed]
    exact Nat.zero_lt_one
  rw [parseLines, List.foldl_cons, List.foldl_nil, parsed, if_pos some, batchSendCountStats, listed]
  rfl

end QstatsCrawler
end Gearsdk
