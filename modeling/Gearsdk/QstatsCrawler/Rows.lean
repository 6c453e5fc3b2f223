import Gearsdk.QstatsCrawler
import Gearsdk.Sql

/-! The rows of the statements that the crawler makes of lines, field by field. -/
namespace Gearsdk
open Std Qstring

/-! ### Joined texts -/

namespace Qstring

theorem splitOn_length (delimiter : UInt8) (s : Qstring) :
    (s.splitOn delimiter).length = s.count delimiter + 1 := by
  induction s with
  | nil => rfl
  | cons c rest ih =>
    rw [List.splitOn_cons_eq_if_modifyHead, List.count_cons]
    by_cases same : c = delimiter
    · rw [if_pos (beq_iff_eq.mpr same), if_pos (beq_iff_eq.mpr same), List.length_cons, ih]
    · rw [if_neg (by simpa only [beq_iff_eq] using same),
        if_neg (by simpa only [beq_iff_eq] using same), List.length_modifyHead, ih, Nat.add_zero]

/-- One text among texts without the delimiter may fall into several. -/
theorem splitOn_joined {before after : List Qstring} {delimiter : UInt8} (s : Qstring)
    (absentBefore : ∀ part ∈ before, delimiter ∉ part)
    (absentAfter : ∀ part ∈ after, delimiter ∉ part) (filled : after ≠ []) :
    ([delimiter].intercalate (before ++ s :: after)).splitOn delimiter = before ++
    (s.splitOn delimiter ++ after) := by
  induction before with
  | nil =>
    rw [List.nil_append, List.nil_append, List.intercalate_cons_of_ne_nil filled, List.append_assoc,
      List.singleton_append, List.splitOn_append_cons_self,
      List.splitOn_intercalate delimiter absentAfter filled]
  | cons part rest ih =>
    obtain ⟨here, later⟩ := List.forall_mem_cons.mp absentBefore
    rw [List.cons_append,
      List.intercalate_cons_of_ne_nil (List.append_ne_nil_of_right_ne_nil _ (List.cons_ne_nil _ _)),
      List.append_assoc, List.singleton_append,
        List.splitOn_append_cons_self_of_not_mem here, ih later]
    rfl

theorem foldl_separated (delimiter : UInt8) (first : Qstring) (fields : List Qstring) :
    fields.foldl (fun buffer field => buffer ++ [delimiter] ++ field) first =
      [delimiter].intercalate (first :: fields) := by
  induction fields generalizing first with
  | nil => rw [List.foldl_nil, List.intercalate_singleton]
  | cons field rest ih =>
    rw [List.foldl_cons, ih, List.intercalate_cons_cons]
    cases rest with
    | nil => simp only [List.intercalate_singleton]
    | cons next rest => simp only [List.intercalate_cons_cons, List.append_assoc]

end Qstring

namespace QstatsCrawler

/-- What the crawler makes of a byte. -/
def unquote (byte : UInt8) : UInt8 := if byte = 39 then 35 else byte

theorem replace_quotes {s : Qstring} (clean : Clean s) :
    s.replace (literal "'") (literal "#") = s.map unquote := replace_single clean 39 35

theorem not_mem_unquote {s : Qstring} {delimiter : UInt8}
    (other : delimiter ≠ 39 ∧ delimiter ≠ 35) :
    delimiter ∉ s.map unquote ↔ delimiter ∉ s := by
  have same : ∀ byte : UInt8, unquote byte = delimiter ↔ byte = delimiter := by
    intro byte
    by_cases quote : byte = 39
    · subst quote
      exact ⟨fun eq => absurd eq.symm other.2, fun eq => absurd eq.symm other.1⟩
    · rw [unquote, if_neg quote]
  simp only [List.mem_map, same, exists_eq_right]

theorem quote_not_mem_unquote (s : Qstring) : 39 ∉ s.map unquote := by
  simp only [List.mem_map, not_exists, not_and]
  intro byte _
  by_cases quote : byte = 39
  · subst quote
    decide
  · rw [unquote, if_neg quote]
    exact quote

theorem map_unquote {s : Qstring} (free : 39 ∉ s) : s.map unquote = s := by
  have same : s.map unquote = s.map id := by
    apply List.map_congr_left
    intro byte inside
    have other : byte ≠ 39 := fun quote => free (quote ▸ inside)
    exact if_neg other
  rw [same, List.map_id]

/-- The fields of a line as the crawler sees them. -/
theorem lineFields_of_splitOn (clean : Clean line) (parts : line.splitOn 124 = found ++ [last]) :
    lineFields line = (if last ≠ [] ∧ found ≠ [] then found ++ [last]
      else found).map (List.map unquote) := by
  have replaced : ∀ piece : Qstring, piece ∈ found ++ [last] →
      piece.replace (literal "'") (literal "#") = piece.map unquote := by
    intro piece inside
    exact replace_quotes fun byte member =>
      clean byte ((mem_splitOn (parts ▸ inside)).2 byte member)
  have pieces : line.split (literal "|") true = if last ≠ [] ∧ found ≠ [] then found ++ [last]
    else found :=
    split_single clean parts
  rw [lineFields, pieces]
  apply List.map_congr_left
  intro piece inside
  split at inside
  · exact replaced piece inside
  · exact replaced piece (List.mem_append_left _ inside)

/-- No separator, no quote and no terminator is in a field. -/
theorem mem_lineFields (clean : Clean line) (inside : field ∈ lineFields line) :
    124 ∉ field ∧ 39 ∉ field ∧ Clean field := by
  obtain ⟨found, last, parts⟩ : ∃ found last, line.splitOn 124 = found ++ [last] :=
    ⟨_, _, (List.dropLast_append_getLast (List.splitOn_ne_nil 124 line)).symm⟩
  rw [lineFields_of_splitOn clean parts, List.mem_map] at inside
  obtain ⟨piece, member, rfl⟩ := inside
  have split : piece ∈ line.splitOn 124 := by
    rw [parts]
    split at member
    · exact member
    · exact List.mem_append_left _ member
  obtain ⟨absent, within⟩ := mem_splitOn split
  have noNul : (0 : UInt8) ∉ piece := fun nul => clean 0 (within 0 nul) rfl
  refine ⟨(not_mem_unquote (by decide)).mpr absent, quote_not_mem_unquote piece,
    fun byte member nul => ?_⟩
  exact (not_mem_unquote (by decide)).mpr noNul (nul ▸ member)

/-! ### Statements -/

/-- The line of a counter with all its fields. -/
structure Counts (line : Qstring) : Prop where
  fields : (lineFields line).length = totalStatFields
  kind : operatorEq ((lineFields line).getD 0 []) (literal "count") = true

/-- The statement begins with the values of one of the lines. -/
def Stems (lines : List Qstring) (key value : Qstring) : Prop :=
  ∃ line ∈ lines, Counts line ∧ batchKey (lineFields line) = key ∧
    ∃ more, value = insertValues (lineFields line) ++ more

structure Crawler.Stems (lines : List Qstring) (c : Crawler) : Prop where
  batches : ∀ key batch, c.batches[key]? = some batch → QstatsCrawler.Stems lines key batch.value
  sent : ∀ statement ∈ c.sent, QstatsCrawler.Stems lines statement.1 statement.2

theorem batchSendCountStats_stems (stems : Crawler.Stems lines c) :
    Crawler.Stems lines (batchSendCountStats c) where
  batches key batch found := by
    rw [batchSendCountStats, OrderedMap.lookup_empty] at found
    cases found
  sent := by
    rw [batchSendCountStats, List.forall_mem_append]
    refine ⟨stems.sent, ?_⟩
    simp only [List.forall_mem_map]
    exact fun kv inside => stems.batches kv.1 kv.2 (TreeMap.mem_toList_iff_getElem?_eq_some.mp inside)

theorem appendCountStats_stems (stems : Crawler.Stems lines c) (inside : line ∈ lines)
    (kind : operatorEq ((lineFields line).getD 0 []) (literal "count") = true) :
    Crawler.Stems lines { c with batches := appendCountStats c.batches (lineFields line) } where
  sent := stems.sent
  batches key batch found := by
    by_cases short : (lineFields line).length ≠ totalStatFields
    · simp only [appendCountStats, if_pos short] at found
      exact stems.batches key batch found
    · have counts : Counts line := ⟨not_not.mp short, kind⟩
      simp only [appendCountStats, if_neg short, OrderedMap.lookup_insert] at found
      by_cases same : batchKey (lineFields line) = key
      · rw [if_pos same] at found
        obtain rfl := Option.some.inj found
        by_cases known : c.batches.contains key = true
        · obtain ⟨old, read⟩ := OrderedMap.mem_iff_lookup.mp (TreeMap.mem_iff_contains.mpr known)
          obtain ⟨first, firstInside, firstCounts, firstKey, more, shape⟩ :=
            stems.batches key old read
          have value : (c.batches.getD key {}).value = insertValues (lineFields first) ++ more := by
            rw [TreeMap.getD_eq_getD_getElem?, read, Option.getD_some, shape]
          refine ⟨first, firstInside, firstCounts, firstKey,
            more ++ literal "," ++ insertValues (lineFields line), ?_⟩
          simp only [same, if_pos known, value, List.append_assoc]
        · have absent : c.batches[key]? = none := by
            rw [← OrderedMap.not_mem_iff_lookup, TreeMap.mem_iff_contains]
            exact known
          refine ⟨line, inside, counts, same, [], ?_⟩
          simp only [same, if_neg known, TreeMap.getD_eq_getD_getElem?, absent, Option.getD_none,
            List.nil_append, List.append_nil]
      · rw [if_neg same] at found
        exact stems.batches key batch found

theorem parseLine_stems (stems : Crawler.Stems lines c) (inside : line ∈ lines) :
    Crawler.Stems lines (parseLine c line) := by
  cases shape : lineFields line with
  | nil =>
    simp only [parseLine, shape]
    exact stems
  | cons kind fields =>
    simp only [parseLine, shape]
    by_cases counter : operatorEq kind (literal "count") = true
    · have first : operatorEq ((lineFields line).getD 0 []) (literal "count") = true := by
        rw [shape]
        exact counter
      have appended := appendCountStats_stems stems inside first
      rw [shape] at appended
      rw [if_pos counter]
      split
      · exact batchSendCountStats_stems appended
      · exact appended
    · rw [if_neg counter]
      exact stems

theorem parseLines_stems (lines : List Qstring) :
    ∀ statement ∈ parseLines lines, Stems lines statement.1 statement.2 := by
  have all : ∀ more : List Qstring, (∀ line ∈ more, line ∈ lines) → ∀ c, Crawler.Stems lines c →
      Crawler.Stems lines (more.foldl parseLine c) := by
    intro more
    induction more with
    | nil => exact fun _ _ stems => stems
    | cons line rest ih =>
      intro within c stems
      obtain ⟨here, later⟩ := List.forall_mem_cons.mp within
      exact ih later _ (parseLine_stems stems here)
  have initial : Crawler.Stems lines {} :=
    ⟨fun key batch found => absurd (OrderedMap.lookup_empty key ▸ found) (Option.some_ne_none batch).symm,
      fun _ inside => absurd inside List.not_mem_nil⟩
  have stems := all lines (fun _ inside => inside) {} initial
  rw [parseLines]
  split
  · exact (batchSendCountStats_stems stems).sent
  · exact stems.sent

/-! ### Rows -/

/-- The rows of the statements that are valid: the name of the table and the values. -/
def rows (statements : List (Qstring × Qstring)) : List (Qstring × List Sql.Value) :=
  statements.flatMap fun statement => ((Sql.values statement.2).getD []).map fun values =>
    (statement.1, values)

def formatted (list : List Qstring) : List Qstring :=
  (list.zipIdx.drop 2).map fun field => formatField field.2 field.1

theorem formatted_getElem? (list : List Qstring) (i : Nat) :
    (formatted list)[i]? = (list[2 + i]?).map (formatField (2 + i)) := by
  simp only [formatted, List.getElem?_map, List.getElem?_drop, List.getElem?_zipIdx, Option.map_map,
    Nat.zero_add]
  rfl

theorem insertValues_eq (list : List Qstring) : insertValues list = Sql.row (formatted list) := rfl

theorem flatMap_eq_singleton {l : List α} {f : α → List β} {b : β} (single : l.flatMap f = [b]) :
    ∃ a ∈ l, f a = [b] := by
  induction l with
  | nil => cases single
  | cons a rest ih =>
    rw [List.flatMap_cons] at single
    rcases List.append_eq_singleton_iff.mp single with ⟨-, later⟩ | ⟨here, -⟩
    · obtain ⟨other, inside, found⟩ := ih later
      exact ⟨other, List.mem_cons_of_mem a inside, found⟩
    · exact ⟨a, List.mem_cons_self, here⟩

theorem formatField_cut (x : Nat) (clean : Clean field) (free : 39 ∉ field) :
    39 ∉ formatField x field ∨ Sql.Solid (formatField x field) := by
  rw [formatField, cString_of_nul_free clean]
  split
  · exact .inl free
  · split
    · exact .inl free
    · exact .inr (Sql.solid_quoted free)

/-- A single row comes from one line of a counter, field by field. -/
theorem rows_single (single : rows (parseLines lines) = [(key, vs)]) (full : vs.length = 17)
    (clean : ∀ line ∈ lines, Clean line) :
    ∃ line ∈ lines, Counts line ∧ batchKey (lineFields line) = key ∧
      ∀ i, ((lineFields line)[2 + i]?).map (fun field =>
        Sql.readValue (formatField (2 + i) field)) = vs[i]?.map some := by
  obtain ⟨⟨key', value⟩, sent, found⟩ := flatMap_eq_singleton single
  obtain ⟨vs', values, same⟩ := List.map_eq_singleton_iff.mp found
  obtain ⟨rfl, rfl⟩ := Prod.mk.inj same
  have read : Sql.values value = some [vs'] := by
    cases shape : Sql.values value with
    | none =>
      rw [shape] at values
      cases values
    | some all =>
      rw [shape, Option.getD_some] at values
      rw [values]
  obtain ⟨line, inside, counts, keyed, more, rfl⟩ := parseLines_stems lines _ sent
  have count : (formatted (lineFields line)).length = 17 := by
    rw [formatted, List.length_map, List.length_drop, List.length_zipIdx, counts.fields]
    rfl
  have cut : ∀ e ∈ formatted (lineFields line), 39 ∉ e ∨ Sql.Solid e := by
    intro e member
    obtain ⟨⟨field, x⟩, place, rfl⟩ := List.mem_map.mp member
    have listed := List.mem_of_mem_drop place
    obtain ⟨-, free, cleanField⟩ :=
      mem_lineFields (clean line inside) (List.fst_mem_of_mem_zipIdx listed)
    exact formatField_cut x cleanField free
  have filled : formatted (lineFields line) ≠ [] := by
    intro none
    rw [none] at count
    cases count
  obtain ⟨-, exactly⟩ := Sql.values_single filled cut read (full.trans count.symm)
  refine ⟨line, inside, counts, keyed, fun i => ?_⟩
  have place := congrArg (·[i]?) (Sql.mapM_some_iff.mp exactly)
  simp only [List.getElem?_map, formatted_getElem?, Option.map_map] at place
  exact place

theorem readValue_formatField_text (clean : Clean field) (free : 39 ∉ field)
    (quoted : x ≠ 2 ∧ x ≠ 12) (read : Sql.readValue (formatField x field) = some (.text t)) :
    field = t ∧ t ≠ literal "NULL" := by
  rw [formatField, cString_of_nul_free clean] at read
  by_cases null : operatorEq field (literal "NULL") = true
  · obtain rfl := (operatorEq_iff clean (by decide)).mp null
    cases read
  · rw [if_neg null, if_neg (not_or.mpr quoted), Sql.readValue_quoted free] at read
    obtain rfl := Sql.Value.text.inj (Option.some.inj read)
    exact ⟨rfl, fun same => null ((operatorEq_iff clean (by decide)).mpr same)⟩

/-- The two unquoted fields are never texts. -/
theorem readValue_formatField_bare (clean : Clean field) (free : 39 ∉ field) (bare : x = 2 ∨ x = 12)
    (t : Qstring) :
    Sql.readValue (formatField x field) ≠ some (.text t) := by
  have unquoted : formatField x field = field := by
    rw [formatField, cString_of_nul_free clean, if_pos bare, ite_self]
  rw [unquoted, Sql.readValue_bare free]
  split
  · exact fun read => absurd (Option.some.inj read) (fun same => nomatch same)
  · cases Sql.readInteger field with
    | none => exact fun read => nomatch read
    | some i => exact fun read => nomatch Option.some.inj read

/-- A text among the values of a row is a field of the line. -/
theorem field_of_text {vs : List Sql.Value} (clean : Clean line)
    (read : ∀ i,
      ((lineFields line)[2 + i]?).map (fun field => Sql.readValue (formatField (2 + i) field)) =
        vs[i]?.map some)
    (place : vs[i]? = some (.text t)) (quoted : i ≠ 0 ∧ i ≠ 10) :
    (lineFields line)[2 + i]? = some t ∧ t ≠ literal "NULL" ∧ 124 ∉ t ∧ 39 ∉ t ∧ Clean t := by
  have here := read i
  rw [place, Option.map_some, Option.map_eq_some_iff] at here
  obtain ⟨field, found, value⟩ := here
  obtain ⟨separator, quote, cleanField⟩ := mem_lineFields clean (List.mem_of_getElem? found)
  obtain ⟨rfl, notNull⟩ := readValue_formatField_text cleanField quote (by omega) value
  exact ⟨found, notNull, separator, quote, cleanField⟩

theorem counter_of_key (clean : Clean line) (counts : Counts line)
    (keyed : batchKey (lineFields line) = literal "count_" ++ counter) :
    (lineFields line)[1]? = some counter := by
  obtain ⟨kind, field, rest, shape⟩ : ∃ kind field rest, lineFields line = kind :: field ::
      rest := by
    have length := counts.fields
    match lineFields line, length with
    | kind :: field :: rest, _ => exact ⟨kind, field, rest, rfl⟩
  have first := counts.kind
  have member : kind ∈ lineFields line := shape ▸ List.mem_cons_self
  rw [shape, List.getD_cons_zero, operatorEq_iff (mem_lineFields clean member).2.2 (by decide)] at first
  subst first
  rw [shape] at keyed ⊢
  have same : literal "count" ++ literal "_" ++ field = literal "count" ++ literal "_" ++ counter :=
    keyed
  rw [List.getElem?_cons_succ, List.getElem?_cons_zero, List.append_cancel_left same]

/-- A line with one field that may fall apart: if the last field is as it was
written, it did not. -/
theorem lineFields_joined {before after : List Qstring} {s last full : Qstring} (clean : Clean line)
    (shape : line = [124].intercalate (before ++ s :: (after ++ [full, last])))
    (absentBefore : ∀ part ∈ before, 124 ∉ part)
    (absentAfter : ∀ part ∈ after ++ [full, last], 124 ∉ part) (filled : full ≠ [])
    (count : (lineFields line).length = before.length + after.length + 3)
    (ending : (lineFields line)[before.length + after.length + 2]? = some last) :
    124 ∉ s ∧ last ≠ [] ∧
      lineFields line = (before ++ s :: (after ++ [full, last])).map (List.map unquote) := by
  have parts : line.splitOn 124 = (before ++ (s.splitOn 124 ++ (after ++ [full]))) ++ [last] := by
    rw [shape, splitOn_joined s absentBefore absentAfter (List.append_ne_nil_of_right_ne_nil _
      (List.cons_ne_nil _ _))]
    simp only [List.append_assoc, List.cons_append, List.nil_append]
  have found : before ++ (s.splitOn 124 ++ (after ++ [full])) ≠ [] := by
    intro none
    simp only [List.append_eq_nil_iff, List.cons_ne_self, and_false] at none
  have seen := lineFields_of_splitOn clean parts
  by_cases none : last = []
  · subst none
    rw [if_neg fun both => both.1 rfl] at seen
    have final : (lineFields line).getLast? = some [] := by
      rw [List.getLast?_eq_getElem?, count]
      exact ending
    rw [seen, ← List.append_assoc, ← List.append_assoc, List.map_append, List.map_singleton,
      List.getLast?_concat, Option.some.injEq, List.map_eq_nil_iff] at final
    exact absurd final filled
  · rw [if_pos ⟨none, found⟩] at seen
    have single : (s.splitOn 124).length = 1 := by
      have total := count
      rw [seen] at total
      simp only [List.length_map, List.length_append, List.length_cons, List.length_nil] at total
      omega
    obtain ⟨piece, alone⟩ := List.length_eq_one_iff.mp single
    have same : s = piece := by
      rw [← (List.intercalate_splitOn 124 : [124].intercalate (s.splitOn 124) = s), alone,
        List.intercalate_singleton]
    subst same
    refine ⟨(mem_splitOn (alone ▸ List.mem_cons_self)).1, none, ?_⟩
    rw [seen, alone]
    simp only [List.append_assoc, List.cons_append, List.nil_append]

end QstatsCrawler
end Gearsdk
