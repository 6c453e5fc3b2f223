import Gearsdk.Qstring.Split

/-! Replacement of any length, compared with the replacement of every occurrence
from left to right. Whether the text ends with an occurrence is found out by a
search from a place that depends on the length of the replacement. -/
namespace Gearsdk
namespace Qstring

/-- `utstring_find`. A negative start counts from the end, and the rest of the text
is as long as its distance from there. `none` begins to read before the text. -/
def findFrom (s sub : Qstring) (start : Int) : Option (Option Nat) :=
  let start := if start < 0 then s.length + start else start
  if sub.length ≤ s.length - start ∧ sub ≠ [] then
    if start < 0 then none else some ((find sub (s.drop start.toNat)).map (start.toNat + ·))
  else some none

/-- `replace` for a replacement of any length. -/
def replaceText (s sub str : Qstring) : Option Qstring :=
  let array := s.split sub true
  if s.length = 0 ∨ array = [] then some s
  else (s.findFrom sub (s.length - str.length)).map fun position =>
    str.intercalate array ++ if position = some (s.length - sub.length) then str else []

/-- Every occurrence from left to right; `skip` bytes belong to the last one. -/
def replaceFrom (sub str : Qstring) : (skip : Nat) → Qstring → Qstring
  | _, [] => []
  | skip + 1, _ :: rest => replaceFrom sub str skip rest
  | 0, c :: rest =>
      if sub ≠ [] ∧ sub.isPrefixOf (c :: rest) then str ++ replaceFrom sub str (sub.length - 1) rest
      else c :: replaceFrom sub str 0 rest

def replaceAll (sub str s : Qstring) : Qstring := replaceFrom sub str 0 s

/-- The place from which the end of the text is searched. -/
def searchStart (s str : Qstring) : Nat :=
  if str.length ≤ s.length then s.length - str.length else 2 * s.length - str.length

/-- From `start` on there is an occurrence at the end and none before it. -/
structure EndsFirst (s sub : Qstring) (start : Nat) : Prop where
  inside : start + sub.length ≤ s.length
  ends : sub <:+ s
  first : ∀ i, start ≤ i → i + sub.length < s.length → ¬ sub <+: s.drop i

/-- The parts of a text that no occurrence covers. -/
def uncovered (sub s : Qstring) : List Qstring :=
  (pieces sub s.length s).1 ++ [(pieces sub s.length s).2]

def remainder (sub s : Qstring) : Qstring := (pieces sub s.length s).2

/-- The conditions under which `replace` is exact. -/
inductive ReplacesExactly (s sub str : Qstring) : Prop where
  | absent (absent : sub = [] ∨ ¬ sub <:+: s)
  | ending (short : str.length ≤ 2 * s.length) (clean : ∀ part ∈ uncovered sub s, Clean part)
      (same : str = [] ∨ (EndsFirst s sub (searchStart s str) ↔ remainder sub s = []))
  /-- A replacement too many has the bytes that are cut off behind NULs. -/
  | chance (short : str.length ≤ 2 * s.length) (extra : EndsFirst s sub (searchStart s str))
      (filled : remainder sub s ≠ [])
      (cut : ¬ ∀ part ∈ uncovered sub s, Clean part)
      (same : str.intercalate ((uncovered sub s).map cString) ++ str = str.intercalate (uncovered sub s))

/-! ### The leftmost occurrence -/

theorem find_some_iff {sub s : Qstring} :
    find sub s = some i ↔ sub ≠ [] ∧ sub <+: s.drop i ∧ ∀ j < i, ¬ sub <+: s.drop j := by
  induction s generalizing i with
  | nil =>
    refine iff_of_false (by simp [find]) ?_
    rintro ⟨filled, occurs, _⟩
    rw [List.drop_nil] at occurs
    exact filled (List.prefix_nil.mp occurs)
  | cons c rest ih =>
    rw [find]
    by_cases here : sub ≠ [] ∧ sub.isPrefixOf (c :: rest) = true
    · rw [if_pos here, Option.some.injEq]
      have begins := List.isPrefixOf_iff_prefix.mp here.2
      constructor
      · rintro rfl
        exact ⟨here.1, begins, fun j below => absurd below (Nat.not_lt_zero j)⟩
      · rintro ⟨_, _, first⟩
        by_contra later
        exact first 0 (Nat.pos_of_ne_zero fun zero => later zero.symm) begins
    · rw [if_neg here, Option.map_eq_some_iff]
      constructor
      · rintro ⟨i, found, rfl⟩
        obtain ⟨filled, occurs, first⟩ := ih.mp found
        refine ⟨filled, occurs, fun j below begins => ?_⟩
        cases j with
        | zero => exact here ⟨filled, List.isPrefixOf_iff_prefix.mpr begins⟩
        | succ j => exact first j (Nat.lt_of_succ_lt_succ below) begins
      · rintro ⟨filled, occurs, first⟩
        cases i with
        | zero => exact absurd ⟨filled, List.isPrefixOf_iff_prefix.mpr occurs⟩ here
        | succ i =>
          refine ⟨i, ih.mpr ⟨filled, occurs, fun j below => ?_⟩, rfl⟩
          exact first (j + 1) (Nat.succ_lt_succ below)

theorem find_none_iff {sub s : Qstring} : find sub s = none ↔ sub = [] ∨ ¬ sub <:+: s := by
  induction s with
  | nil =>
    refine iff_of_true rfl ?_
    rw [List.infix_nil]
    exact Classical.em _
  | cons c rest ih =>
    rw [find, List.infix_cons_iff, not_or]
    by_cases here : sub ≠ [] ∧ sub.isPrefixOf (c :: rest) = true
    · rw [if_pos here]
      refine iff_of_false (Option.some_ne_none 0) ?_
      rintro (empty | ⟨absent, _⟩)
      · exact here.1 empty
      · exact absent (List.isPrefixOf_iff_prefix.mp here.2)
    · rw [if_neg here, Option.map_eq_none_iff, ih]
      refine or_congr_right' fun filled => ?_
      exact (and_iff_right fun begins => here ⟨filled, List.isPrefixOf_iff_prefix.mpr begins⟩).symm

theorem length_of_find {sub s : Qstring} (found : find sub s = some i) :
    i + sub.length ≤ s.length := by
  obtain ⟨filled, occurs, _⟩ := find_some_iff.mp found
  have length := occurs.length_le
  have some_byte := List.length_pos_iff.mpr filled
  rw [List.length_drop] at length
  omega

/-! ### The reference -/

theorem replaceFrom_skip (sub str : Qstring) (skip : Nat) (s : Qstring) :
    replaceFrom sub str skip s = replaceAll sub str (s.drop skip) := by
  induction skip generalizing s with
  | zero => rfl
  | succ skip ih =>
    cases s with
    | nil => rfl
    | cons c rest => exact ih rest

theorem replaceAll_absent {sub s : Qstring} (absent : find sub s = none) :
    replaceAll sub str s = s := by
  induction s with
  | nil => rfl
  | cons c rest ih =>
    rw [find] at absent
    split at absent
    · contradiction
    · rename_i elsewhere
      rw [replaceAll, replaceFrom, if_neg elsewhere]
      exact congrArg (c :: ·) (ih (Option.map_eq_none_iff.mp absent))

theorem replaceAll_found {sub s : Qstring} (found : find sub s = some len) :
    replaceAll sub str s = s.take len ++ (str ++ replaceAll sub str (s.drop (len + sub.length))) := by
  induction s generalizing len with
  | nil => contradiction
  | cons c rest ih =>
    rw [find] at found
    split at found
    · rename_i here
      cases Option.some.inj found
      have counted : sub.length = (sub.length - 1) + 1 :=
        (Nat.sub_add_cancel (List.length_pos_iff.mpr here.1)).symm
      rw [replaceAll, replaceFrom, if_pos here, replaceFrom_skip, Nat.zero_add, counted,
        List.drop_succ_cons]
      rfl
    · rename_i elsewhere
      obtain ⟨i, later, rfl⟩ := Option.map_eq_some_iff.mp found
      rw [replaceAll, replaceFrom, if_neg elsewhere, Nat.add_right_comm, List.drop_succ_cons]
      exact congrArg (c :: ·) (ih later)

/-- The replacement stands between the parts that no occurrence covers. -/
theorem replaceAll_pieces {sub s : Qstring} (enough : s.length ≤ rounds) :
    replaceAll sub str s = str.intercalate ((pieces sub rounds s).1 ++ [(pieces sub rounds s).2]) := by
  induction rounds generalizing s with
  | zero =>
    obtain rfl := List.length_eq_zero_iff.mp (Nat.le_zero.mp enough)
    rfl
  | succ rounds ih =>
    rw [pieces]
    cases found : find sub s with
    | none => exact (replaceAll_absent found).trans (List.intercalate_singleton).symm
    | some len =>
      have filled := List.length_pos_iff.mpr (find_some_iff.mp found).1
      have shorter : (s.drop (len + sub.length)).length ≤ rounds := by
        rw [List.length_drop]
        omega
      rw [replaceAll_found found, ih shorter]
      dsimp only
      rw [List.cons_append,
        List.intercalate_cons_of_ne_nil (List.append_ne_nil_of_right_ne_nil _ (List.cons_ne_nil _ _)),
        List.append_assoc]

theorem replaceAll_eq (sub str s : Qstring) :
    replaceAll sub str s = str.intercalate (uncovered sub s) :=
  replaceAll_pieces (Nat.le_refl _)

theorem pieces_ne_nil {sub s : Qstring} (found : find sub s = some len) :
    (pieces sub s.length s).1 ≠ [] := by
  cases s with
  | nil => contradiction
  | cons c rest =>
    rw [List.length_cons, pieces, found]
    exact List.cons_ne_nil _ _

/-! ### The search at the end -/

theorem findFrom_outside {s sub str : Qstring} (found : find sub s = some len)
    (long : 2 * s.length < str.length) :
    s.findFrom sub (s.length - str.length) = none := by
  have filled := (find_some_iff.mp found).1
  have fits := length_of_find found
  have negative : (s.length : Int) - str.length < 0 := by omega
  have before : (s.length : Int) + (s.length - str.length) < 0 := by omega
  have haystack : (sub.length : Int) ≤ s.length - (s.length + (s.length - str.length)) := by omega
  simp only [findFrom, if_pos negative]
  rw [if_pos ⟨haystack, filled⟩, if_pos before]

theorem findFrom_start (s sub str : Qstring) (short : str.length ≤ 2 * s.length) :
    s.findFrom sub (s.length - str.length) =
      if searchStart s str + sub.length ≤ s.length ∧ sub ≠ [] then
        some ((find sub (s.drop (searchStart s str))).map (searchStart s str + ·))
      else some none := by
  have start : (if (s.length : Int) - str.length < 0 then (s.length : Int) + (s.length - str.length)
      else s.length - str.length) = searchStart s str := by
    rw [searchStart]
    split
    · rw [if_neg (by omega)]
      omega
    · rw [if_pos (by omega)]
      omega
  have within : searchStart s str ≤ s.length := by
    rw [searchStart]
    split <;> omega
  have haystack : ((sub.length : Int) ≤ s.length - searchStart s str) =
      (searchStart s str + sub.length ≤ s.length) := by
    rw [eq_iff_iff]
    omega
  simp only [findFrom, start, haystack, Int.toNat_natCast,
    if_neg (Int.not_lt.mpr (Int.natCast_nonneg _))]

theorem suffix_iff_prefix_drop {sub s : Qstring} (fits : sub.length ≤ s.length) :
    sub <:+ s ↔ sub <+: s.drop (s.length - sub.length) := by
  have length : (s.drop (s.length - sub.length)).length = sub.length := by
    rw [List.length_drop]
    omega
  rw [List.suffix_iff_eq_drop]
  constructor
  · intro same
    exact same ▸ List.prefix_refl _
  · intro begins
    exact begins.eq_of_length length.symm

theorem findFrom_inside {s sub str : Qstring} (filled : sub ≠ [])
    (short : str.length ≤ 2 * s.length) :
    ∃ position, s.findFrom sub (s.length - str.length) = some position ∧
      (position = some (s.length - sub.length) ↔ EndsFirst s sub (searchStart s str)) := by
  rw [findFrom_start s sub str short]
  generalize searchStart s str = start
  by_cases fits : start + sub.length ≤ s.length
  · refine ⟨_, if_pos ⟨fits, filled⟩, ?_⟩
    have place : ∀ i, (i = s.length - sub.length - start ↔ start + i = s.length - sub.length) :=
      fun i => by omega
    have ending : sub <:+ s ↔ sub <+: (s.drop start).drop (s.length - sub.length - start) := by
      rw [List.drop_drop, (place _).mp rfl]
      exact suffix_iff_prefix_drop (by omega)
    have found : (find sub (s.drop start)).map (start + ·) = some (s.length - sub.length) ↔
        find sub (s.drop start) = some (s.length - sub.length - start) := by
      rw [Option.map_eq_some_iff]
      constructor
      · rintro ⟨i, found, same⟩
        rwa [← (place i).mpr same]
      · intro found
        exact ⟨_, found, (place _).mp rfl⟩
    rw [found, find_some_iff, ← ending]
    constructor
    · rintro ⟨_, ends, first⟩
      refine ⟨fits, ends, fun i after before begins => ?_⟩
      refine first (i - start) (by omega) ?_
      rwa [List.drop_drop, Nat.add_sub_cancel' after]
    · rintro ⟨_, ends, first⟩
      refine ⟨filled, ends, fun i before begins => ?_⟩
      rw [List.drop_drop] at begins
      exact first (start + i) (Nat.le_add_right _ _) (by omega) begins
  · refine ⟨none, if_neg fun both => fits both.1, iff_of_false (by simp) fun ends =>
      fits ends.inside⟩

/-! ### What is cut off -/

theorem length_intercalate_map_le {copy : Qstring → Qstring} (begins : ∀ part, copy part <+: part)
    (str : Qstring) (parts : List Qstring) :
    (str.intercalate (parts.map copy)).length ≤ (str.intercalate parts).length := by
  induction parts with
  | nil => exact Nat.le_refl _
  | cons part rest ih =>
    have shorter := (begins part).length_le
    cases rest with
    | nil => simpa only [List.map_cons, List.map_nil, List.intercalate_singleton] using shorter
    | cons next rest =>
      rw [List.map_cons, List.map_cons, List.intercalate_cons_cons, List.intercalate_cons_cons,
        ← List.map_cons]
      simp only [List.length_append]
      omega

/-- Where copies are beginnings of what is copied, joining tells every copy that is shorter. -/
theorem intercalate_map_iff {copy : Qstring → Qstring} (begins : ∀ part, copy part <+: part)
    (str : Qstring) (parts : List Qstring) :
    str.intercalate (parts.map copy) = str.intercalate parts ↔
      ∀ part ∈ parts, copy part = part := by
  induction parts with
  | nil => exact iff_of_true rfl fun _ none => absurd none List.not_mem_nil
  | cons part rest ih =>
    rw [List.forall_mem_cons, ← ih]
    cases rest with
    | nil =>
      rw [List.map_cons, List.map_nil, List.intercalate_singleton, List.intercalate_singleton]
      exact (and_iff_left rfl).symm
    | cons next rest =>
      rw [List.map_cons, List.map_cons, List.intercalate_cons_cons, List.intercalate_cons_cons,
        ← List.map_cons]
      constructor
      · intro same
        have shorter := (begins part).length_le
        have later := length_intercalate_map_le begins str (next :: rest)
        have lengths := congrArg List.length same
        simp only [List.length_append] at lengths
        obtain ⟨front, back⟩ :=
          List.append_inj same (by rw [List.length_append, List.length_append]; omega)
        exact ⟨(List.append_inj front (by omega)).1, back⟩
      · rintro ⟨front, back⟩
        rw [front, back]

theorem intercalate_cut_iff (str : Qstring) (parts : List Qstring) :
    str.intercalate (parts.map cString) = str.intercalate parts ↔ ∀ part ∈ parts, Clean part := by
  rw [intercalate_map_iff cString_prefix]
  exact forall₂_congr fun part _ => cString_eq_self_iff part

/-! ### The replacement -/

theorem uncovered_eq (sub s : Qstring) :
    uncovered sub s = (pieces sub s.length s).1 ++ [remainder sub s] := rfl

theorem split_eq {sub s : Qstring} (found : find sub s = some len) :
    s.split sub true = (if remainder sub s = [] then (pieces sub s.length s).1
      else uncovered sub s).map cString := by
  have some_pieces := pieces_ne_nil found
  simp only [split, Bool.true_or, List.filter_true]
  by_cases ends : remainder sub s = []
  · rw [if_pos ends, if_neg fun both => both.1 ends]
  · rw [if_neg ends, if_pos ⟨ends, some_pieces⟩]
    rfl

theorem replaceText_present {s sub : Qstring} (found : find sub s = some len) (str : Qstring) :
    replaceText s sub str = (s.findFrom sub (s.length - str.length)).map fun position =>
      str.intercalate (s.split sub true) ++ if position = some (s.length - sub.length) then str
        else [] := by
  have bytes : s.length ≠ 0 := by
    intro empty
    rw [List.length_eq_zero_iff.mp empty] at found
    contradiction
  have array : s.split sub true ≠ [] := by
    rw [split_eq found, ne_eq, List.map_eq_nil_iff]
    split
    · exact pieces_ne_nil found
    · exact List.append_ne_nil_of_right_ne_nil _ (List.cons_ne_nil _ _)
  rw [replaceText, if_neg (not_or.mpr ⟨bytes, array⟩)]

/-- What `replace` makes of a text in which there is something to replace. -/
theorem replaceText_found {s sub str : Qstring} (found : find sub s = some len)
    (short : str.length ≤ 2 * s.length) :
    ∃ tail, replaceText s sub str =
        some (str.intercalate ((if remainder sub s = [] then (pieces sub s.length s).1
          else uncovered sub s).map cString) ++ tail) ∧
      (EndsFirst s sub (searchStart s str) ∧ tail = str ∨
        ¬ EndsFirst s sub (searchStart s str) ∧ tail = []) := by
  obtain ⟨position, searched, ends⟩ := findFrom_inside (find_some_iff.mp found).1 short
  rw [replaceText_present found, searched, Option.map_some, split_eq found]
  by_cases last : position = some (s.length - sub.length)
  · exact ⟨str, by rw [if_pos last], .inl ⟨ends.mp last, rfl⟩⟩
  · exact ⟨[], by rw [if_neg last], .inr ⟨fun first => last (ends.mpr first), rfl⟩⟩

theorem replaceText_absent {s sub : Qstring} (absent : find sub s = none) (str : Qstring) :
    replaceText s sub str = some s := by
  refine if_pos ?_
  cases s with
  | nil => exact .inl rfl
  | cons c rest =>
    refine .inr ?_
    simp only [split, List.length_cons, pieces, absent, List.filter_nil, ne_eq, not_true_eq_false,
      and_false, if_false, List.map_nil]

/-- When the last occurrence ends the text, one replacement stands at the end. -/
theorem exact_at_end {found : List Qstring} (filled : found ≠ []) (str : Qstring) :
    str.intercalate (found.map cString) ++ str = str.intercalate (found ++ [[]]) ↔
      ∀ part ∈ found ++ [[]], Clean part := by
  rw [intercalate_concat str filled, List.append_nil, List.append_cancel_right_eq,
    intercalate_cut_iff, List.forall_mem_append]
  exact (and_iff_left fun part member => List.mem_singleton.mp member ▸ fun _ none =>
    absurd none List.not_mem_nil).symm

theorem lost_at_end {found : List Qstring} (filled : found ≠ []) (str : Qstring) :
    str.intercalate (found.map cString) = str.intercalate (found ++ [[]]) ↔
      (∀ part ∈ found ++ [[]], Clean part) ∧ str = [] := by
  constructor
  · intro same
    have length := congrArg List.length same
    have cut := length_intercalate_map_le cString_prefix str found
    rw [intercalate_concat str filled, List.append_nil, List.length_append] at length
    have nothing : str = [] := List.length_eq_zero_iff.mp (by omega)
    subst nothing
    refine ⟨(exact_at_end filled []).mp ?_, rfl⟩
    rw [List.append_nil]
    exact same
  · rintro ⟨clean, rfl⟩
    exact (List.append_nil _).symm.trans ((exact_at_end filled []).mpr clean)

theorem not_absent {s sub : Qstring} (found : find sub s = some len) :
    ¬ (sub = [] ∨ ¬ sub <:+: s) := by
  intro absent
  rw [find_none_iff.mpr absent] at found
  contradiction

/-- The last occurrence ends the text: nothing is left over. -/
theorem exact_iff_of_covered {s sub str : Qstring} (found : find sub s = some len)
    (short : str.length ≤ 2 * s.length) (covered : remainder sub s = []) :
    replaceText s sub str = some (replaceAll sub str s) ↔ ReplacesExactly s sub str := by
  obtain ⟨tail, replaced, ending⟩ := replaceText_found found short
  have filled := pieces_ne_nil found
  have present := not_absent found
  have parts : uncovered sub s = (pieces sub s.length s).1 ++ [[]] := by rw [uncovered_eq, covered]
  rw [replaced, replaceAll_eq, Option.some.injEq, if_pos covered, parts]
  rcases ending with ⟨first, rfl⟩ | ⟨later, rfl⟩
  · rw [exact_at_end filled, ← parts]
    constructor
    · intro clean
      exact .ending short clean (.inr (iff_of_true first covered))
    · rintro (absent | ⟨_, clean, _⟩ | ⟨_, _, more, _⟩)
      · exact absurd absent present
      · exact clean
      · exact absurd covered more
  · rw [List.append_nil, lost_at_end filled, ← parts]
    constructor
    · rintro ⟨clean, nothing⟩
      exact .ending short clean (.inl nothing)
    · rintro (absent | ⟨_, clean, nothing | same⟩ | ⟨_, extra, _, _⟩)
      · exact absurd absent present
      · exact ⟨clean, nothing⟩
      · exact absurd (same.mpr covered) later
      · exact absurd extra later

/-- Something is left over behind the last occurrence. -/
theorem exact_iff_of_rest {s sub str : Qstring} (found : find sub s = some len)
    (short : str.length ≤ 2 * s.length) (rest : remainder sub s ≠ []) :
    replaceText s sub str = some (replaceAll sub str s) ↔ ReplacesExactly s sub str := by
  obtain ⟨tail, replaced, ending⟩ := replaceText_found found short
  have present := not_absent found
  rw [replaced, replaceAll_eq, Option.some.injEq, if_neg rest]
  by_cases clean : ∀ part ∈ uncovered sub s, Clean part
  · rw [(intercalate_cut_iff str (uncovered sub s)).mpr clean, List.append_right_eq_self]
    constructor
    · rintro rfl
      refine .ending short clean ?_
      rcases ending with ⟨_, nothing⟩ | ⟨later, _⟩
      · exact .inl nothing.symm
      · exact .inr (iff_of_false later rest)
    · rintro (absent | ⟨_, _, nothing | same⟩ | ⟨_, _, _, cut, _⟩)
      · exact absurd absent present
      · rcases ending with ⟨_, rfl⟩ | ⟨_, rfl⟩
        · exact nothing
        · rfl
      · rcases ending with ⟨first, _⟩ | ⟨_, rfl⟩
        · exact absurd (same.mp first) rest
        · rfl
      · exact absurd clean cut
  · rcases ending with ⟨first, rfl⟩ | ⟨later, rfl⟩
    · constructor
      · exact .chance short first rest clean
      · rintro (absent | ⟨_, all, _⟩ | ⟨_, _, _, _, same⟩)
        · exact absurd absent present
        · exact absurd all clean
        · exact same
    · rw [List.append_nil, intercalate_cut_iff]
      refine iff_of_false clean ?_
      rintro (absent | ⟨_, all, _⟩ | ⟨_, extra, _, _, _⟩)
      · exact absurd absent present
      · exact absurd all clean
      · exact absurd extra later

/-- `replace` puts `str` in the place of every occurrence, from left to right, exactly
under the conditions above. -/
theorem replace_exact_iff (s sub str : Qstring) :
    replaceText s sub str = some (replaceAll sub str s) ↔ ReplacesExactly s sub str := by
  cases found : find sub s with
  | none =>
    refine iff_of_true ?_ (.absent (find_none_iff.mp found))
    rw [replaceText_absent found, replaceAll_absent found]
  | some len =>
    by_cases short : str.length ≤ 2 * s.length
    · by_cases covered : remainder sub s = []
      · exact exact_iff_of_covered found short covered
      · exact exact_iff_of_rest found short covered
    · rw [replaceText_present found, findFrom_outside found (Nat.not_le.mp short), Option.map_none]
      refine iff_of_false (by simp) ?_
      rintro (absent | ⟨fits, _, _⟩ | ⟨fits, _, _, _⟩)
      · exact absurd absent (not_absent found)
      · exact short fits
      · exact short fits

/-- The search for the last match begins inside it, and its replacement is lost. -/
theorem last_match_lost :
    replaceText (literal "xab") (literal "ab") (literal "c") = some (literal "x") ∧
      replaceText (literal "xab") (literal "ab") (literal "c") ≠
        some (replaceAll (literal "ab") (literal "c") (literal "xab")) := by
  constructor
  · decide +kernel
  · decide +kernel

/-- For a replacement that is no longer than the text the search begins inside it. -/
theorem replaceText_eq {s sub str : Qstring} (short : str.length ≤ s.length) :
    replaceText s sub str = some (replace s sub str) := by
  have start : searchStart s str = s.length - str.length := if_pos short
  have position : s.findFrom sub (s.length - str.length) =
      some ((find sub (s.drop (s.length - str.length))).map (s.length - str.length + ·)) := by
    rw [findFrom_start s sub str (by omega), start]
    split
    · rfl
    · rename_i away
      have missing : find sub (s.drop (s.length - str.length)) = none := by
        refine find_none_iff.mpr ?_
        by_contra present
        rw [not_or, not_not] at present
        have length := present.2.length_le
        rw [List.length_drop] at length
        exact away ⟨by omega, present.1⟩
      rw [missing, Option.map_none]
  rw [replaceText, replace]
  dsimp only
  split
  · rfl
  · rw [position, Option.map_some]

theorem within_of_pieces {sub s part : Qstring}
    (inside : part ∈ (pieces sub rounds s).1 ++ [(pieces sub rounds s).2]) : part <:+: s := by
  induction rounds generalizing s with
  | zero =>
    obtain rfl := List.mem_singleton.mp inside
    exact List.infix_rfl
  | succ rounds ih =>
    rw [pieces] at inside
    cases found : find sub s with
    | none =>
      simp only [found, List.nil_append, List.mem_singleton] at inside
      exact inside ▸ List.infix_rfl
    | some len =>
      simp only [found, List.cons_append, List.mem_cons] at inside
      rcases inside with rfl | later
      · exact (List.take_prefix len s).isInfix
      · exact (ih later).trans (List.drop_suffix _ s).isInfix

/-- Nothing goes wrong where every occurrence is taken out of a text without NULs. -/
theorem replace_erase {s : Qstring} (clean : Clean s) (sub : Qstring) :
    s.replace sub [] = replaceAll sub [] s := by
  have copied : ∀ part ∈ uncovered sub s, Clean part := fun part inside byte member =>
    clean byte ((within_of_pieces inside).subset member)
  have exactly : replaceText s sub [] = some (replaceAll sub [] s) := by
    cases found : find sub s with
    | none => rw [replaceText_absent found, replaceAll_absent found]
    | some len =>
      have ending : ReplacesExactly s sub [] := .ending (Nat.zero_le _) copied (.inl rfl)
      by_cases covered : remainder sub s = []
      · exact (exact_iff_of_covered found (Nat.zero_le _) covered).mpr ending
      · exact (exact_iff_of_rest found (Nat.zero_le _) covered).mpr ending
  exact Option.some.inj ((replaceText_eq (Nat.zero_le _)).symm.trans exactly)

end Qstring
end Gearsdk
