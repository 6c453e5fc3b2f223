import Gearsdk.Qstring
import Mathlib.Data.List.Basic

/-! Searching, splitting and replacing in byte strings. The pieces are copied with
their lengths as an `int`: they are shorter than 2^31 - 1 bytes here. -/
namespace Gearsdk
namespace Qstring

/-- The leftmost occurrence, as `utstring_find` reports it. -/
def find (sub : Qstring) : Qstring → Option Nat
  | [] => none
  | c :: rest => if sub ≠ [] ∧ sub.isPrefixOf (c :: rest) then some 0
    else (find sub rest).map (· + 1)

/-- The pieces before each occurrence of `sub`, and what is left after the last.
Every round uses up a byte, so that `rounds` are enough when there are as many of
them as bytes. -/
def pieces (sub : Qstring) : (rounds : Nat) → Qstring → List Qstring × Qstring
  | 0, rest => ([], rest)
  | rounds + 1, rest =>
      match find sub rest with
      | none => ([], rest)
      | some len =>
          let (later, remainder) := pieces sub rounds (rest.drop (len + sub.length))
          (rest.take len :: later, remainder)

/-- Nothing is split off when `sub` does not occur. -/
def split (s sub : Qstring) (includeEmptyString : Bool) : List Qstring :=
  let (found, remainder) := pieces sub s.length s
  let array := found.filter fun piece => includeEmptyString || piece ≠ []
  (if remainder ≠ [] ∧ found ≠ [] then array ++ [remainder] else array).map cString

/-- A replacement that is no longer than the text. -/
def replace (s sub str : Qstring) : Qstring :=
  let array := s.split sub true
  if s.length = 0 ∨ array = [] then s
  else
    let start := s.length - str.length
    let isLastCharMatch := (find sub (s.drop start)).map (start + ·) = some (s.length - sub.length)
    str.intercalate array ++ if isLastCharMatch then str else []

theorem find_absent (absent : delimiter ∉ s) : find [delimiter] s = none := by
  induction s with
  | nil => rfl
  | cons c rest ih =>
    simp only [List.mem_cons, not_or] at absent
    obtain ⟨other, later⟩ := absent
    simp only [find, List.isPrefixOf, Bool.and_true, beq_iff_eq, other, and_false, if_false,
      ih later, Option.map_none]

theorem find_append {rest : Qstring} (absent : delimiter ∉ s) :
    find [delimiter] (s ++ delimiter :: rest) = some s.length := by
  induction s with
  | nil => simp only [List.nil_append, find, List.isPrefixOf, Bool.and_true, beq_self_eq_true,
    ne_eq, List.cons_ne_self,
      not_false_eq_true, and_self, if_true, List.length_nil]
  | cons c tail ih =>
    simp only [List.mem_cons, not_or] at absent
    obtain ⟨other, later⟩ := absent
    simp only [List.cons_append, find, List.isPrefixOf, Bool.and_true, beq_iff_eq, other, and_false,
      if_false, ih later, Option.map_some, List.length_cons]

/-- With a delimiter of one byte nothing is lost between the pieces. -/
theorem pieces_splitOn (enough : s.length ≤ rounds) :
    (pieces [delimiter] rounds s).1 ++ [(pieces [delimiter] rounds s).2] = s.splitOn delimiter := by
  induction rounds generalizing s with
  | zero =>
    obtain rfl := List.length_eq_zero_iff.mp (Nat.le_zero.mp enough)
    rfl
  | succ rounds ih =>
    by_cases occurs : delimiter ∈ s
    · obtain ⟨before, after, rfl, absent⟩ := List.eq_append_cons_of_mem occurs
      have shorter : after.length ≤ rounds := by
        simp only [List.length_append, List.length_cons] at enough
        omega
      simp only [pieces, find_append absent, List.length_singleton, List.take_left,
        List.drop_length_add_append, List.drop_one, List.tail_cons, List.cons_append, ih shorter,
        List.splitOn_append_cons_self_of_not_mem absent]
    · simp only [pieces, find_absent occurs, List.nil_append, List.splitOn_eq_singleton occurs]

/-- An empty last piece is left out, and so is the only one. -/
theorem split_of_splitOn (parts : s.splitOn delimiter = found ++ [last]) :
    split s [delimiter] true =
      (if last ≠ [] ∧ found ≠ [] then found ++ [last] else found).map cString := by
  have same : (pieces [delimiter] s.length s).1 ++ [(pieces [delimiter] s.length s).2] =
    found ++ [last] :=
    (pieces_splitOn (Nat.le_refl s.length)).trans parts
  obtain ⟨sameFound, sameLast⟩ := List.append_inj' same rfl
  obtain rfl := List.singleton_inj.mp sameLast
  subst sameFound
  simp only [split, Bool.true_or, List.filter_true]

/-- An occurrence cannot run past a byte that it does not have. -/
theorem prefix_of_prefix_append_cons {sub s rest : Qstring} (absent : c ∉ sub)
    (occurs : sub <+: s ++ c :: rest) : sub <+: s := by
  rcases List.prefix_or_prefix_of_prefix occurs (List.prefix_append s (c :: rest)) with
    within | beyond
  · exact within
  · obtain ⟨tail, rfl⟩ := beyond
    cases tail with
    | nil => exact (List.append_nil s).symm ▸ List.prefix_refl s
    | cons d tail =>
      obtain ⟨rfl, _⟩ := List.cons_prefix_cons.mp ((List.prefix_append_right_inj s).mp occurs)
      exact absurd (List.mem_append_right s List.mem_cons_self) absent

theorem find_self {sub : Qstring} (filled : sub ≠ []) : find sub sub = some 0 := by
  obtain ⟨c, rest, rfl⟩ := List.exists_cons_of_ne_nil filled
  rw [find, if_pos ⟨filled, List.isPrefixOf_iff_prefix.mpr (List.prefix_refl _)⟩]

theorem find_after_absent {rest : Qstring} (absent : c ∉ s) :
    find (c :: rest) (s ++ c :: rest) = some s.length := by
  induction s with
  | nil => exact find_self (List.cons_ne_nil c rest)
  | cons d tail ih =>
    simp only [List.mem_cons, not_or] at absent
    obtain ⟨other, later⟩ := absent
    simp only [List.cons_append, find, List.isPrefixOf, beq_eq_false_iff_ne.mpr other,
      Bool.false_and, Bool.false_eq_true, and_false, if_false, ih later, Option.map_some,
      List.length_cons]

/-- `sub` is found at the end of a text that does not have it at the front, when the
rest of the text keeps clear of its first byte. -/
theorem find_at_end {front middle : Qstring} (absent : d ∉ c :: rest) (clear : c ∉ d :: middle)
    (free : ¬ c :: rest <:+: front) :
    find (c :: rest) (front ++ d :: middle ++ c :: rest) = some (front ++ d :: middle).length := by
  induction front with
  | nil => exact find_after_absent clear
  | cons x front ih =>
    have here : ¬ c :: rest <+: x :: (front ++ d :: middle ++ c :: rest) := by
      intro occurs
      have within : c :: rest <+: x :: front ++ d :: (middle ++ c :: rest) := by simpa using occurs
      exact free (prefix_of_prefix_append_cons absent within).isInfix
    have later := ih fun within => free (within.trans (List.suffix_cons x front).isInfix)
    simp only [List.cons_append, find, List.isPrefixOf_iff_prefix, here, and_false, if_false, later,
      Option.map_some, List.length_cons]

/-- The one occurrence at the end is replaced. -/
theorem replace_at_end {s sub str : Qstring} (clean : Clean s) (filled : sub ≠ [])
    (sameLength : str.length = sub.length) (found : find sub (s ++ sub) = some s.length) :
    replace (s ++ sub) sub str = s ++ str := by
  have piece : pieces sub (s ++ sub).length (s ++ sub) = ([s], []) := by
    obtain ⟨rounds, rounds_eq⟩ := Nat.exists_eq_succ_of_ne_zero (n := (s ++ sub).length)
      (by simpa only [ne_eq, List.length_eq_zero_iff, List.append_eq_nil_iff,
        not_and] using fun _ => filled)
    rw [rounds_eq, pieces]
    simp only [found, List.take_left, ← List.length_append, List.drop_length]
    cases rounds with
    | zero => rfl
    | succ rounds => rfl
  have array : split (s ++ sub) sub true = [s] := by
    simp only [split, piece, Bool.true_or, List.filter_true, ne_eq, not_true_eq_false, false_and,
      if_false, List.map_cons, List.map_nil, cString_of_nul_free clean]
  have ending : (s ++ sub).length - str.length = s.length ∧
      (s ++ sub).length - sub.length = s.length := by
    rw [List.length_append]
    omega
  have whole : ¬ ((s ++ sub).length = 0 ∨ [s] = []) := by
    simpa only [List.length_eq_zero_iff, List.append_eq_nil_iff, reduceCtorEq, or_false,
      not_and] using fun _ => filled
  rw [replace, array, if_neg whole]
  simp only [ending.1, ending.2, List.drop_left, find_self filled, Option.map_some, Nat.add_zero,
    if_true, List.intercalate_singleton]

theorem find_singleton (c delimiter : UInt8) : find [delimiter] [c] = if c = delimiter then some 0
    else none := by
  by_cases same : c = delimiter
  · subst same
    simp only [find, List.isPrefixOf, beq_self_eq_true, Bool.and_self, ne_eq, List.cons_ne_self,
      not_false_eq_true, and_self, if_true]
  · have other : ¬ delimiter = c := fun eq => same eq.symm
    simp only [find, List.isPrefixOf, beq_eq_false_iff_ne.mpr other, Bool.false_and,
      Bool.false_eq_true, and_false, if_false, Option.map_none, same]

theorem map_eq_intercalate_splitOn (a b : UInt8) (s : Qstring) :
    (s.map fun byte => if byte = a then b else byte) = [b].intercalate (s.splitOn a) := by
  induction s with
  | nil => rfl
  | cons x xs ih =>
    rw [List.map_cons, ih, List.splitOn_cons_eq_if_modifyHead]
    by_cases same : x = a
    · rw [if_pos same, if_pos (beq_iff_eq.mpr same),
        List.intercalate_cons_of_ne_nil (List.splitOn_ne_nil a xs)]
      rfl
    · obtain ⟨head, tail, shape⟩ := List.exists_cons_of_ne_nil (List.splitOn_ne_nil a xs)
      rw [if_neg same, if_neg (by simpa only [beq_iff_eq] using same), shape, List.modifyHead_cons,
        List.intercalate_cons_cons_left]

theorem mem_splitOn {s part : Qstring} {a : UInt8} (inside : part ∈ s.splitOn a) :
    a ∉ part ∧ ∀ byte ∈ part, byte ∈ s := by
  induction s generalizing part with
  | nil =>
    obtain rfl := List.mem_singleton.mp inside
    exact ⟨List.not_mem_nil, fun _ member => member⟩
  | cons x xs ih =>
    rw [List.splitOn_cons_eq_if_modifyHead] at inside
    by_cases same : x = a
    · rw [if_pos (beq_iff_eq.mpr same)] at inside
      rcases List.mem_cons.mp inside with rfl | later
      · exact ⟨List.not_mem_nil, fun _ member => absurd member List.not_mem_nil⟩
      · exact ⟨(ih later).1, fun byte member => List.mem_cons_of_mem _ ((ih later).2 byte member)⟩
    · obtain ⟨head, tail, shape⟩ := List.exists_cons_of_ne_nil (List.splitOn_ne_nil a xs)
      rw [if_neg (by simpa only [beq_iff_eq] using same), shape, List.modifyHead_cons] at inside
      rcases List.mem_cons.mp inside with rfl | later
      · obtain ⟨absent, within⟩ := ih (shape ▸ List.mem_cons_self : head ∈ xs.splitOn a)
        refine ⟨?_, ?_⟩
        · simp only [List.mem_cons, not_or]
          exact ⟨fun eq => same eq.symm, absent⟩
        · intro byte member
          rcases List.mem_cons.mp member with rfl | member
          · exact List.mem_cons_self
          · exact List.mem_cons_of_mem _ (within byte member)
      · obtain ⟨absent, within⟩ := ih (shape ▸ List.mem_cons_of_mem _ later : part ∈ xs.splitOn a)
        exact ⟨absent, fun byte member => List.mem_cons_of_mem _ (within byte member)⟩

theorem intercalate_concat (sep : Qstring) (filled : found ≠ []) (last : Qstring) :
    sep.intercalate (found ++ [last]) = sep.intercalate found ++ sep ++ last := by
  induction found with
  | nil => exact absurd rfl filled
  | cons piece rest ih =>
    cases rest with
    | nil => simp only [List.cons_append, List.nil_append, List.intercalate_cons_cons,
      List.intercalate_singleton]
    | cons next rest =>
      rw [List.cons_append, List.cons_append, List.intercalate_cons_cons, ← List.cons_append,
        ih (List.cons_ne_nil _ _), List.intercalate_cons_cons]
      simp only [List.append_assoc]

/-- The pieces of a text without NULs go through the copies unchanged. -/
theorem split_single (clean : Clean s) (parts : s.splitOn delimiter = found ++ [last]) :
    split s [delimiter] true = if last ≠ [] ∧ found ≠ [] then found ++ [last] else found := by
  have kept : ∀ pieces : List Qstring, (∀ piece ∈ pieces, piece ∈ s.splitOn delimiter) →
      pieces.map cString = pieces := by
    intro pieces within
    refine (List.map_congr_left (g := id) ?_).trans (List.map_id _)
    intro piece inside
    exact cString_of_nul_free fun byte member =>
      clean byte ((mem_splitOn (within piece inside)).2 byte member)
  rw [split_of_splitOn parts]
  split
  · exact kept _ fun piece inside => parts ▸ inside
  · exact kept found fun piece inside => parts ▸ List.mem_append_left _ inside

theorem find_last (filled : s ≠ []) (delimiter : UInt8) :
    (find [delimiter] (s.drop (s.length - 1))).map (s.length - 1 + ·) = some (s.length - 1) ↔
      s.getLast filled = delimiter := by
  have ending : s.drop (s.length - 1) = [s.getLast filled] := by
    conv_lhs => rw [← List.dropLast_append_getLast filled]
    rw [List.drop_left' (by rw [List.dropLast_append_getLast, List.length_dropLast])]
  rw [ending, find_singleton]
  by_cases same : s.getLast filled = delimiter
  · simp only [same, if_true, Option.map_some, Nat.add_zero]
  · simp only [same, if_false, Option.map_none, reduceCtorEq]

/-- A text ends with the delimiter where its last piece is empty. -/
theorem getLast_splitOn {s last : Qstring} {found : List Qstring} {delimiter : UInt8}
    (parts : s.splitOn delimiter = found ++ [last]) (several : found ≠ []) (filled : s ≠ []) :
    s.getLast filled = delimiter ↔ last = [] := by
  have whole : s = [delimiter].intercalate found ++ [delimiter] ++ last := by
    rw [← intercalate_concat _ several, ← parts, List.intercalate_splitOn]
  constructor
  · intro closing
    by_contra ends
    have absent :=
      (mem_splitOn (parts ▸ List.mem_append_right _ List.mem_cons_self : last ∈ s.splitOn delimiter)).1
    have within : s.getLast filled = last.getLast ends := by
      simp only [whole, List.getLast_append_of_ne_nil _ ends]
    exact absent (closing ▸ within ▸ List.getLast_mem ends)
  · rintro rfl
    simp only [whole, List.append_nil, List.getLast_append_singleton]

/-- Between single bytes a replacement is a map. -/
theorem replace_single (clean : Clean s) (a b : UInt8) :
    replace s [a] [b] = s.map fun byte => if byte = a then b else byte := by
  obtain ⟨found, last, parts⟩ : ∃ found last, s.splitOn a = found ++ [last] :=
    ⟨_, _, (List.dropLast_append_getLast (List.splitOn_ne_nil a s)).symm⟩
  have array := split_single clean parts
  rw [map_eq_intercalate_splitOn, parts]
  by_cases alone : found = []
  · subst alone
    rw [replace, if_pos (.inr (array.trans (if_neg fun both => both.2 rfl))), List.nil_append,
      List.intercalate_singleton,
      ← (List.intercalate_splitOn a : [a].intercalate (s.splitOn a) = s), parts, List.nil_append,
        List.intercalate_singleton]
  · have filled : s ≠ [] := by
      rintro rfl
      have short := congrArg List.length parts
      rw [List.splitOn_nil, List.length_singleton, List.length_append,
        List.length_singleton] at short
      exact alone (List.length_eq_zero_iff.mp (by omega))
    have joined : ¬ (s.length = 0 ∨ split s [a] true = []) := by
      rintro (empty | none)
      · exact filled (List.length_eq_zero_iff.mp empty)
      · rw [array] at none
        split at none
        · exact List.append_ne_nil_of_right_ne_nil _ (List.cons_ne_nil _ _) none
        · exact alone none
    have unfolded : replace s [a] [b] = [b].intercalate (split s [a] true) ++ if last = [] then [b]
        else [] := by
      simp only [replace, if_neg joined, List.length_singleton, find_last filled,
        getLast_splitOn parts alone filled]
    rw [unfolded, array]
    by_cases ends : last = []
    · subst ends
      rw [if_neg fun both => both.1 rfl, if_pos rfl, intercalate_concat _ alone, List.append_nil]
    · rw [if_pos ⟨ends, alone⟩, if_neg ends, List.append_nil]

end Qstring
end Gearsdk
