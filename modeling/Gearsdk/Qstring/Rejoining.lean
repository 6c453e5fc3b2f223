import Gearsdk.Qstring.Replace
import Mathlib.Algebra.Group.Nat.Defs

/-! Whether the parts that a text is split into give it back when they are joined. The loop is
followed by its positions, and every part is copied into the array. -/
namespace Gearsdk
namespace Qstring

/-- What `%.*s` prints of a text with its length as the precision, which is an `int`. A
negative one is no precision. -/
def printed (bytes : Qstring) : Qstring :=
  let precision := (Int32.ofNat bytes.length).toInt
  cString (if precision < 0 then bytes else bytes.take precision.toNat)

def copyLimit : Nat := 2 ^ 31 - 1

/-- A copy by `utstring_printf`. What it prints is counted in an `int n`, and the array
grows until there is room for `n + 1`: a text that is too long for that never fits. -/
def copied (bytes : Qstring) : Option Qstring :=
  if (printed bytes).length < copyLimit then some (printed bytes) else none

/-- What the loop of `split` leaves. -/
structure Splitting where
  array : List Qstring
  prevStartPos : Nat
  foundAtleastOne : Bool

/-- `array.push_back(new_str)` -/
def pushBack (array : List Qstring) (newStr : Qstring) : Option (List Qstring) :=
  (copied newStr).map fun copy => array ++ [copy]

/-- The loop of `split`; there is no result if it is still running behind the rounds, or
if a copy never ends. -/
def splitLoop (s sub : Qstring) (includeEmptyString : Bool) :
    (rounds : Nat) → Splitting → Option Splitting
  | 0, _ => none
  | rounds + 1, splitting =>
      match s.findFrom sub splitting.prevStartPos with
      | none => none
      | some none => some splitting
      | some (some startPos) => do
          let len := startPos - splitting.prevStartPos
          let array ←
            if includeEmptyString || len ≠ 0 then
              pushBack splitting.array ((s.drop splitting.prevStartPos).take len)
            else some splitting.array
          splitLoop s sub includeEmptyString rounds
            { array, prevStartPos := startPos + sub.length, foundAtleastOne := true }

def splitText (s sub : Qstring) (includeEmptyString : Bool) (rounds : Nat) :
    Option (List Qstring) := do
  let splitting ← splitLoop s sub includeEmptyString rounds ⟨[], 0, false⟩
  if s.length - splitting.prevStartPos ≠ 0 && splitting.foundAtleastOne then
    pushBack splitting.array (s.drop splitting.prevStartPos)
  else some splitting.array

/-- The matched occurrences: each is the first at or behind the end of the one before. -/
inductive Matches (s sub : Qstring) : (start : Nat) → List Nat → Prop
  | done (absent : ∀ i, start ≤ i → ¬ sub <+: s.drop i) : Matches s sub start []
  | next (after : start ≤ i) (occurs : sub <+: s.drop i)
      (first : ∀ j, start ≤ j → j < i → ¬ sub <+: s.drop j)
      (later : Matches s sub (i + sub.length) places) : Matches s sub start (i :: places)

/-- The loop ends, whatever the rounds that it is given beyond its need, no part has the
delimiter, and joined they are the text, without its last occurrence if it ends the text. -/
def Rejoins (s sub : Qstring) : Prop :=
  ∃ array places last, Matches s sub 0 (places ++ [last]) ∧
    (∀ rounds, s.length < rounds → splitText s sub true rounds = some array) ∧
    (∀ piece ∈ array, ¬ sub <:+: piece) ∧
    sub.intercalate array = if last + sub.length = s.length then s.take last else s

/-- A copy ends and is complete: no NUL, and a length that leaves room for the terminator. -/
def Copies (bytes : Qstring) : Prop := Clean bytes ∧ bytes.length < copyLimit

instance : DecidablePred Copies :=
  fun bytes => inferInstanceAs (Decidable (Clean bytes ∧ bytes.length < copyLimit))

/-! ### Copies -/

theorem printed_of_short (short : bytes.length < 2 ^ 31) : printed bytes = cString bytes := by
  have precision : (Int32.ofNat bytes.length).toInt = bytes.length := Int32.toInt_ofNat_of_lt short
  have nonneg : ¬ (bytes.length : Int) < 0 := by omega
  simp only [printed, precision, if_neg nonneg, Int.toNat_natCast, List.take_length]

theorem printed_begins (bytes : Qstring) : printed bytes <+: bytes := by
  simp only [printed]
  split
  · exact cString_prefix bytes
  · exact List.IsPrefix.trans (Qstring.cString_prefix _) (List.take_prefix _ _)

theorem copies_iff (bytes : Qstring) :
    Copies bytes ↔ printed bytes = bytes ∧ (printed bytes).length < copyLimit := by
  constructor
  · rintro ⟨clean, short⟩
    have whole : printed bytes = bytes := by
      rw [printed_of_short (lt_trans short (by decide)), cString_of_nul_free clean]
    exact ⟨whole, whole.symm ▸ short⟩
  · rintro ⟨whole, short⟩
    rw [whole] at short
    refine ⟨(cString_eq_self_iff bytes).mp ?_, short⟩
    rw [← printed_of_short (lt_trans short (by decide)), whole]

theorem mapM_copied (parts array : List Qstring) :
    parts.mapM copied = some array ↔ array = parts.map printed ∧
      ∀ part ∈ parts, (printed part).length < copyLimit := by
  induction parts generalizing array with
  | nil =>
    rw [List.mapM_nil, List.map_nil]
    exact ⟨fun same => ⟨(Option.some.inj same).symm, fun _ none => absurd none List.not_mem_nil⟩,
      fun both => both.1 ▸ rfl⟩
  | cons part rest ih =>
    rw [List.mapM_cons, List.map_cons, List.forall_mem_cons, copied]
    by_cases short : (printed part).length < copyLimit
    · simp only [if_pos short, Option.bind_eq_bind, Option.bind_some, Option.bind_eq_some_iff,
        Option.pure_def, Option.some.injEq, ih]
      constructor
      · rintro ⟨_, ⟨rfl, ends⟩, rfl⟩
        exact ⟨rfl, short, ends⟩
      · rintro ⟨rfl, _, ends⟩
        exact ⟨_, ⟨rfl, ends⟩, rfl⟩
    · rw [if_neg short]
      exact iff_of_false (by simp) fun both => short both.2.1

/-! ### The scan -/

variable {s sub : Qstring} {start : Nat} {places : List Nat}

theorem findFrom_start_inside (filled : sub ≠ []) (inside : start ≤ s.length) :
    s.findFrom sub start = some ((find sub (s.drop start)).map (start + ·)) := by
  have nonneg : ¬ (start : Int) < 0 := by omega
  simp only [findFrom, if_neg nonneg, Int.toNat_natCast]
  split
  · rfl
  · rename_i short
    cases found : find sub (s.drop start) with
    | none => rfl
    | some i =>
      have fits := length_of_find found
      rw [List.length_drop] at fits
      exact absurd ⟨by omega, filled⟩ short

/-- The end of the last match, or the start if nothing matches. -/
def scanEnd (sub : Qstring) (start : Nat) (places : List Nat) : Nat :=
  (places.getLast?.map (· + sub.length)).getD start

theorem scanEnd_cons (sub : Qstring) (start i : Nat) (places : List Nat) :
    scanEnd sub start (i :: places) = scanEnd sub (i + sub.length) places := by
  cases places with
  | nil => rfl
  | cons j places => rfl

theorem Matches.unique (left : Matches s sub start places) (right : Matches s sub start places') :
    places = places' := by
  induction left generalizing places' with
  | done absent =>
    cases right with
    | done => rfl
    | next after occurs => exact absurd occurs (absent _ after)
  | next after occurs first _ ih =>
    cases right with
    | done absent => exact absurd occurs (absent _ after)
    | next after' occurs' first' later' =>
      obtain rfl := Nat.le_antisymm (Nat.le_of_not_lt fun below => first _ after' below occurs')
        (Nat.le_of_not_lt fun below => first' _ after below occurs)
      rw [ih later']

theorem prefix_drop_of_le (below : start ≤ i) : (s.drop start).drop (i - start) = s.drop i := by
  rw [List.drop_drop, Nat.add_sub_cancel' below]

theorem pieces_of_none (search : find sub rest = none) (k : Nat) :
    pieces sub k rest = ([], rest) := by
  cases k with
  | zero => rfl
  | succ k => rw [pieces, search]

theorem pieces_of_some (search : find sub rest = some len) (k : Nat) :
    pieces sub (k + 1) rest =
      (rest.take len :: (pieces sub k (rest.drop (len + sub.length))).1,
        (pieces sub k (rest.drop (len + sub.length))).2) := by
  rw [pieces, search]

theorem splitLoop_of_none (filled : sub ≠ []) (inside : start ≤ s.length)
    (search : find sub (s.drop start) = none) (rounds : Nat) (array : List Qstring) (found : Bool) :
    splitLoop s sub true (rounds + 1) ⟨array, start, found⟩ = some ⟨array, start, found⟩ := by
  rw [splitLoop, findFrom_start_inside filled inside, search, Option.map_none]

theorem splitLoop_of_some (filled : sub ≠ []) (inside : start ≤ s.length)
    (search : find sub (s.drop start) = some len) (rounds : Nat) (array : List Qstring)
    (found : Bool) :
    splitLoop s sub true (rounds + 1) ⟨array, start, found⟩ =
      (copied ((s.drop start).take len)).bind fun copy =>
        splitLoop s sub true rounds ⟨array ++ [copy], start + len + sub.length, true⟩ := by
  rw [splitLoop, findFrom_start_inside filled inside, search, Option.map_some]
  simp only [Nat.add_sub_cancel_left, Bool.true_or, if_true, pushBack, Option.bind_eq_bind,
    Option.bind_map]
  rfl

/-- The loop runs through the matches; the parts are those of the scan, each copied, and what
is left begins where it stops. -/
theorem splitLoop_eq (filled : sub ≠ []) (inside : start ≤ s.length) (enough : s.length - start ≤ k)
    (more : s.length - start < rounds) (array : List Qstring) (found : Bool) :
    ∃ places, Matches s sub start places ∧ scanEnd sub start places ≤ s.length ∧
      (pieces sub k (s.drop start)).2 = s.drop (scanEnd sub start places) ∧
      splitLoop s sub true rounds ⟨array, start, found⟩ =
        ((pieces sub k (s.drop start)).1.mapM copied).map fun copies =>
        ⟨array ++ copies, scanEnd sub start places, found || places ≠ []⟩ := by
  obtain ⟨rounds, rfl⟩ :=
    Nat.exists_eq_succ_of_ne_zero (Nat.ne_of_gt (Nat.lt_of_le_of_lt (Nat.zero_le _) more))
  induction k generalizing rounds start array found with
  | zero =>
    have empty : s.drop start = [] := List.drop_eq_nil_iff.mpr (by omega)
    have search : find sub (s.drop start) = none := by rw [empty]; rfl
    refine ⟨[], .done fun i after occurs => ?_, inside, rfl, ?_⟩
    · have beyond : s.drop i = [] := List.drop_eq_nil_iff.mpr (by omega)
      rw [beyond] at occurs
      exact filled (List.prefix_nil.mp occurs)
    · rw [splitLoop_of_none filled inside search]
      simp [pieces, scanEnd]
  | succ k ih =>
    cases search : find sub (s.drop start) with
    | none =>
      have absent := (find_none_iff.mp search).resolve_left filled
      rw [splitLoop_of_none filled inside search, pieces_of_none search]
      refine ⟨[], .done fun i after occurs => absent ?_, inside, rfl, by simp [scanEnd]⟩
      rw [← prefix_drop_of_le after] at occurs
      exact occurs.isInfix.trans (List.drop_suffix _ _).isInfix
    | some len =>
      obtain ⟨_, occurs, first⟩ := find_some_iff.mp search
      have fits := length_of_find search
      have bytes := List.length_pos_iff.mpr filled
      rw [List.length_drop] at fits
      obtain ⟨rounds, rfl⟩ := Nat.exists_eq_succ_of_ne_zero (n := rounds) (by omega)
      obtain ⟨places, later, stops, rest, run⟩ :=
        @ih (start + len + sub.length) (by omega) (by omega)
        (array ++ [printed ((s.drop start).take len)]) true rounds (by omega)
      rw [splitLoop_of_some filled inside search, pieces_of_some search, List.drop_drop,
        ← Nat.add_assoc]
      refine ⟨(start + len) :: places, .next (Nat.le_add_right _ _) ?_ ?_ later, ?_, ?_, ?_⟩
      · rwa [List.drop_drop] at occurs
      · intro j after below occurs
        refine first (j - start) (by omega) ?_
        rwa [prefix_drop_of_le after]
      · rwa [scanEnd_cons]
      · rwa [scanEnd_cons]
      · rw [List.mapM_cons, copied]
        by_cases short : (printed ((s.drop start).take len)).length < copyLimit
        · rw [if_pos short, Option.bind_some, run]
          cases (pieces sub k (s.drop (start + len + sub.length))).1.mapM copied <;>
            simp [scanEnd_cons]
        · rw [if_neg short]
          rfl

/-! ### The parts -/

theorem pieces_join (enough : s.length ≤ k) :
    sub.intercalate ((pieces sub k s).1 ++ [(pieces sub k s).2]) = s := by
  induction k generalizing s with
  | zero =>
    obtain rfl := List.length_eq_zero_iff.mp (Nat.le_zero.mp enough)
    rfl
  | succ k ih =>
    cases search : find sub s with
    | none => rw [pieces_of_none search, List.nil_append, List.intercalate_singleton]
    | some len =>
      obtain ⟨filled, occurs, _⟩ := find_some_iff.mp search
      have bytes := List.length_pos_iff.mpr filled
      have rest := ih (s := s.drop (len + sub.length)) (by rw [List.length_drop]; omega)
      have front : s.drop len = sub ++ s.drop (len + sub.length) := by
        obtain ⟨tail, whole⟩ := occurs
        rw [← List.drop_drop, ← whole, List.drop_left]
      rw [pieces_of_some search, List.cons_append,
        List.intercalate_cons_of_ne_nil (List.append_ne_nil_of_right_ne_nil _
          (List.cons_ne_nil _ _)), rest,
        List.append_assoc, ← front, List.take_append_drop]

/-- No part has the delimiter, since every match is the first. -/
theorem pieces_free (filled : sub ≠ []) (enough : s.length ≤ k) :
    ∀ part ∈ (pieces sub k s).1 ++ [(pieces sub k s).2], ¬ sub <:+: part := by
  induction k generalizing s with
  | zero =>
    obtain rfl := List.length_eq_zero_iff.mp (Nat.le_zero.mp enough)
    intro part member
    obtain rfl := List.mem_singleton.mp member
    exact fun occurs => filled (List.infix_nil.mp occurs)
  | succ k ih =>
    cases search : find sub s with
    | none =>
      intro part member
      rw [pieces_of_none search, List.nil_append, List.mem_singleton] at member
      subst member
      exact (find_none_iff.mp search).resolve_left filled
    | some len =>
      obtain ⟨_, _, first⟩ := find_some_iff.mp search
      have bytes := List.length_pos_iff.mpr filled
      intro part member
      rw [pieces_of_some search, List.cons_append, List.mem_cons] at member
      rcases member with rfl | member
      · rintro ⟨front, back, inside⟩
        have fits := congrArg List.length inside
        simp only [List.length_append, List.length_take] at fits
        refine first front.length (by omega) ?_
        rw [← List.take_append_drop len s, ← inside, List.append_assoc, List.append_assoc,
          List.drop_left]
        exact List.prefix_append _ _
      · exact ih (s := s.drop (len + sub.length)) (by rw [List.length_drop]; omega) part member

/-! ### The array -/

/-- What `split` makes of the parts: the last is left out if it is empty. -/
def kept (sub s : Qstring) : List Qstring := if remainder sub s = [] then (pieces sub s.length s).1
    else uncovered sub s

theorem kept_subset (part : Qstring) (member : part ∈ kept sub s) : part ∈ uncovered sub s := by
  rw [kept] at member
  split at member
  · exact List.mem_append_left _ member
  · exact member

theorem splitText_eq (occurs : sub <:+: s) (filled : sub ≠ []) :
    ∃ places last, Matches s sub 0 (places ++ [last]) ∧
    last + sub.length ≤ s.length ∧ remainder sub s = s.drop (last + sub.length) ∧
    ∀ rounds, s.length < rounds → splitText s sub true rounds = (kept sub s).mapM copied := by
  have inside : 0 ≤ s.length := Nat.zero_le _
  have scan (rounds : Nat) (more : s.length < rounds) :=
    splitLoop_eq filled inside (Nat.le_refl _) more [] false
  obtain ⟨all, matched, stops, rest, _⟩ := scan (s.length + 1) (Nat.lt_succ_self _)
  have some_match : all ≠ [] := by
    rintro rfl
    obtain ⟨front, back, whole⟩ := occurs
    cases matched with
    | done absent =>
      refine absent front.length (Nat.zero_le _) ?_
      rw [← whole, List.append_assoc, List.drop_left]
      exact List.prefix_append _ _
  obtain ⟨places, last, rfl⟩ : ∃ places last, all = places ++ [last] :=
    ⟨_, _, (List.dropLast_append_getLast some_match).symm⟩
  have ending : scanEnd sub 0 (places ++ [last]) = last + sub.length := by
    rw [scanEnd, List.getLast?_concat, Option.map_some, Option.getD_some]
  rw [ending] at stops rest
  refine ⟨places, last, matched, stops, rest, fun rounds more => ?_⟩
  obtain ⟨again, matched', _, _, run⟩ := scan rounds more
  obtain rfl := matched.unique matched'
  have loop : splitLoop s sub true rounds ⟨[], 0, false⟩ =
      ((pieces sub s.length s).1.mapM copied).map fun copies =>
        ⟨copies, last + sub.length, true⟩ := by
    rw [run, ending]
    simp
  rw [splitText, loop, kept]
  by_cases ends : remainder sub s = []
  · have nothing : s.length - (last + sub.length) = 0 := by
      rw [← List.length_drop, ← rest]
      exact List.length_eq_zero_iff.mpr ends
    rw [if_pos ends]
    cases (pieces sub s.length s).1.mapM copied with
    | none => rfl
    | some copies => simp [nothing]
  · have something : s.length - (last + sub.length) ≠ 0 := by
      rw [← List.length_drop, ← rest]
      exact mt List.length_eq_zero_iff.mp ends
    rw [if_neg ends, uncovered_eq, List.mapM_append,
      show remainder sub s = s.drop (last + sub.length) from rest]
    cases (pieces sub s.length s).1.mapM copied with
    | none => rfl
    | some copies =>
      rw [List.mapM_cons, List.mapM_nil]
      cases copy : copied (s.drop (last + sub.length)) <;> simp [something, pushBack, copy]

theorem find_of_infix (occurs : sub <:+: s) (filled : sub ≠ []) : ∃ len, find sub s = some len :=
  Option.ne_none_iff_exists'.mp fun none => (find_none_iff.mp none).elim filled fun absent =>
    absent occurs

/-- Parts of less than 2 GB are those of the shorter definition. -/
theorem splitText_split (occurs : sub <:+: s) (filled : sub ≠ [])
    (short : ∀ part ∈ uncovered sub s, part.length < copyLimit) (more : s.length < rounds) :
    splitText s sub true rounds = some (split s sub true) := by
  obtain ⟨_, _, _, _, _, array⟩ := splitText_eq occurs filled
  obtain ⟨len, search⟩ := find_of_infix occurs filled
  rw [array rounds more, split_eq search, mapM_copied]
  have whole (part : Qstring) (member : part ∈ kept sub s) : printed part = cString part :=
    printed_of_short (lt_trans (short part (kept_subset part member)) (by decide))
  refine ⟨(List.map_congr_left whole).symm, fun part member => ?_⟩
  exact Nat.lt_of_le_of_lt (printed_begins part).length_le (short part (kept_subset part member))

/-- The parts without their copies give the text back. -/
theorem kept_join (occurs : sub <:+: s) (filled : sub ≠ []) (inside : last + sub.length ≤ s.length)
    (rest : remainder sub s = s.drop (last + sub.length)) :
    sub.intercalate (kept sub s) = if last + sub.length = s.length then s.take last else s := by
  have whole : sub.intercalate (uncovered sub s) = s := pieces_join (Nat.le_refl _)
  have ends_iff : remainder sub s = [] ↔ last + sub.length = s.length := by
    rw [rest, List.drop_eq_nil_iff]
    omega
  rw [kept]
  by_cases ends : remainder sub s = []
  · rw [if_pos ends, if_pos (ends_iff.mp ends)]
    obtain ⟨len, search⟩ := find_of_infix occurs filled
    have joined : sub.intercalate (pieces sub s.length s).1 ++ sub = s := by
      rw [uncovered_eq, ends, intercalate_concat sub (pieces_ne_nil search),
        List.append_nil] at whole
      exact whole
    have length := congrArg List.length joined
    rw [List.length_append] at length
    have front : (sub.intercalate (pieces sub s.length s).1).length = last := by
      have stops := ends_iff.mp ends
      omega
    calc sub.intercalate (pieces sub s.length s).1
      _ = (sub.intercalate (pieces sub s.length s).1 ++ sub).take last :=
        (List.take_left' front).symm
      _ = s.take last := by rw [joined]
  · rw [if_neg ends, if_neg (mt ends_iff.mpr ends), whole]

/-- The loop ends and its parts give the text back, up to a last occurrence, just when all
of them can be copied and are copied completely. -/
theorem split_rejoins_iff (occurs : sub <:+: s) (filled : sub ≠ []) :
    Rejoins s sub ↔ ∀ part ∈ uncovered sub s, Copies part := by
  obtain ⟨places, last, matched, inside, rest, array⟩ := splitText_eq occurs filled
  have complete : (∀ part ∈ uncovered sub s, Copies part) ↔ ∀ part ∈ kept sub s, Copies part := by
    rw [kept]
    by_cases ends : remainder sub s = []
    · rw [if_pos ends, uncovered_eq, ends, List.forall_mem_append]
      refine and_iff_left fun part member => ?_
      obtain rfl := List.mem_singleton.mp member
      decide
    · rw [if_neg ends]
  have joins := intercalate_map_iff printed_begins sub (kept sub s)
  rw [kept_join occurs filled inside rest] at joins
  rw [complete, forall₂_congr fun part _ => copies_iff part]
  constructor
  · rintro ⟨array', places', last', matched', array_eq, _, joined⟩
    obtain ⟨_, same⟩ := List.append_inj' (matched.unique matched') rfl
    obtain rfl := List.singleton_inj.mp same
    have copies := (array _ (Nat.lt_succ_self _)).symm.trans (array_eq _ (Nat.lt_succ_self _))
    obtain ⟨rfl, ends⟩ := (mapM_copied _ _).mp copies
    exact fun part member => ⟨joins.mp joined part member, ends part member⟩
  · intro whole
    have copies := (mapM_copied _ _).mpr ⟨rfl, fun part member => (whole part member).2⟩
    refine ⟨(kept sub s).map printed, places, last, matched, fun rounds more =>
      (array rounds more).trans copies,
      fun piece member occurs => ?_, joins.mpr fun part member => (whole part member).1⟩
    obtain ⟨part, among, rfl⟩ := List.mem_map.mp member
    exact pieces_free filled (Nat.le_refl _) part (kept_subset part among)
      (occurs.trans (printed_begins part).isInfix)

theorem two_fields_rejoin : Rejoins [97, 44, 98] [44] := by
  have occurs : [44] <:+: ([97, 44, 98] : Qstring) := ⟨[97], [98], rfl⟩
  exact (split_rejoins_iff occurs (List.cons_ne_nil _ _)).mpr (by decide)

/-- What stands behind a NUL is lost. -/
theorem part_cut_at_nul : ¬ ∀ s sub : Qstring, sub <:+: s → sub ≠ [] → Rejoins s sub := by
  intro rejoins
  have occurs : [44] <:+: ([97, 0, 98, 44, 99] : Qstring) := ⟨[97, 0, 98], [99], rfl⟩
  have complete :=
    (split_rejoins_iff occurs (List.cons_ne_nil _ _)).mp (rejoins _ [44] occurs (List.cons_ne_nil _ _))
  exact absurd (complete [97, 0, 98] (by decide)).1 (by decide)

end Qstring
end Gearsdk
