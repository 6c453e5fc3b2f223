import Mathlib.Algebra.Group.Nat.Defs
import Mathlib.Algebra.Group.Int.Defs
import Mathlib.Data.List.GetD
import Gearsdk.Borders
import Gearsdk.Qstring.Replace

/-! The search of `utstring.h`: a table of the needle says where to go on after a
mismatch, so that the text is read once from left to right. It finds what a search
at every place would find, and neither reads nor writes outside its arrays. -/
namespace Gearsdk.Utstring

/-- `(int)` of a `size_t`. -/
def intOfSize (size : Nat) : Int := (Int32.ofNat size).toInt

/-- An array at an index. `none` is a place outside, or one that nobody has written. -/
def read (array : List α) : Int → Option α
  | .ofNat i => array[i]?
  | .negSucc _ => none

/-- The inner loop of both functions: from a place in the needle to the next one
where it has the letter. -/
def fallBack (needle : Qstring) (table : List Int) (letter : UInt8) :
    (rounds : Nat) → Int → Option Int
  | _, .negSucc n => some (.negSucc n)
  | 0, .ofNat _ => none
  | rounds + 1, .ofNat i => do
      let here ← needle[i]?
      if here ≠ letter then
        let next ← table[i]?
        fallBack needle table letter rounds next
      else some i

/-- What the table says of a mismatch behind the first `i` letters. -/
def entry (needle : Qstring) (table : List Int) (i : Nat) (j : Int) : Option Int :=
  if i < needle.length then do
    let letter ← needle[i]?
    let other ← read needle j
    if letter = other then read table j else some j
  else some j

/-- The table is written from its first place on, within the `size` places there are. -/
def write (size : Nat) (table : List Int) (value : Int) : Option (List Int) :=
  if table.length < size then some (table ++ [value]) else none

/-- The loop of `_utstring_BuildTable`. -/
def buildTableLoop (needle : Qstring) :
    (rounds : Nat) → (i : Nat) → (j : Int) → List Int → Option (List Int)
  | 0, _, _, table => some table
  | rounds + 1, i, j, table => do
      let letter ← needle[i]?
      let j ← fallBack needle table letter (needle.length + 1) j
      let i := i + 1
      let j := j + 1
      let value ← entry needle table i j
      let table ← write (needle.length + 1) table value
      buildTableLoop needle rounds i j table

def buildTable (needle : Qstring) : Option (List Int) := do
  let table ← write (needle.length + 1) [] (-1)
  buildTableLoop needle needle.length 0 (-1) table

/-- The loop of `_utstring_find`. Its bounds are compared as `int`. -/
def findLoop (haystack needle : Qstring) (table : List Int) :
    (rounds : Nat) → (i j : Nat) → Option Int
  | 0, _, _ => none
  | rounds + 1, i, j =>
      if (j : Int) < intOfSize haystack.length ∧ needle.length ≤ haystack.length - j + i then do
        let letter ← haystack[j]?
        let i ← fallBack needle table letter (needle.length + 1) i
        let i := i + 1
        let j := j + 1
        if intOfSize needle.length ≤ i then some (j - i)
        else findLoop haystack needle table rounds i.toNat j
      else some (-1)

/-- `utstring_find`, with memory for the table. `none` reads or writes outside an
array, or before the text. -/
def utstringFind (s : Qstring) (startPosition : Int) (needle : Qstring) : Option Int :=
  let startPosition := if startPosition < 0 then s.length + startPosition else startPosition
  let haystackLen := s.length - startPosition
  if needle.length ≤ haystackLen ∧ 0 < needle.length then
    if startPosition < 0 then none
    else do
      let haystack := s.drop startPosition.toNat
      let table ← buildTable needle
      let findPosition ← findLoop haystack needle table (haystack.length + 1) 0 0
      some (if 0 ≤ findPosition then findPosition + startPosition else findPosition)
  else some (-1)

open Borders

variable {needle haystack w : Qstring} {table : List Int} {letter : UInt8} {i j b rounds : Nat} {v : Int}

/-- The table is there and right for the first places. -/
def Table (needle : Qstring) (n : Nat) (table : List Int) : Prop :=
  ∀ k, k < n → ∃ v, table[k]? = some v ∧ Fallback needle k v

/-- The inner loop finds the longest end that goes on with the letter. -/
theorem fallBack_best (right : Table needle b table) (within : b ≤ needle.length)
    (enough : v < rounds) (ge : -1 ≤ v) (here : ∀ k : Nat, v = k → k < b ∧ Ends needle w k)
    (bound : ∀ k : Nat, k < b → Ends needle w k → needle[k]? = some letter → (k : Int) ≤ v) :
    ∃ u, fallBack needle table letter rounds v = some u ∧
      Best (fun k => k < b ∧ Ends needle w k ∧ needle[k]? = some letter) u := by
  induction rounds generalizing v with
  | zero =>
    obtain rfl : v = -1 := by omega
    refine ⟨-1, rfl, .none fun k ⟨below, ends, goesOn⟩ => ?_⟩
    have le := bound k below ends goesOn
    omega
  | succ rounds ih =>
    cases v with
    | negSucc n =>
      obtain rfl : n = 0 := by omega
      refine ⟨-1, rfl, .none fun k ⟨below, ends, goesOn⟩ => ?_⟩
      have le := bound k below ends goesOn
      omega
    | ofNat i =>
      obtain ⟨below, ends⟩ := here i rfl
      have inside : i < needle.length := by omega
      rw [fallBack, List.getElem?_eq_getElem inside]
      dsimp only [Option.bind_eq_bind, Option.bind_some]
      split
      · rename_i mismatch
        obtain ⟨next, written, fallback⟩ := right i below
        have other : needle[i]? ≠ some letter := by
          rw [List.getElem?_eq_getElem inside]
          exact fun same => mismatch (Option.some.inj same)
        have shorter := fallback.lt
        have fewer : next < rounds := by
          have size : (i : Int) < (rounds + 1 : Nat) := enough
          omega
        rw [written, Option.bind_some]
        refine ih fewer fallback.ge (fun k same => ?_) (skip ends other fallback
          fun k below' ends' goesOn => ?_)
        · obtain ⟨less, ends', -⟩ := fallback.holds k same
          exact ⟨by omega, ends'.trans ends⟩
        · exact Int.ofNat_le.mp (bound k below' ends' goesOn)
      · rename_i found
        refine ⟨i, rfl,
          by omega, fun k same => ?_, fun k ⟨below', ends', goesOn⟩ => bound k below' ends' goesOn⟩
        obtain rfl : i = k := Int.ofNat.inj same
        refine ⟨below, ends, ?_⟩
        rw [List.getElem?_eq_getElem inside, not_not.mp found]

/-! ### The table -/

theorem take_succ (inside : i < w.length) : w.take (i + 1) = w.take i ++ [w[i]] :=
  List.take_succ_eq_append_getElem inside

/-- One round of the construction: the border of one more letter. -/
theorem border_succ (right : Table needle i table) (inside : i < needle.length)
    (border : Border needle i v) :
    ∃ u, fallBack needle table needle[i] (needle.length + 1) v = some u ∧
      Border needle (i + 1) (u + 1) := by
  have shorter := border.lt
  have found : ∃ u, fallBack needle table needle[i] (needle.length + 1) v = some u ∧
      Best (fun k => k < i ∧ Ends needle (needle.take i) k ∧ needle[k]? = some needle[i]) u :=
    fallBack_best right (by omega) (by omega) border.ge border.holds
      fun k below ends _ => border.max k ⟨below, ends⟩
  obtain ⟨u, fell, best⟩ := found
  refine ⟨u, fell, ?_⟩
  rw [Border, take_succ inside]
  exact best_snoc best

/-- What is written next is right, where there is a letter behind. -/
theorem entry_right (right : Table needle i table) (border : Border needle i (k : Nat)) :
    ∃ v, entry needle table i k = some v ∧ (i < needle.length → Fallback needle i v) := by
  have below := (border.holds k rfl).1
  by_cases inside : i < needle.length
  · have before : k < needle.length := by omega
    simp only [entry, if_pos inside, read, List.getElem?_eq_getElem inside,
      List.getElem?_eq_getElem before, Option.bind_eq_bind, Option.bind_some]
    split
    · rename_i same
      obtain ⟨v, written, fallback⟩ := right k below
      refine ⟨v, written, fun _ => border.fallback_of_eq ?_ fallback⟩
      rw [List.getElem?_eq_getElem inside, List.getElem?_eq_getElem before, same]
    · rename_i other
      refine ⟨k, rfl, fun _ => border.fallback_of_ne ?_⟩
      rw [List.getElem?_eq_getElem inside, List.getElem?_eq_getElem before]
      exact fun same => other (Option.some.inj same).symm
  · exact ⟨k, if_neg inside, fun more => absurd more inside⟩

theorem Table.snoc (right : Table needle n table) (length : table.length = n)
    (next : n < m → Fallback needle n v) (le : m ≤ n + 1) : Table needle m (table ++ [v]) := by
  intro k below
  by_cases last : k < n
  · rw [List.getElem?_append_left (by omega)]
    exact right k last
  · obtain rfl : k = n := by omega
    refine ⟨v, ?_, next below⟩
    rw [List.getElem?_append_right (by omega), length, Nat.sub_self]
    rfl

theorem buildTableLoop_right (right : Table needle (i + 1) table) (length : table.length = i + 1)
    (border : Border needle i v) (size : i + rounds = needle.length) :
    ∃ built, buildTableLoop needle rounds i v table = some built ∧
      Table needle needle.length built := by
  induction rounds generalizing i v table with
  | zero => exact ⟨table, rfl, fun k below => right k (by omega)⟩
  | succ rounds ih =>
    have inside : i < needle.length := by omega
    have smaller : Table needle i table := fun k below => right k (by omega)
    obtain ⟨u, fell, grown⟩ := border_succ smaller inside border
    -- a border of one letter or more is there, so that `u + 1` is a place of the needle
    have nonneg : 0 ≤ u + 1 := grown.max 0 ⟨Nat.succ_pos i, ends_zero _ _⟩
    obtain ⟨k, place⟩ := Int.eq_ofNat_of_zero_le nonneg
    rw [place] at grown
    obtain ⟨value, said, next⟩ := entry_right right grown
    have room : table.length < needle.length + 1 := by omega
    simp only [buildTableLoop, List.getElem?_eq_getElem inside, fell, place, said, write,
      if_pos room, Option.bind_eq_bind, Option.bind_some]
    by_cases last : i + 1 < needle.length
    · refine ih ?_ (by rw [List.length_append, length]; rfl) grown (by omega)
      exact right.snoc length (fun _ => next last) (Nat.le_refl _)
    · obtain rfl : rounds = 0 := by omega
      exact ⟨_, rfl, right.snoc length next (by omega)⟩

theorem buildTable_right (needle : Qstring) :
    ∃ table, buildTable needle = some table ∧ Table needle needle.length table := by
  have first : Table needle 1 [-1] := by
    intro k below
    obtain rfl : k = 0 := by omega
    exact ⟨-1, rfl, fallback_zero needle⟩
  exact buildTableLoop_right first rfl (border_zero needle) (Nat.zero_add _)

/-! ### The search -/

/-- What a search reports: the first occurrence, or `-1`. -/
def position : Option Nat → Int
  | none => -1
  | some k => k

/-- A place in the rest of the text is counted from the start of the text. -/
theorem position_add {start : Int} (found : Option Nat) (nonneg : 0 ≤ start) :
    (if 0 ≤ position found then position found + start else position found) =
      position (found.map (start.toNat + ·)) := by
  cases found with
  | none => rfl
  | some k =>
    have place : (0 : Int) ≤ position (some k) := Int.natCast_nonneg k
    rw [if_pos place, Option.map_some, position, position]
    omega

theorem intOfSize_of_lt {size : Nat} (small : size < 2 ^ 31) : intOfSize size = size :=
  Int32.toInt_ofNat_of_lt small

/-- No occurrence ends within the first `j` letters. -/
def Passed (needle haystack : Qstring) (j : Nat) : Prop :=
  ∀ k, Occurs needle haystack k → j < k + needle.length

/-- The rest of the text is too short for an occurrence. -/
theorem none_of_short (filled : needle ≠ [])
    (best : Best (fun k => k < needle.length ∧ Ends needle (haystack.take j) k) i)
    (passed : Passed needle haystack j) (short : haystack.length - j + i < needle.length)
    (inside : j ≤ haystack.length) (k : Nat) : ¬ Occurs needle haystack k := by
  intro occurs
  have later := passed k occurs
  obtain ⟨within, -, ends⟩ := ((occurs_iff k).mp occurs).resolve_right filled
  rw [List.take_length] at ends
  by_cases begun : k ≤ j
  · -- a part of the occurrence has been read, and is no longer than what is kept
    obtain ⟨rest, whole⟩ := occurs
    have part : Ends needle (haystack.take j) (j - k) := by
      refine ⟨by omega, ⟨haystack.take k, ?_⟩⟩
      have split : haystack.take j = haystack.take k ++ (haystack.drop k).take (j - k) := by
        rw [← List.take_add]
        congr 1
        omega
      rw [split, ← whole, List.take_append_of_le_length (by omega)]
    have le := best.max (j - k) ⟨by omega, part⟩
    omega
  · omega

theorem findLoop_first (right : Table needle needle.length table) (filled : needle ≠ [])
    (small : haystack.length < 2 ^ 31) (fits : needle.length < 2 ^ 31)
    (best : Best (fun k => k < needle.length ∧ Ends needle (haystack.take j) k) i)
    (passed : Passed needle haystack j) (inside : j ≤ haystack.length)
    (enough : haystack.length < j + rounds) :
    findLoop haystack needle table rounds i j = some (position (Qstring.find needle haystack)) := by
  induction rounds generalizing i j with
  | zero => omega
  | succ rounds ih =>
    have below : i < needle.length := (best.holds i rfl).1
    rw [findLoop, intOfSize_of_lt small, intOfSize_of_lt fits]
    by_cases more : (j : Int) < haystack.length ∧ needle.length ≤ haystack.length - j + i
    · rw [if_pos more]
      have reads : j < haystack.length := by omega
      have found : ∃ u, fallBack needle table haystack[j] (needle.length + 1) i = some u ∧
          Best (fun k => k < needle.length ∧ Ends needle (haystack.take j) k ∧
            needle[k]? = some haystack[j]) u :=
        fallBack_best right (Nat.le_refl _) (by omega) best.ge best.holds
          fun k below ends _ => best.max k ⟨below, ends⟩
      obtain ⟨u, fell, goesOn⟩ := found
      have longer := best_snoc goesOn
      rw [← take_succ reads] at longer
      have nonneg : 0 ≤ u + 1 := longer.max 0 ⟨by omega, ends_zero _ _⟩
      obtain ⟨k, place⟩ := Int.eq_ofNat_of_zero_le nonneg
      rw [place] at longer
      simp only [List.getElem?_eq_getElem reads, fell, place, Option.bind_eq_bind, Option.bind_some]
      obtain ⟨atMost, ends⟩ := longer.holds k rfl
      have length := ends.length_le
      rw [List.length_take] at length
      split
      · -- the whole needle ends here, and nowhere before
        rename_i full
        obtain rfl : k = needle.length := by omega
        have occurs : Occurs needle haystack (j + 1 - needle.length) := by
          refine (occurs_iff _).mpr (.inl ⟨by omega, ?_⟩)
          rw [Nat.sub_add_cancel (by omega)]
          exact ends
        have first : Qstring.find needle haystack = some (j + 1 - needle.length) := by
          refine Qstring.find_some_iff.mpr ⟨filled, occurs, fun l less earlier => ?_⟩
          have later := passed l earlier
          omega
        rw [first, position]
        exact congrArg some (by omega)
      · rename_i partial'
        have shorter : k < needle.length := by omega
        rw [Int.toNat_natCast]
        refine ih ?_ (fun l occurs => ?_) (by omega) (by omega)
        · refine ⟨longer.ge, fun l same => ?_, fun l ⟨less, ends'⟩ => longer.max l ⟨by omega, ends'⟩⟩
          obtain rfl : k = l := Int.ofNat.inj same
          exact ⟨shorter, ends⟩
        · have later := passed l occurs
          obtain ⟨within, whole⟩ := ((occurs_iff l).mp occurs).resolve_right filled
          by_contra ended
          have here : l + needle.length = j + 1 := by omega
          rw [here] at whole
          have le := longer.max needle.length ⟨by omega, whole⟩
          omega
    · rw [if_neg more]
      have absent : ∀ k, ¬ Occurs needle haystack k := by
        by_cases short : haystack.length - j + i < needle.length
        · exact none_of_short filled best passed short inside
        · obtain rfl : j = haystack.length := by omega
          intro k occurs
          have later := passed k occurs
          have within := (((occurs_iff k).mp occurs).resolve_right filled).1
          omega
      have missing : Qstring.find needle haystack = none := by
        rw [Option.eq_none_iff_forall_ne_some]
        intro k found
        exact absent k (Qstring.find_some_iff.mp found).2.1
      rw [missing, position]

/-- Nothing has been read before the first round. -/
theorem best_start (filled : needle ≠ []) :
    Best (fun k => k < needle.length ∧ Ends needle (haystack.take 0) k) (0 : Nat) := by
  refine ⟨by omega, fun k same => ?_, fun k ⟨_, ends⟩ => ?_⟩
  · obtain rfl : 0 = k := Int.ofNat.inj same
    exact ⟨List.length_pos_of_ne_nil filled, ends_zero _ _⟩
  · have length := ends.length_le
    rw [List.take_zero, List.length_nil] at length
    omega

/-- Both functions of the source together report what a search at every place does. -/
theorem search_eq_find (filled : needle ≠ []) (small : haystack.length < 2 ^ 31)
    (fits : needle.length < 2 ^ 31) :
    (do
      let table ← buildTable needle
      findLoop haystack needle table (haystack.length + 1) 0 0) =
      some (position (Qstring.find needle haystack)) := by
  have passed : Passed needle haystack 0 := fun k _ => by
    have positive := List.length_pos_of_ne_nil filled
    omega
  obtain ⟨table, built, right⟩ := buildTable_right needle
  rw [built, Option.bind_eq_bind, Option.bind_some]
  exact findLoop_first right filled small fits (best_start filled) passed (Nat.zero_le _) (by omega)

/-- In a text whose length is an `int`, and from a start in it, the search with the
table stays within its arrays and reports the leftmost occurrence at or behind the
start, like the search at every place. -/
theorem utstringFind_eq_findFrom (s needle : Qstring) (startPosition : Int)
    (small : s.length < 2 ^ 31) (within : -(s.length : Int) ≤ startPosition) :
    ∃ found, s.findFrom needle startPosition = some found ∧
      utstringFind s startPosition needle = some (position found) := by
  simp only [utstringFind, Qstring.findFrom]
  have nonneg : 0 ≤ if startPosition < 0 then (s.length : Int) + startPosition
      else startPosition := by
    split <;> omega
  generalize (if startPosition < 0 then (s.length : Int) + startPosition else startPosition) =
    start at nonneg
  by_cases searched : (needle.length : Int) ≤ s.length - start ∧ needle ≠ []
  · obtain ⟨fits, filled⟩ := searched
    have positive : (needle.length : Int) ≤ s.length - start ∧ 0 < needle.length :=
      ⟨fits, List.length_pos_of_ne_nil filled⟩
    have drop : (s.drop start.toNat).length ≤ s.length := by
      rw [List.length_drop]
      omega
    have searched : (s.drop start.toNat).length < 2 ^ 31 := Nat.lt_of_le_of_lt drop small
    have found := search_eq_find filled searched (by omega)
    refine ⟨_, by rw [if_pos ⟨fits, filled⟩, if_neg (Int.not_lt.mpr nonneg)], ?_⟩
    rw [if_pos positive, if_neg (Int.not_lt.mpr nonneg), ← position_add _ nonneg]
    simp only [Option.bind_eq_bind, Option.bind_eq_some_iff] at found ⊢
    obtain ⟨table, built, same⟩ := found
    exact ⟨table, built, _, same, rfl⟩
  · have short : ¬ ((needle.length : Int) ≤ s.length - start ∧ 0 < needle.length) := by
      rintro ⟨fits, positive⟩
      exact searched ⟨fits, List.ne_nil_of_length_pos positive⟩
    exact ⟨none, if_neg searched, if_neg short⟩

/-- The last two letters of `xyxyxyz`, found from its fourth letter on. -/
theorem utstringFind_eq_findFrom_tail :
    ∃ found, Qstring.findFrom [120, 121, 120, 121, 120, 121, 122] [121, 122] 3 = some found ∧
      utstringFind [120, 121, 120, 121, 120, 121, 122] 3 [121, 122] = some (position found) :=
  utstringFind_eq_findFrom [120, 121, 120, 121, 120, 121, 122] [121, 122] 3 (by decide) (by decide)

end Gearsdk.Utstring
