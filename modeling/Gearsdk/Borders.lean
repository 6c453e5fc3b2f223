import Mathlib.Data.List.Infix
import Mathlib.Data.List.TakeDrop

/-! The ends of a word that are beginnings of another. The search of a needle in a
text keeps the longest one; where the next letter does not go on with it, the next
shorter one that goes on with another letter is the next to be tried. -/
namespace Borders

variable {α : Type} {p w : List α} {i k : Nat} {v : Int}

/-- The first `k` letters of `p` end `w`. -/
def Ends (p w : List α) (k : Nat) : Prop := k ≤ p.length ∧ p.take k <:+ w

theorem ends_zero (p w : List α) : Ends p w 0 := ⟨Nat.zero_le _, by simp⟩

theorem Ends.length_le (ends : Ends p w k) : k ≤ w.length := by
  have length := ends.2.length_le
  rwa [List.length_take, Nat.min_eq_left ends.1] at length

/-- A shorter end of the word is an end of the longer one. -/
theorem Ends.shorter (long : Ends p w i) (short : Ends p w k) (le : k ≤ i) :
    Ends p (p.take i) k := by
  refine ⟨short.1, List.suffix_of_suffix_length_le short.2 long.2 ?_⟩
  rw [List.length_take, List.length_take]
  omega

theorem Ends.trans (short : Ends p (p.take i) k) (long : Ends p w i) : Ends p w k :=
  ⟨short.1, short.2.trans long.2⟩

theorem ends_snoc_iff {c : α} : Ends p (w ++ [c]) (k + 1) ↔ Ends p w k ∧ p[k]? = some c := by
  rw [Ends, Ends]
  by_cases inside : k < p.length
  · rw [List.take_succ_eq_append_getElem inside, List.suffix_concat_iff,
      List.getElem?_eq_getElem inside, Option.some_inj]
    constructor
    · rintro ⟨-, empty | ⟨front, same, suffix⟩⟩
      · have length := congrArg List.length empty
        rw [List.length_append, List.length_singleton, List.length_nil] at length
        omega
      · obtain ⟨rfl, last⟩ := List.append_inj' same rfl
        exact ⟨⟨by omega, suffix⟩, List.singleton_inj.mp last⟩
    · rintro ⟨⟨-, suffix⟩, rfl⟩
      exact ⟨inside, .inr ⟨_, rfl, suffix⟩⟩
  · constructor
    · rintro ⟨le, -⟩
      omega
    · rintro ⟨-, found⟩
      rw [List.getElem?_eq_none (by omega)] at found
      contradiction

/-- `v` is the greatest number that satisfies `C`, or `-1` when none does. -/
structure Best (C : Nat → Prop) (v : Int) : Prop where
  ge : -1 ≤ v
  holds : ∀ k : Nat, v = k → C k
  max : ∀ k : Nat, C k → (k : Int) ≤ v

theorem Best.none (none : ∀ k, ¬ C k) : Best C (-1) :=
  ⟨Int.le_refl _, fun k same => by omega, fun k holds => absurd holds (none k)⟩

theorem Best.congr (best : Best C v) (same : ∀ k, C k ↔ D k) : Best D v :=
  ⟨best.ge, fun k is => (same k).mp (best.holds k is), fun k holds => best.max k ((same k).mpr holds)⟩

/-- Where to go on from a mismatch behind the first `i` letters: the longest border
of them that is followed by another letter. -/
def Fallback (p : List α) (i : Nat) (v : Int) : Prop :=
  Best (fun k => k < i ∧ Ends p (p.take i) k ∧ p[k]? ≠ p[i]?) v

/-- The longest border of the first `i` letters that is shorter. -/
def Border (p : List α) (i : Nat) (v : Int) : Prop := Best (fun k => k < i ∧ Ends p (p.take i) k) v

theorem Fallback.lt (fallback : Fallback p i v) : v < i := by
  rcases Int.lt_or_le v 0 with negative | nonneg
  · omega
  · obtain ⟨k, rfl⟩ := Int.eq_ofNat_of_zero_le nonneg
    have below := (fallback.holds k rfl).1
    omega

theorem Border.lt (border : Border p i v) : v < i := by
  rcases Int.lt_or_le v 0 with negative | nonneg
  · omega
  · obtain ⟨k, rfl⟩ := Int.eq_ofNat_of_zero_le nonneg
    have below := (border.holds k rfl).1
    omega

/-- After a border with another letter, that border is where to go on. -/
theorem Border.fallback_of_ne (border : Border p i (k : Nat)) (other : p[k]? ≠ p[i]?) :
    Fallback p i k := by
  obtain ⟨below, ends⟩ := border.holds k rfl
  refine ⟨border.ge, fun l same => ?_, fun l ⟨less, ends', _⟩ => border.max l ⟨less, ends'⟩⟩
  obtain rfl : k = l := Int.ofNat.inj same
  exact ⟨below, ends, other⟩

/-- After a border with the same letter, one goes on from where that letter does. -/
theorem Border.fallback_of_eq (border : Border p i (k : Nat)) (same : p[k]? = p[i]?)
    (next : Fallback p k v) :
    Fallback p i v := by
  obtain ⟨below, ends⟩ := border.holds k rfl
  refine next.congr fun l => ?_
  constructor
  · rintro ⟨less, ends', other⟩
    exact ⟨by omega, ends'.trans ends, same ▸ other⟩
  · rintro ⟨less, ends', other⟩
    have le : l ≤ k := Int.ofNat_le.mp (border.max l ⟨less, ends'⟩)
    have different : l ≠ k := by
      rintro rfl
      exact other same
    exact ⟨by omega, ends.shorter ends' le, same ▸ other⟩

/-- One step of the search for an end that goes on with the letter `c`. No longer end
below `b` does, and neither does that of length `i`. -/
theorem skip {c : Option α} {b : Nat} (ends : Ends p w i) (mismatch : p[i]? ≠ c)
    (next : Fallback p i v) (bound : ∀ k, k < b → Ends p w k → p[k]? = c → k ≤ i) :
    ∀ k : Nat, k < b → Ends p w k → p[k]? = c → (k : Int) ≤ v := by
  intro k below ends' goesOn
  have le := bound k below ends' goesOn
  have different : k ≠ i := by
    rintro rfl
    exact mismatch goesOn
  refine next.max k ⟨by omega, ends.shorter ends' le, ?_⟩
  rw [goesOn]
  exact Ne.symm mismatch

/-- One more letter of the word. -/
theorem best_snoc {c : α} (best : Best (fun k => k < b ∧ Ends p w k ∧ p[k]? = some c) v) :
    Best (fun k => k < b + 1 ∧ Ends p (w ++ [c]) k) (v + 1) := by
  refine ⟨by have := best.ge; omega, fun k same => ?_, fun k ⟨below, ends⟩ => ?_⟩
  · cases k with
    | zero => exact ⟨Nat.succ_pos b, ends_zero p _⟩
    | succ k =>
      obtain ⟨below, ends, goesOn⟩ := best.holds k (by omega)
      exact ⟨by omega, ends_snoc_iff.mpr ⟨ends, goesOn⟩⟩
  · cases k with
    | zero =>
      have := best.ge
      omega
    | succ k =>
      obtain ⟨ends, goesOn⟩ := ends_snoc_iff.mp ends
      have le := best.max k ⟨by omega, ends, goesOn⟩
      omega

theorem border_zero (p : List α) : Border p 0 (-1) :=
  .none fun k ⟨below, _⟩ => by omega

theorem fallback_zero (p : List α) : Fallback p 0 (-1) :=
  .none fun k ⟨below, _⟩ => by omega

/-! ### Occurrences -/

/-- `p` occurs in the text `w` at `k`. -/
def Occurs (p w : List α) (k : Nat) : Prop := p <+: w.drop k

/-- An occurrence is an end of what is before its last letter. -/
theorem occurs_iff (k : Nat) :
    Occurs p w k ↔ k + p.length ≤ w.length ∧ Ends p (w.take (k + p.length)) p.length ∨
    p = [] := by
  rw [Occurs, Ends, List.take_length]
  constructor
  · rintro ⟨rest, whole⟩
    by_cases empty : p = []
    · exact .inr empty
    · have length := congrArg List.length whole
      have positive := List.length_pos_of_ne_nil empty
      rw [List.length_append, List.length_drop] at length
      refine .inl ⟨by omega, Nat.le_refl _, ⟨w.take k, ?_⟩⟩
      rw [List.take_add, ← whole, List.take_left]
  · rintro (⟨inside, -, front, whole⟩ | rfl)
    · have length := congrArg List.length whole
      rw [List.length_append, List.length_take, Nat.min_eq_left inside] at length
      have size : front.length = k := by omega
      refine ⟨w.drop (k + p.length), ?_⟩
      have start := List.take_append_drop (k + p.length) w
      rw [← whole, List.append_assoc] at start
      calc p ++ w.drop (k + p.length)
          = (front ++ (p ++ w.drop (k + p.length))).drop k := by rw [← size, List.drop_left]
        _ = w.drop k := by rw [start]
    · exact List.nil_prefix

end Borders
