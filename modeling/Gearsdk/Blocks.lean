import Mathlib.Data.List.TakeDrop

/-! Letters that are taken in blocks of `n`: a state that has absorbed the whole
blocks, and the letters that are left for the next one. It does not matter in which
pieces they come. -/
namespace Blocks

variable {σ α : Type} {n : Nat} {compress : σ → List α → σ} {s : σ} {rest xs : List α}

/-- One letter more. -/
def feed (n : Nat) (compress : σ → List α → σ) (s : σ × List α) (x : α) : σ × List α :=
  if s.2.length + 1 = n then (compress s.1 (s.2 ++ [x]), []) else (s.1, s.2 ++ [x])

def absorb (n : Nat) (compress : σ → List α → σ) (s : σ × List α) (xs : List α) : σ × List α :=
  xs.foldl (feed n compress) s

@[simp]
theorem absorb_nil (s : σ × List α) : absorb n compress s [] = s := rfl

theorem absorb_append (s : σ × List α) (first second : List α) :
    absorb n compress s (first ++ second) = absorb n compress (absorb n compress s first) second :=
  List.foldl_append

/-- Letters that do not fill a block are kept. -/
theorem absorb_short (few : rest.length + xs.length < n) :
    absorb n compress (s, rest) xs = (s, rest ++ xs) := by
  induction xs generalizing rest with
  | nil => rw [absorb_nil, List.append_nil]
  | cons x xs ih =>
    rw [List.length_cons] at few
    have next : feed n compress (s, rest) x = (s, rest ++ [x]) := if_neg (by dsimp only; omega)
    have later : absorb n compress (s, rest ++ [x]) xs = (s, rest ++ [x] ++ xs) :=
      ih (by rw [List.length_append, List.length_singleton]; omega)
    rw [List.append_assoc, List.singleton_append] at later
    rwa [absorb, List.foldl_cons, next]

/-- Letters that fill a block up go into the state with those that were kept. -/
theorem absorb_full (exact : rest.length + xs.length = n) (filled : xs ≠ []) :
    absorb n compress (s, rest) xs = (compress s (rest ++ xs), []) := by
  obtain ⟨front, last, rfl⟩ := (List.eq_nil_or_concat xs).resolve_left filled
  rw [List.concat_eq_append] at exact ⊢
  rw [List.length_append, List.length_singleton] at exact
  have before : absorb n compress (s, rest) front = (s, rest ++ front) := absorb_short (by omega)
  have last' : feed n compress (s, rest ++ front) last = (compress s (rest ++ front ++ [last]), []) := by
    refine if_pos ?_
    rw [List.length_append]
    omega
  rw [absorb_append, before, ← List.append_assoc]
  exact last'

/-- The first blocks. -/
def blocks (n : Nat) : (count : Nat) → List α → List (List α)
  | 0, _ => []
  | count + 1, xs => xs.take n :: blocks n count (xs.drop n)

theorem blocks_take (fits : n * count ≤ size) (xs : List α) :
    blocks n count (xs.take size) = blocks n count xs := by
  induction count generalizing xs size with
  | zero => rfl
  | succ count ih =>
    rw [Nat.mul_succ] at fits
    rw [blocks, blocks, List.take_take, Nat.min_eq_left (by omega), List.drop_take, ih (by omega)]

/-- Nothing is left of a text that consists of whole blocks. -/
theorem absorb_blocks (positive : 0 < n) (size : xs.length = n * count) :
    absorb n compress (s, []) xs = ((blocks n count xs).foldl compress s, []) := by
  induction count generalizing s xs with
  | zero =>
    obtain rfl := List.eq_nil_of_length_eq_zero size
    rfl
  | succ count ih =>
    rw [Nat.mul_succ] at size
    have first : (xs.take n).length = n := List.length_take_of_le (by omega)
    have filled : xs.take n ≠ [] := by
      rintro empty
      rw [empty, List.length_nil] at first
      omega
    have block : absorb n compress (s, []) (xs.take n) = (compress s (xs.take n), []) :=
      absorb_full ((Nat.zero_add _).trans first) filled
    have others : absorb n compress (compress s (xs.take n), []) (xs.drop n) =
        ((blocks n count (xs.drop n)).foldl compress (compress s (xs.take n)), []) :=
      ih (by rw [List.length_drop]; omega)
    calc absorb n compress (s, []) xs
        = absorb n compress (s, []) (xs.take n ++ xs.drop n) := by rw [List.take_append_drop]
      _ = absorb n compress (compress s (xs.take n), []) (xs.drop n) := by rw [absorb_append, block]
      _ = _ := others

/-- The blocks of any text, and what is left of it. -/
theorem absorb_eq (positive : 0 < n) (xs : List α) :
    absorb n compress (s, []) xs =
      ((blocks n (xs.length / n) xs).foldl compress s, xs.drop (n * (xs.length / n))) := by
  have whole : (xs.take (n * (xs.length / n))).length = n * (xs.length / n) :=
    List.length_take_of_le (Nat.mul_div_le xs.length n)
  have few : (xs.drop (n * (xs.length / n))).length < n := by
    have remainder := Nat.mod_lt xs.length positive
    have division := Nat.div_add_mod xs.length n
    rw [List.length_drop]
    omega
  have front : absorb n compress (s, []) (xs.take (n * (xs.length / n))) =
      ((blocks n (xs.length / n) (xs.take (n * (xs.length / n)))).foldl compress s, []) :=
    absorb_blocks positive whole
  rw [blocks_take (Nat.le_refl _)] at front
  calc absorb n compress (s, []) xs
      = absorb n compress (absorb n compress (s,
        []) (xs.take (n * (xs.length / n)))) (xs.drop (n * (xs.length / n))) := by
        rw [← absorb_append, List.take_append_drop]
    _ = _ := by rw [front, absorb_short (by rwa [List.length_nil, Nat.zero_add]), List.nil_append]

theorem flatten_blocks (n count : Nat) (xs : List α) :
    (blocks n count xs).flatten = xs.take (n * count) := by
  induction count generalizing xs with
  | zero => rfl
  | succ count ih => rw [blocks, List.flatten_cons, ih, Nat.mul_succ, Nat.add_comm, List.take_add]

theorem length_of_mem_blocks (fits : n * count ≤ xs.length) (inside : block ∈ blocks n count xs) :
    block.length = n := by
  induction count generalizing xs with
  | zero => cases inside
  | succ count ih =>
    rw [Nat.mul_succ] at fits
    rcases List.mem_cons.mp inside with rfl | later
    · exact List.length_take_of_le (by omega)
    · exact ih (by rw [List.length_drop]; omega) later

end Blocks
