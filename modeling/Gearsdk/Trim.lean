import Mathlib.Data.List.DropRight

/-! Cutting the elements of one kind off both ends of a list. -/
namespace Trim

def trim (p : α → Bool) (xs : List α) : List α := (xs.dropWhile p).rdropWhile p

variable {p q : α → Bool} {c : α} {xs ys zs : List α}

theorem dropWhile_append_cons (solid : p c = false) (xs ys : List α) :
    (xs ++ c :: ys).dropWhile p = xs.dropWhile p ++ c :: ys := by
  induction xs with
  | nil => simp [solid]
  | cons x xs ih =>
    simp only [List.cons_append, List.dropWhile_cons]
    split
    · exact ih
    · rfl

theorem rdropWhile_append_cons (solid : p c = false) (xs ys : List α) :
    (xs ++ c :: ys).rdropWhile p = xs ++ c :: ys.rdropWhile p := by
  rw [List.rdropWhile, List.reverse_append, List.reverse_cons, List.append_assoc,
    List.singleton_append, dropWhile_append_cons solid]
  simp [List.rdropWhile]

theorem trim_append_cons (solid : p c = false) (xs ys : List α) :
    trim p (xs ++ c :: ys) = xs.dropWhile p ++ c :: ys.rdropWhile p := by
  rw [trim, dropWhile_append_cons solid, rdropWhile_append_cons solid]

theorem trim_eq_nil (blank : ∀ x ∈ xs, p x = true) : trim p xs = [] := by
  rw [trim, List.dropWhile_eq_nil_iff.mpr blank, List.rdropWhile_nil]

/-- A list either is all blank or has a first and a last solid element. -/
theorem blank_or_solid (p : α → Bool) (xs : List α) :
    (∀ x ∈ xs, p x = true) ∨ ∃ before c after, xs = before ++ c :: after ∧ p c = false := by
  by_cases blank : ∀ x ∈ xs, p x = true
  · exact .inl blank
  · simp only [not_forall, Bool.not_eq_true] at blank
    obtain ⟨c, member, solid⟩ := blank
    obtain ⟨before, after, same⟩ := List.append_of_mem member
    exact .inr ⟨before, c, after, same, solid⟩

/-- The last element of a kind, if there is one. -/
theorem last_or_none (P : α → Prop) (xs : List α) :
    (∀ x ∈ xs, ¬ P x) ∨ ∃ before x after, xs = before ++ x :: after ∧ P x ∧ ∀ y ∈ after, ¬ P y := by
  induction xs using List.reverseRecOn with
  | nil => exact .inl (List.forall_mem_nil _)
  | append_singleton xs last ih =>
    by_cases holds : P last
    · exact .inr ⟨xs, last, [], rfl, holds, List.forall_mem_nil _⟩
    · have final : ∀ y ∈ [last], ¬ P y := List.forall_mem_singleton.mpr holds
      rcases ih with none | ⟨before, x, after, rfl, kind, later⟩
      · exact .inl (List.forall_mem_append.mpr ⟨none, final⟩)
      · exact .inr ⟨before, x, after ++ [last], by simp, kind, List.forall_mem_append.mpr ⟨later, final⟩⟩

theorem trim_append_left (blank : ∀ x ∈ ys, p x = true) (xs : List α) :
    trim p (ys ++ xs) = trim p xs := by
  rw [trim, List.dropWhile_append_of_pos blank, trim]

theorem rdropWhile_append_right (blank : ∀ x ∈ ys, p x = true) (xs : List α) :
    (xs ++ ys).rdropWhile p = xs.rdropWhile p := by
  rw [List.rdropWhile, List.reverse_append, List.dropWhile_append_of_pos, List.rdropWhile]
  exact fun x member => blank x (List.mem_reverse.mp member)

theorem trim_append_right (blank : ∀ x ∈ ys, p x = true) (xs : List α) :
    trim p (xs ++ ys) = trim p xs := by
  rcases blank_or_solid p xs with allBlank | ⟨before, c, after, rfl, solid⟩
  · rw [trim_eq_nil allBlank]
    exact trim_eq_nil (List.forall_mem_append.mpr ⟨allBlank, blank⟩)
  · rw [List.append_assoc, List.cons_append, trim_append_cons solid, trim_append_cons solid,
      rdropWhile_append_right blank]

theorem trim_dropWhile (weaker : ∀ x, q x = true → p x = true) (xs : List α) :
    trim p (xs.dropWhile q) = trim p xs := by
  have blank : ∀ x ∈ xs.takeWhile q, p x = true :=
    fun x member => weaker x (List.mem_takeWhile_imp member)
  rw [← trim_append_left blank, List.takeWhile_append_dropWhile]

theorem trim_append_rdropWhile (weaker : ∀ x, q x = true → p x = true) (xs ys : List α) :
    trim p (xs ++ ys.rdropWhile q) = trim p (xs ++ ys) := by
  have blank : ∀ x ∈ ys.rtakeWhile q, p x = true :=
    fun x member => weaker x (List.mem_rtakeWhile_imp member)
  rw [← trim_append_right blank, List.append_assoc, List.rdropWhile_append_rtakeWhile]

theorem trim_rdropWhile (weaker : ∀ x, q x = true → p x = true) (xs : List α) :
    trim p (xs.rdropWhile q) = trim p xs :=
  trim_append_rdropWhile weaker [] xs

theorem trim_within (p : α → Bool) (xs : List α) : trim p xs <:+: xs :=
  (List.rdropWhile_prefix p _).isInfix.trans (List.dropWhile_suffix p).isInfix

theorem mem_dropWhile (solid : p c = false) (member : c ∈ xs) : c ∈ xs.dropWhile p := by
  obtain ⟨before, after, rfl⟩ := List.append_of_mem member
  rw [dropWhile_append_cons solid]
  exact List.mem_append_right _ (List.mem_cons_self ..)

theorem mem_rdropWhile (solid : p c = false) (member : c ∈ xs) : c ∈ xs.rdropWhile p := by
  obtain ⟨before, after, rfl⟩ := List.append_of_mem member
  rw [rdropWhile_append_cons solid]
  exact List.mem_append_right _ (List.mem_cons_self ..)

theorem mem_of_mem_trim (member : x ∈ trim p xs) : x ∈ xs := (trim_within p xs).subset member

theorem mem_trim (solid : p c = false) (member : c ∈ xs) : c ∈ trim p xs :=
  mem_rdropWhile solid (mem_dropWhile solid member)

theorem trim_length_le (p : α → Bool) (xs : List α) : (trim p xs).length ≤ xs.length :=
  (trim_within p xs).length_le

theorem trim_eq_of_length (same : xs.length ≤ (trim p xs).length) : trim p xs = xs :=
  (trim_within p xs).eq_of_length_le same

/-- Nothing is cut off a list if and only if its ends are solid. -/
theorem trim_eq_self_iff : trim p xs = xs ↔
    (∀ x, xs.head? = some x → p x = false) ∧ ∀ x, xs.getLast? = some x → p x = false := by
  rcases blank_or_solid p xs with blank | ⟨before, c, after, rfl, solid⟩
  · rw [trim_eq_nil blank]
    constructor
    · rintro rfl
      simp
    · rintro ⟨head, _⟩
      cases xs with
      | nil => rfl
      | cons first rest =>
        have solid := head first rfl
        rw [blank first (List.mem_cons_self ..)] at solid
        contradiction
  · rw [trim_append_cons solid]
    constructor
    · intro same
      have lengths := congrArg List.length same
      simp only [List.length_append, List.length_cons] at lengths
      have front := (List.dropWhile_suffix (l := before) p).length_le
      have back := (List.rdropWhile_prefix p after).length_le
      have frontSame := (List.dropWhile_suffix (l := before) p).eq_of_length_le (by omega)
      have backSame := (List.rdropWhile_prefix p after).eq_of_length_le (by omega)
      constructor
      · intro x head
        cases before with
        | nil =>
          cases Option.some.inj head
          exact solid
        | cons first rest =>
          cases Option.some.inj head
          by_contra blank
          rw [Bool.not_eq_false] at blank
          rw [List.dropWhile_cons_of_pos blank] at frontSame
          have shorter := (List.dropWhile_suffix (l := rest) p).length_le
          rw [frontSame] at shorter
          exact Nat.not_succ_le_self _ shorter
      · intro x last
        rw [List.rdropWhile_eq_self_iff] at backSame
        rcases List.eq_nil_or_concat after with rfl | ⟨rest, final, rfl⟩
        · rw [List.getLast?_concat] at last
          cases Option.some.inj last
          exact solid
        · have ends := backSame (by simp)
          simp only [List.concat_eq_append, List.getLast_concat, Bool.not_eq_true] at ends
          rw [List.concat_eq_append, ← List.cons_append, ← List.append_assoc,
            List.getLast?_concat] at last
          cases Option.some.inj last
          exact ends
    · rintro ⟨head, last⟩
      have front : before.dropWhile p = before := by
        cases before with
        | nil => rfl
        | cons first rest => simp [head first rfl]
      have back : after.rdropWhile p = after := by
        rw [List.rdropWhile_eq_self_iff]
        intro nonempty blank
        have ends := last (after.getLast nonempty) (by
          rw [List.getLast?_append, List.getLast?_cons, List.getLast?_eq_some_getLast nonempty]
          rfl)
        rw [blank] at ends
        contradiction
      rw [front, back]

/-- The ends may also be cut in the other order. -/
theorem dropWhile_rdropWhile (p : α → Bool) (xs : List α) :
    (xs.rdropWhile p).dropWhile p = trim p xs := by
  rcases blank_or_solid p xs with blank | ⟨before, c, after, rfl, solid⟩
  · rw [trim_eq_nil blank, List.rdropWhile_eq_nil_iff.mpr blank]
    rfl
  · rw [trim_append_cons solid, rdropWhile_append_cons solid, dropWhile_append_cons solid]

end Trim
