import Mathlib.Data.List.Nodup
import Mathlib.Logic.Function.Basic

/-! Doubly linked lists that run through their own elements. The links are two
functions on addresses; a segment says which list they spell between two ends. -/

structure DoublyLinked (α : Type) where
  next : α → Option α := fun _ => none
  prev : α → Option α := fun _ => none

namespace DoublyLinked
variable {α : Type} {x y : α} {xs ys : List α} {before after : Option α}

/-- `xs` is linked both ways, comes after `before` and is followed by `after`. -/
def Segment (l : DoublyLinked α) (before : Option α) : List α → Option α → Prop
  | [], _ => True
  | x :: xs, after => l.prev x = before ∧ l.next x = xs.head?.or after ∧ l.Segment (some x) xs after

/-- A whole list. -/
abbrev Spells (l : DoublyLinked α) (xs : List α) : Prop := l.Segment none xs none

theorem segment_append {l : DoublyLinked α} :
    l.Segment before (xs ++ ys) after ↔
      l.Segment before xs (ys.head?.or after) ∧ l.Segment (xs.getLast?.or before) ys after := by
  induction xs generalizing before with
  | nil => simp [Segment]
  | cons x xs ih =>
    have first : (xs ++ ys).head?.or after = xs.head?.or (ys.head?.or after) := by
      cases xs <;> rfl
    have last : (xs.getLast?.or (some x)) = (x :: xs).getLast?.or before := by
      cases xs with
      | nil => rfl
      | cons y ys => simp [List.getLast?_cons]
    simp only [List.cons_append, Segment, ih, first, last]
    tauto

/-- A segment reads the links of its own elements only. -/
theorem Segment.congr {l m : DoublyLinked α} (segment : l.Segment before xs after)
    (same : ∀ x ∈ xs, m.next x = l.next x ∧ m.prev x = l.prev x) : m.Segment before xs after := by
  induction xs generalizing before with
  | nil => trivial
  | cons x xs ih =>
    obtain ⟨next, prev⟩ := same x List.mem_cons_self
    obtain ⟨back, front, rest⟩ := segment
    exact ⟨prev.trans back, next.trans front, ih rest fun y inside =>
      same y (List.mem_cons_of_mem _ inside)⟩

theorem Segment.next_of_append {l : DoublyLinked α}
    (segment : l.Segment before (xs ++ x :: ys) after) :
    l.next x = ys.head?.or after :=
  (segment_append.mp segment).2.2.1

theorem Segment.prev_of_append {l : DoublyLinked α}
    (segment : l.Segment before (xs ++ x :: ys) after) :
    l.prev x = xs.getLast?.or before :=
  (segment_append.mp segment).2.1

/-! ### Assignments through pointers that may be null -/

section
variable [DecidableEq α]

def setNext (l : DoublyLinked α) : Option α → Option α → DoublyLinked α
  | none, _ => l
  | some x, value => { l with next := Function.update l.next x value }

def setPrev (l : DoublyLinked α) : Option α → Option α → DoublyLinked α
  | none, _ => l
  | some x, value => { l with prev := Function.update l.prev x value }

variable {l : DoublyLinked α} {p : Option α}

@[simp] theorem prev_setNext (l : DoublyLinked α) (p value : Option α) :
    (l.setNext p value).prev = l.prev := by
  cases p <;> rfl

@[simp] theorem next_setPrev (l : DoublyLinked α) (p value : Option α) :
    (l.setPrev p value).next = l.next := by
  cases p <;> rfl

@[simp] theorem next_setNext_self (l : DoublyLinked α) (x : α) (value : Option α) :
    (l.setNext (some x) value).next x = value := by
  simp [setNext]

@[simp] theorem prev_setPrev_self (l : DoublyLinked α) (x : α) (value : Option α) :
    (l.setPrev (some x) value).prev x = value := by
  simp [setPrev]

theorem next_setNext_of_ne (l : DoublyLinked α) (value : Option α) (other : p ≠ some x) :
    (l.setNext p value).next x = l.next x := by
  cases p with
  | none => rfl
  | some y =>
    have different : x ≠ y := fun same => other (congrArg some same.symm)
    simp [setNext, different]

theorem prev_setPrev_of_ne (l : DoublyLinked α) (value : Option α) (other : p ≠ some x) :
    (l.setPrev p value).prev x = l.prev x := by
  cases p with
  | none => rfl
  | some y =>
    have different : x ≠ y := fun same => other (congrArg some same.symm)
    simp [setPrev, different]

theorem Segment.setNext_outside (segment : l.Segment before xs after) (value : Option α)
    (outside : ∀ x ∈ xs, p ≠ some x) : (l.setNext p value).Segment before xs after :=
  segment.congr fun x inside => ⟨next_setNext_of_ne l value (outside x inside),
    by rw [prev_setNext]⟩

theorem Segment.setPrev_outside (segment : l.Segment before xs after) (value : Option α)
    (outside : ∀ x ∈ xs, p ≠ some x) : (l.setPrev p value).Segment before xs after :=
  segment.congr fun x inside => ⟨by rw [next_setPrev], prev_setPrev_of_ne l value (outside x inside)⟩

/-- The last element is given another follower. -/
theorem Segment.setNext_last (segment : l.Segment before xs after) (distinct : xs.Nodup)
    (after' : Option α) :
    (l.setNext xs.getLast? after').Segment before xs after' := by
  rcases List.eq_nil_or_concat xs with rfl | ⟨front, x, rfl⟩
  · trivial
  · rw [List.concat_eq_append] at *
    rw [List.getLast?_concat]
    obtain ⟨first, back, -, -⟩ := segment_append.mp segment
    refine segment_append.mpr ⟨first.setNext_outside _ fun y inside same => ?_, ?_,
      next_setNext_self l x after', trivial⟩
    · exact (List.nodup_append.mp distinct).2.2 y inside y
        (by simpa using (Option.some.inj same).symm) rfl
    · rw [prev_setNext]
      exact back

/-- The first element is given another predecessor. -/
theorem Segment.setPrev_first (segment : l.Segment before xs after) (distinct : xs.Nodup)
    (before' : Option α) :
    (l.setPrev xs.head? before').Segment before' xs after := by
  cases xs with
  | nil => trivial
  | cons x xs =>
    obtain ⟨-, front, rest⟩ := segment
    have fresh := (List.nodup_cons.mp distinct).1
    refine ⟨prev_setPrev_self l x before',
      by rw [next_setPrev, front], rest.setPrev_outside _ fun y inside same => ?_⟩
    exact fresh (Option.some.inj same ▸ inside)

/-! ### Linking and unlinking an element -/

/-- `x` is linked in before `head`. -/
def pushFront (l : DoublyLinked α) (head : Option α) (x : α) : DoublyLinked α :=
  ((l.setNext (some x) head).setPrev (some x) none).setPrev head (some x)

/-- `x` is linked in after `tail`. -/
def append (l : DoublyLinked α) (tail : Option α) (x : α) : DoublyLinked α :=
  ((l.setNext (some x) none).setPrev (some x) tail).setNext tail (some x)

def unlink (l : DoublyLinked α) (x : α) : DoublyLinked α :=
  (l.setNext (l.prev x) (l.next x)).setPrev (l.next x) (l.prev x)

omit [DecidableEq α] in
theorem some_ne_of_not_mem (fresh : x ∉ xs) : ∀ y ∈ xs, some x ≠ some y :=
  fun _ inside same => fresh (Option.some.inj same ▸ inside)

omit [DecidableEq α] in
theorem head?_ne_of_not_mem (fresh : x ∉ xs) : xs.head? ≠ some x :=
  fun same => fresh (List.mem_of_head? same)

omit [DecidableEq α] in
theorem getLast?_ne_of_not_mem (fresh : x ∉ xs) : xs.getLast? ≠ some x :=
  fun same => fresh (List.mem_of_getLast? same)

theorem next_pushFront_of_ne (l : DoublyLinked α) (head : Option α) (other : y ≠ x) :
    (l.pushFront head x).next y = l.next y := by
  rw [pushFront, next_setPrev, next_setPrev]
  exact next_setNext_of_ne l head fun same => other (Option.some.inj same).symm

theorem prev_pushFront_of_ne (l : DoublyLinked α) {head : Option α} (other : y ≠ x)
    (follower : head ≠ some y) :
    (l.pushFront head x).prev y = l.prev y := by
  rw [pushFront, prev_setPrev_of_ne _ _ follower,
    prev_setPrev_of_ne _ _ fun same => other (Option.some.inj same).symm, prev_setNext]

theorem Spells.pushFront (spells : l.Spells xs) (distinct : xs.Nodup) (fresh : x ∉ xs) :
    (l.pushFront xs.head? x).Spells (x :: xs) := by
  have inner : ((l.setNext (some x) xs.head?).setPrev (some x) none).Spells xs :=
    (spells.setNext_outside _ (some_ne_of_not_mem fresh)).setPrev_outside _ (some_ne_of_not_mem fresh)
  refine ⟨?_, ?_, inner.setPrev_first distinct (some x)⟩
  · rw [DoublyLinked.pushFront, prev_setPrev_of_ne _ _ (head?_ne_of_not_mem fresh),
      prev_setPrev_self]
  · rw [DoublyLinked.pushFront, next_setPrev, next_setPrev, next_setNext_self, Option.or_none]

theorem Spells.append (spells : l.Spells xs) (distinct : xs.Nodup) (fresh : x ∉ xs) :
    (l.append xs.getLast? x).Spells (xs ++ [x]) := by
  have inner : ((l.setNext (some x) none).setPrev (some x) xs.getLast?).Spells xs :=
    (spells.setNext_outside _ (some_ne_of_not_mem fresh)).setPrev_outside _ (some_ne_of_not_mem fresh)
  refine segment_append.mpr ⟨inner.setNext_last distinct (some x), ?_, ?_, trivial⟩
  · rw [DoublyLinked.append, prev_setNext, prev_setPrev_self, Option.or_none]
  · rw [DoublyLinked.append, next_setNext_of_ne _ _ (getLast?_ne_of_not_mem fresh), next_setPrev,
      next_setNext_self]
    rfl

theorem Spells.unlink (spells : l.Spells (xs ++ x :: ys)) (distinct : (xs ++ x :: ys).Nodup) :
    (l.unlink x).Spells (xs ++ ys) := by
  obtain ⟨first, back, front, second⟩ := segment_append.mp spells
  obtain ⟨left, right, apart⟩ := List.nodup_append.mp distinct
  have apart' : ∀ y ∈ xs, y ∉ ys :=
    fun y inside other => apart y inside y (List.mem_cons_of_mem _ other) rfl
  rw [Option.or_none] at back front
  rw [DoublyLinked.unlink, back, front]
  refine segment_append.mpr ⟨?_, ?_⟩
  · rw [Option.or_none]
    refine (first.setNext_last left ys.head?).setPrev_outside _ fun y inside same => ?_
    exact apart' y inside (List.mem_of_head? same)
  · rw [Option.or_none]
    have kept : (l.setNext xs.getLast? ys.head?).Segment (some x) ys none :=
      second.setNext_outside _ fun y inside same => apart' y (List.mem_of_getLast? same) inside
    exact kept.setPrev_first (List.nodup_cons.mp right).2 xs.getLast?

/-- An element that is in another list keeps its links. -/
theorem unlink_elsewhere (spells : l.Spells (xs ++ x :: ys)) (outside : y ∉ xs ++ x :: ys) :
    (l.unlink x).next y = l.next y ∧ (l.unlink x).prev y = l.prev y := by
  have back := spells.prev_of_append
  have front := spells.next_of_append
  rw [Option.or_none] at back front
  have before : l.prev x ≠ some y := fun same =>
    outside (List.mem_append_left _ (List.mem_of_getLast? (back.symm.trans same)))
  have after : l.next x ≠ some y := fun same =>
    outside (List.mem_append_right _ (List.mem_cons_of_mem _ (List.mem_of_head? (front.symm.trans same))))
  rw [unlink, next_setPrev, next_setNext_of_ne _ _ before, prev_setPrev_of_ne _ _ after,
    prev_setNext]
  exact ⟨rfl, rfl⟩

omit [DecidableEq α] in
theorem head_unlink (spells : l.Spells (xs ++ x :: ys)) :
    (xs ++ ys).head? = if l.prev x = none then l.next x else (xs ++ x :: ys).head? := by
  rw [spells.prev_of_append, spells.next_of_append, Option.or_none, Option.or_none]
  cases xs with
  | nil => rfl
  | cons y xs => simp [List.getLast?_cons]

theorem last_unlink (spells : l.Spells (xs ++ x :: ys)) (distinct : (xs ++ x :: ys).Nodup) :
    (xs ++ ys).getLast? = if (xs ++ x :: ys).getLast? = some x then l.prev x
      else (xs ++ x :: ys).getLast? := by
  rw [spells.prev_of_append, Option.or_none]
  rcases List.eq_nil_or_concat ys with rfl | ⟨zs, z, rfl⟩
  · simp
  · rw [List.concat_eq_append] at *
    have other : z ≠ x := by
      rintro rfl
      simp [List.nodup_append] at distinct
    have last : (xs ++ x :: (zs ++ [z])).getLast? = some z := by
      rw [← List.cons_append, ← List.append_assoc, List.getLast?_concat]
    rw [last, if_neg fun same => other (Option.some.inj same), ← List.append_assoc,
      List.getLast?_concat]

end

/-! ### Walks -/

/-- The elements from one on, `fuel` of them at most. -/
def follow (l : DoublyLinked α) : Nat → Option α → List α
  | _, none | 0, some _ => []
  | fuel + 1, some x => x :: l.follow fuel (l.next x)

theorem follow_segment {l : DoublyLinked α} (segment : l.Segment before xs none)
    (enough : xs.length ≤ fuel) :
    l.follow fuel xs.head? = xs := by
  induction xs generalizing before fuel with
  | nil => cases fuel <;> rfl
  | cons x xs ih =>
    obtain ⟨-, front, rest⟩ := segment
    cases fuel with
    | zero => simp at enough
    | succ fuel =>
      rw [Option.or_none] at front
      rw [List.head?_cons, follow, front, ih rest (Nat.le_of_succ_le_succ enough)]

/-- Counts the elements from one on while their backward links are right. -/
def count [DecidableEq α] (l : DoublyLinked α) : Nat → Option α → Option α → Option Nat
  | _, _, none => some 0
  | 0, _, some _ => none
  | fuel + 1, before, some x =>
      if l.prev x ≠ before then none
      else (l.count fuel (some x) (l.next x)).map (· + 1)

theorem count_segment [DecidableEq α] {l : DoublyLinked α} (segment : l.Segment before xs none)
    (enough : xs.length ≤ fuel) : l.count fuel before xs.head? = some xs.length := by
  induction xs generalizing before fuel with
  | nil => cases fuel <;> rfl
  | cons x xs ih =>
    obtain ⟨back, front, rest⟩ := segment
    cases fuel with
    | zero => simp at enough
    | succ fuel =>
      rw [Option.or_none] at front
      rw [List.head?_cons, count, if_neg (not_not.mpr back), front,
        ih rest (Nat.le_of_succ_le_succ enough)]
      rfl

/-- A loop over a list that reads the next element before its body runs, so that
the body may move or unlink the element. It is `stuck` when the list does not end. -/
def forEach (stuck : ε) (next : σ → α → Option α) (body : σ → α → Except ε σ) :
    Nat → σ → Option α → Except ε σ
  | _, s, none => .ok s
  | 0, _, some _ => .error stuck
  | fuel + 1, s, some x =>
      let follower := next s x
      match body s x with
      | .error fault => .error fault
      | .ok s => forEach stuck next body fuel s follower

/-- `Inv s xs` holds when `xs` are the elements still to be visited in state `s`. -/
theorem forEach_eq (stuck : ε) {next : σ → α → Option α} {body : σ → α → Except ε σ}
    {Inv : σ → List α → Prop}
    (step : ∀ {s x xs}, Inv s (x :: xs) → next s x = xs.head? ∧ ∀ {t}, body s x = .ok t → Inv t xs)
    (inv : Inv s xs) (enough : xs.length ≤ fuel) :
    forEach stuck next body fuel s xs.head? = xs.foldlM body s ∧ ∀ {t}, xs.foldlM body s = .ok t →
      Inv t [] := by
  induction xs generalizing s fuel with
  | nil =>
    refine ⟨by cases fuel <;> rfl, fun done => ?_⟩
    cases Except.ok.inj done
    exact inv
  | cons x xs ih =>
    obtain ⟨follower, kept⟩ := step inv
    cases fuel with
    | zero => simp at enough
    | succ fuel =>
      rw [List.head?_cons, forEach, follower, List.foldlM_cons]
      cases moved : body s x with
      | error fault => exact ⟨rfl, fun done => nomatch done⟩
      | ok t => exact ih (kept moved) (Nat.le_of_succ_le_succ enough)

end DoublyLinked
