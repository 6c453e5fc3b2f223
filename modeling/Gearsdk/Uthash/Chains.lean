import Gearsdk.Uthash
import Mathlib.Data.Set.Insert
import Mathlib.Data.List.Range

/-! The chains of the buckets. Between them they hold each element of the table once,
in the bucket that its hash selects; an expansion moves all of them into buckets
that select with one more bit. -/
namespace Uthash

variable {α : Type} {hh : DoublyLinked α} {buckets : Nat → Bucket α} {bkt : α → Nat} {s : Set α}
  {chain : Nat → List α} {x y : α}

structure Bucket.Holds (bucket : Bucket α) (hh : DoublyLinked α) (ys : List α) : Prop where
  head : bucket.hhHead = ys.head?
  count : bucket.count = ys.length
  distinct : ys.Nodup
  spells : hh.Spells ys

/-- The elements of `s` are in the buckets that `bkt` selects. -/
structure Chains (hh : DoublyLinked α) (buckets : Nat → Bucket α) (bkt : α → Nat) (s : Set α)
    (chain : Nat → List α) : Prop where
  holds : ∀ i, (buckets i).Holds hh (chain i)
  mem : ∀ i x, x ∈ chain i ↔ x ∈ s ∧ bkt x = i

theorem Bucket.Holds.congr {bucket : Bucket α} {links : DoublyLinked α} (holds : bucket.Holds hh ys)
    (same : ∀ y ∈ ys, links.next y = hh.next y ∧ links.prev y = hh.prev y) :
    bucket.Holds links ys :=
  ⟨holds.head, holds.count, holds.distinct, holds.spells.congr same⟩

theorem Chains.empty (hh : DoublyLinked α) (bkt : α → Nat) :
    Chains hh (fun _ => {}) bkt ∅ fun _ => [] where
  holds _ := ⟨rfl, rfl, List.nodup_nil, trivial⟩
  mem := by simp

theorem Chains.congr_mem {t : Set α} (chains : Chains hh buckets bkt s chain)
    (same : ∀ x, x ∈ s ↔ x ∈ t) :
    Chains hh buckets bkt t chain := by
  obtain rfl : s = t := Set.ext same
  exact chains

/-- The selecting function matters for the elements only. -/
theorem Chains.congr_bkt {bkt' : α → Nat} (chains : Chains hh buckets bkt s chain)
    (same : ∀ x ∈ s, bkt' x = bkt x) :
    Chains hh buckets bkt' s chain := by
  refine ⟨chains.holds, fun i x => (chains.mem i x).trans ?_⟩
  exact and_congr_right fun inside => by rw [same x inside]

section
variable [DecidableEq α]

/-- A new element at the head of its bucket. -/
theorem Chains.push (chains : Chains hh buckets bkt s chain) (fresh : x ∉ s) (expandMult : Nat) :
    Chains (hh.pushFront (buckets (bkt x)).hhHead x)
      (Function.update buckets (bkt x)
        { hhHead := some x, count := (buckets (bkt x)).count + 1, expandMult }) bkt (insert x s)
      (Function.update chain (bkt x) (x :: chain (bkt x))) := by
  have unlisted : ∀ i, x ∉ chain i := fun i inside => fresh ((chains.mem i x).mp inside).1
  refine ⟨fun i => ?_, fun i y => ?_⟩
  · by_cases same : i = bkt x
    · subst same
      obtain ⟨head, count, distinct, spells⟩ := chains.holds (bkt x)
      rw [Function.update_self, Function.update_self, head]
      exact ⟨rfl, by rw [count]; rfl, List.nodup_cons.mpr ⟨unlisted _, distinct⟩,
        spells.pushFront distinct (unlisted _)⟩
    · rw [Function.update_of_ne same, Function.update_of_ne same]
      refine (chains.holds i).congr fun y inside => ?_
      have different : y ≠ x := fun equal => unlisted i (equal ▸ inside)
      refine ⟨DoublyLinked.next_pushFront_of_ne hh _ different,
        DoublyLinked.prev_pushFront_of_ne hh different fun first => ?_⟩
      rw [(chains.holds (bkt x)).head] at first
      have there := ((chains.mem _ y).mp (List.mem_of_head? first)).2
      exact same (((chains.mem i y).mp inside).2.symm.trans there)
  · by_cases same : i = bkt x
    · subst same
      rw [Function.update_self, List.mem_cons, chains.mem, Set.mem_insert_iff]
      constructor
      · rintro (rfl | ⟨inside, selected⟩)
        · exact ⟨.inl rfl, rfl⟩
        · exact ⟨.inr inside, selected⟩
      · rintro ⟨rfl | inside, selected⟩
        · exact .inl rfl
        · exact .inr ⟨inside, selected⟩
    · rw [Function.update_of_ne same, chains.mem, Set.mem_insert_iff]
      refine and_congr_left fun selected => ⟨.inr, fun either => either.resolve_left ?_⟩
      rintro rfl
      exact same selected.symm

/-- An element leaves its bucket. -/
theorem Chains.remove (chains : Chains hh buckets bkt s chain) (inside : x ∈ s) :
    Chains (hh.unlink x)
      (Function.update buckets (bkt x)
        { buckets (bkt x) with
          hhHead := if (buckets (bkt x)).hhHead = some x then hh.next x
            else (buckets (bkt x)).hhHead
          count := (buckets (bkt x)).count - 1 }) bkt (s \ {x})
      (Function.update chain (bkt x) ((chain (bkt x)).erase x)) := by
  obtain ⟨front, back, whole⟩ := List.append_of_mem ((chains.mem (bkt x) x).mpr ⟨inside, rfl⟩)
  obtain ⟨head, count, distinct, spells⟩ := chains.holds (bkt x)
  rw [whole] at head count distinct spells
  have absent : x ∉ front := by
    have apart := (List.nodup_append.mp distinct).2.2
    exact fun again => apart x again x List.mem_cons_self rfl
  have left : (chain (bkt x)).erase x = front ++ back := by
    rw [whole, List.erase_append_right _ absent, List.erase_cons_head]
  rw [left]
  refine ⟨fun i => ?_, fun i y => ?_⟩
  · by_cases same : i = bkt x
    · subst same
      rw [Function.update_self, Function.update_self]
      refine ⟨?_, ?_, ?_, spells.unlink distinct⟩
      · rw [DoublyLinked.head_unlink spells, head, spells.prev_of_append, Option.or_none]
        cases front with
        | nil => simp
        | cons z zs =>
          have different : z ≠ x := fun equal => absent (equal ▸ List.mem_cons_self)
          simp [different, List.getLast?_cons]
      · change (buckets (bkt x)).count - 1 = (front ++ back).length
        rw [count, List.length_append, List.length_append, List.length_cons]
        omega
      · exact distinct.sublist ((List.sublist_cons_self x back).append_left front)
    · rw [Function.update_of_ne same, Function.update_of_ne same]
      refine (chains.holds i).congr fun y here => DoublyLinked.unlink_elsewhere spells
        fun there => ?_
      rw [← whole] at there
      exact same (((chains.mem i y).mp here).2.symm.trans ((chains.mem _ y).mp there).2)
  · rw [Set.mem_sdiff, Set.mem_singleton_iff]
    by_cases same : i = bkt x
    · subst same
      have members : y ∈ front ++ back ↔ y ∈ chain (bkt x) ∧ y ≠ x := by
        rw [← left, ((chains.holds (bkt x)).distinct).mem_erase_iff, and_comm]
      rw [Function.update_self, members, chains.mem, and_right_comm]
    · rw [Function.update_of_ne same, chains.mem, and_right_comm]
      refine (and_iff_left_of_imp ?_).symm
      rintro ⟨-, selected⟩ rfl
      exact same selected.symm

/-! ### Expansion -/

variable {h : Hash α} {e : Expansion α} {m : Set α}

/-- The elements of `m` are in the new buckets; the others can still be followed
along their old chains. -/
def Moved (h : Hash α) (m : Set α) (e : Expansion α) : Prop :=
  (∃ chain, Chains e.hh e.newBuckets (fun x => toBkt (h.hashv x) (h.tbl.numBuckets * 2)) m chain) ∧
    ∀ x, x ∉ m → e.hh.next x = h.hh.next x

omit [DecidableEq α] in
theorem Moved.congr {m' : Set α} (moved : Moved h m e) (same : ∀ x, x ∈ m ↔ x ∈ m') :
    Moved h m' e := by
  obtain rfl : m = m' := Set.ext same
  exact moved

theorem Moved.item (moved : Moved h m e) (fresh : x ∉ m) (ideal : Nat) :
    Moved h (insert x m) (h.moveItem ideal e x) := by
  obtain ⟨⟨chain, chains⟩, old⟩ := moved
  refine ⟨⟨_, chains.push fresh _⟩, fun y outside => ?_⟩
  rw [Set.mem_insert_iff, not_or] at outside
  exact (DoublyLinked.next_pushFront_of_ne e.hh _ outside.1).trans (old y outside.2)

theorem Moved.bucket (moved : Moved h m e) (old : Chains h.hh h.tbl.buckets bkt s chain) (i : Nat)
    (unmoved : ∀ x ∈ chain i, x ∉ m) (ideal : Nat) :
    ∃ e', h.moveBucket ideal e i = .ok e' ∧ Moved h (m ∪ {x | x ∈ chain i}) e' := by
  obtain ⟨head, count, distinct, spells⟩ := old.holds i
  -- the elements still to be moved are a rest of the old chain
  let Inv : Expansion α → List α → Prop := fun e ys =>
    ys.Nodup ∧ (∃ before, h.hh.Segment before ys none) ∧ (∀ y ∈ ys, y ∈ chain i) ∧
      Moved h ((m ∪ {x | x ∈ chain i}) \ {y | y ∈ ys}) e
  have inv : Inv e (chain i) := by
    refine ⟨distinct, ⟨none, spells⟩, fun _ => id, moved.congr fun x => ?_⟩
    constructor
    · exact fun inside => ⟨.inl inside, fun there => unmoved x there inside⟩
    · exact fun inside => inside.1.resolve_right inside.2
  have step : ∀ {e x ys}, Inv e (x :: ys) →
      e.hh.next x = ys.head? ∧ ∀ {e'}, (.ok (h.moveItem ideal e x) : Except Unit _) = .ok e' →
        Inv e' ys := by
    intro e x ys inv
    obtain ⟨distinct, ⟨before, segment⟩, part, moved⟩ := inv
    obtain ⟨fresh, distinct⟩ := List.nodup_cons.mp distinct
    have waiting : x ∉ (m ∪ {x | x ∈ chain i}) \ {y | y ∈ x :: ys} :=
      fun inside => inside.2 List.mem_cons_self
    constructor
    · rw [moved.2 x waiting, segment.2.1, Option.or_none]
    rintro e' ⟨⟩
    refine ⟨distinct, ⟨some x, segment.2.2⟩, fun y inside => part y (List.mem_cons_of_mem _ inside), ?_⟩
    refine (moved.item waiting ideal).congr fun y => ?_
    simp only [Set.mem_insert_iff, Set.mem_sdiff, Set.mem_ofPred_eq, List.mem_cons, not_or]
    constructor
    · rintro (rfl | ⟨inside, -, other⟩)
      · exact ⟨.inr (part y List.mem_cons_self), fresh⟩
      · exact ⟨inside, other⟩
    · rintro ⟨inside, other⟩
      by_cases same : y = x
      · exact .inl same
      · exact .inr ⟨inside, same, other⟩
  obtain ⟨walked, last⟩ := DoublyLinked.forEach_eq () step inv (le_of_eq count.symm)
  have visited : ∀ (ys : List α) e,
    ys.foldlM (fun e y => (.ok (h.moveItem ideal e y) : Except Unit _)) e =
      .ok (ys.foldl (h.moveItem ideal) e) := by
    intro ys
    induction ys with
    | nil => exact fun _ => rfl
    | cons y ys ih => exact fun e => ih _
  rw [visited, ← head] at walked
  exact ⟨_, walked, (last (visited _ _)).2.2.2.congr fun x => by simp⟩

theorem Moved.firstBuckets (old : Chains h.hh h.tbl.buckets bkt s chain) (ideal n : Nat) :
    ∃ e, (List.range n).foldlM (h.moveBucket ideal) { hh := h.hh } = .ok e ∧
      Moved h {x ∈ s | bkt x < n} e := by
  induction n with
  | zero =>
    refine ⟨_, rfl, ⟨_, (Chains.empty h.hh _).congr_mem fun x => ?_⟩, fun _ _ => rfl⟩
    simp
  | succ n ih =>
    obtain ⟨e, ran, moved⟩ := ih
    have unmoved : ∀ x ∈ chain n, x ∉ {x ∈ s | bkt x < n} := by
      intro x inside earlier
      have selected := ((old.mem n x).mp inside).2
      have below : bkt x < n := earlier.2
      omega
    obtain ⟨e', walked, further⟩ := moved.bucket old n unmoved ideal
    refine ⟨e', ?_, further.congr fun x => ?_⟩
    · rw [List.range_succ, List.foldlM_append, ran]
      exact (bind_pure _).trans walked
    · rw [Set.mem_union, Set.mem_ofPred_eq, Set.mem_ofPred_eq, Set.mem_ofPred_eq, old.mem,
        Nat.lt_succ_iff_lt_or_eq, and_or_left]

theorem toBkt_lt (hashv : UInt32) (log2 : Nat) : toBkt hashv (2 ^ log2) < 2 ^ log2 := by
  rw [toBkt, Nat.and_two_pow_sub_one_eq_mod]
  exact Nat.mod_lt _ (Nat.two_pow_pos log2)

/-- The state of a table that matters: its size and its chains. -/
structure Hash.Filed (h : Hash α) (s : Set α) : Prop where
  power : h.tbl.numBuckets = 2 ^ h.tbl.log2NumBuckets
  chains : ∃ chain, Chains h.hh h.tbl.buckets (fun x => toBkt (h.hashv x) h.tbl.numBuckets) s chain

/-- An expansion loses no element and changes nothing but the chains. -/
theorem Hash.expandBuckets_spec (filed : h.Filed s) :
    ∃ h', h.expandBuckets = .ok h' ∧ h'.Filed s ∧
      h' = { h with hh := h'.hh, tbl := { h'.tbl with
        numItems := h.tbl.numItems, tail := h.tbl.tail } } := by
  obtain ⟨power, chain, chains⟩ := filed
  simp only [expandBuckets]
  generalize (h.tbl.numItems >>> (h.tbl.log2NumBuckets + 1) + _ : Nat) = ideal
  obtain ⟨e, ran, ⟨chain', moved⟩, -⟩ := Moved.firstBuckets chains ideal h.tbl.numBuckets
  rw [ran]
  refine ⟨_, rfl, ⟨?_, chain', moved.congr_mem fun x => ?_⟩, rfl⟩
  · change h.tbl.numBuckets * 2 = 2 ^ (h.tbl.log2NumBuckets + 1)
    rw [power, Nat.pow_succ]
  · refine and_iff_left_of_imp fun _ => ?_
    rw [power]
    exact toBkt_lt _ _

theorem Hash.addToBkt_spec (filed : h.Filed s) (fresh : x ∉ s) :
    ∃ h', h.addToBkt (toBkt (h.hashv x) h.tbl.numBuckets) x = .ok h' ∧ h'.Filed (insert x s) ∧
      h' = { h with hh := h'.hh, tbl := { h'.tbl with
        numItems := h.tbl.numItems, tail := h.tbl.tail } } := by
  obtain ⟨power, chain, chains⟩ := filed
  have pushed : ({ h with
      hh := h.hh.pushFront (h.tbl.buckets (toBkt (h.hashv x) h.tbl.numBuckets)).hhHead x
      tbl := { h.tbl with
        buckets := Function.update h.tbl.buckets (toBkt (h.hashv x) h.tbl.numBuckets)
          { h.tbl.buckets (toBkt (h.hashv x) h.tbl.numBuckets) with
            hhHead := some x
            count := (h.tbl.buckets (toBkt (h.hashv x) h.tbl.numBuckets)).count +
              1 } } } : Hash α).Filed (insert x s) :=
    ⟨power, _, chains.push fresh _⟩
  simp only [addToBkt]
  split
  · obtain ⟨h', expanded, filed, frame⟩ := expandBuckets_spec pushed
    exact ⟨h', expanded, filed, frame⟩
  · exact ⟨_, rfl, pushed, rfl⟩

end
end Uthash
