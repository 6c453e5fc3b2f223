import Gearsdk.Uthash.Chains
import Mathlib.Data.List.Perm.Basic
import Mathlib.Algebra.BigOperators.Group.List.Basic

/-! Whole runs over a hash table. A table is always the list of the elements that
were added and not deleted, in the order in which they were added. -/
namespace Uthash

namespace Hash
variable {α : Type} [DecidableEq α] {h : Hash α} {xs : List α} {x y : α}

/-- The table holds the elements `xs`, in this order. -/
structure Holds (h : Hash α) (xs : List α) : Prop where
  head : h.head = xs.head?
  distinct : xs.Nodup
  spells : h.app.Spells xs
  hashed : ∀ x ∈ xs, h.hashv x = jen (h.key x)
  tail : xs ≠ [] → h.tbl.tail = xs.getLast?
  numItems : xs ≠ [] → h.tbl.numItems = xs.length
  filed : xs ≠ [] → h.Filed {x | x ∈ xs}

omit [DecidableEq α] in
theorem Holds.init : ({} : Hash α).Holds [] :=
  ⟨rfl, List.nodup_nil, trivial, by simp, by simp, by simp, by simp⟩

omit [DecidableEq α] in
theorem Holds.cnt (holds : h.Holds xs) : h.cnt = xs.length := by
  rw [Hash.cnt, holds.head]
  cases xs with
  | nil => rfl
  | cons x xs => exact holds.numItems (List.cons_ne_nil x xs)

omit [DecidableEq α] in
theorem Holds.items (holds : h.Holds xs) : h.items = xs := by
  rw [Hash.items, holds.head]
  exact DoublyLinked.follow_segment holds.spells (le_of_eq holds.cnt.symm)

omit [DecidableEq α] in
theorem Holds.self (holds : h.Holds xs) : h.Holds h.items := by
  rw [holds.items]
  exact holds

/-! ### Adding -/

/-- The new element is the last one of the list. -/
theorem Holds.enlist (holds : h.Holds xs) (key : List UInt8) (fresh : x ∉ xs) :
    (h.enlist key x).head = (xs ++ [x]).head? ∧ (h.enlist key x).app.Spells (xs ++ [x]) ∧
      (h.enlist key x).tbl.tail = some x ∧ (h.enlist key x).key = Function.update h.key x key ∧
      (h.enlist key x).hashv = Function.update h.hashv x (jen key) := by
  have head := holds.head
  cases xs with
  | nil =>
    rw [List.head?_nil] at head
    simp only [Hash.enlist, head]
    refine ⟨rfl, ⟨?_, ?_, trivial⟩, trivial, trivial, trivial⟩
    · rw [DoublyLinked.prev_setPrev_self]
    · rw [DoublyLinked.next_setPrev, DoublyLinked.next_setNext_self]
      rfl
  | cons y ys =>
    rw [List.head?_cons] at head
    simp only [Hash.enlist, head]
    rw [holds.tail (List.cons_ne_nil y ys)]
    exact ⟨rfl, holds.spells.append holds.distinct fresh, trivial, trivial, trivial⟩

/-- The chains before the new element is in one of them. -/
theorem Holds.filed_enlist (holds : h.Holds xs) (key : List UInt8) (fresh : x ∉ xs) :
    (h.enlist key x).Filed {y | y ∈ xs} := by
  have head := holds.head
  cases xs with
  | nil =>
    rw [List.head?_nil] at head
    simp only [Hash.enlist, head]
    exact ⟨rfl, _, (Chains.empty h.hh _).congr_mem (by simp)⟩
  | cons z zs =>
    rw [List.head?_cons] at head
    obtain ⟨power, chain, chains⟩ := holds.filed (List.cons_ne_nil z zs)
    simp only [Hash.enlist, head]
    refine ⟨power, chain, chains.congr_bkt fun y inside => ?_⟩
    have different : y ≠ x := fun same => fresh (same ▸ inside)
    change toBkt (Function.update h.hashv x (jen key) y) h.tbl.numBuckets = _
    rw [Function.update_of_ne different]

theorem Holds.numItems_enlist (holds : h.Holds xs) (key : List UInt8) :
    (h.enlist key x).tbl.numItems = xs.length := by
  have head := holds.head
  cases xs with
  | nil =>
    rw [List.head?_nil] at head
    simp only [Hash.enlist, head, List.length_nil]
  | cons y ys =>
    rw [List.head?_cons] at head
    simp only [Hash.enlist, head]
    exact holds.numItems (List.cons_ne_nil y ys)

theorem Holds.add (holds : h.Holds xs) (key : List UInt8) (fresh : x ∉ xs) :
    ∃ h', h.add key x = .ok h' ∧ h'.Holds (xs ++ [x]) ∧ h'.key = Function.update h.key x key := by
  obtain ⟨head, spells, tail, keys, hashes⟩ := holds.enlist key fresh
  have count := holds.numItems_enlist (x := x) key
  have filed : ({ h.enlist key x with
      tbl := { (h.enlist key x).tbl with
        numItems := (h.enlist key x).tbl.numItems + 1 } } : Hash α).Filed {y | y ∈ xs} := by
    obtain ⟨power, chain, chains⟩ := holds.filed_enlist key fresh
    exact ⟨power, chain, chains⟩
  obtain ⟨h', added, filed, frame⟩ := addToBkt_spec filed (x := x) fresh
  have selected : (h.enlist key x).hashv x = jen key := by
    rw [hashes, Function.update_self]
  have kept : h'.head = (h.enlist key x).head ∧ h'.app = (h.enlist key x).app ∧
    h'.key = (h.enlist key x).key ∧
      h'.hashv = (h.enlist key x).hashv ∧ h'.tbl.tail = (h.enlist key x).tbl.tail ∧
      h'.tbl.numItems = (h.enlist key x).tbl.numItems + 1 := by
    rw [frame]
    exact ⟨rfl, rfl, rfl, rfl, rfl, rfl⟩
  obtain ⟨sameHead, sameApp, sameKey, sameHash, sameTail, grown⟩ := kept
  refine ⟨h', ?_, ⟨?_, ?_, ?_, ?_, ?_, ?_, ?_⟩, sameKey.trans keys⟩
  · change ({ h.enlist key x with tbl := _ } : Hash α).addToBkt (toBkt (jen key) _) x = .ok h'
    rw [← selected]
    exact added
  · rw [sameHead, head]
  · rw [List.nodup_append]
    refine ⟨holds.distinct, List.nodup_singleton x, fun y inside z last => ?_⟩
    rw [List.mem_singleton.mp last]
    exact fun same => fresh (same ▸ inside)
  · rw [sameApp]
    exact spells
  · intro y inside
    rw [sameHash, sameKey, hashes, keys]
    by_cases same : y = x
    · rw [same, Function.update_self, Function.update_self]
    · rw [Function.update_of_ne same, Function.update_of_ne same]
      exact holds.hashed y ((List.mem_append.mp inside).resolve_right fun last =>
        same (List.mem_singleton.mp last))
  · intro _
    rw [sameTail, tail, List.getLast?_concat]
  · intro _
    rw [grown, count, List.length_append, List.length_singleton]
  · intro _
    obtain ⟨power, chain, chains⟩ := filed
    refine ⟨power, chain, chains.congr_mem fun y => ?_⟩
    rw [Set.mem_insert_iff, Set.mem_ofPred_eq, Set.mem_ofPred_eq, List.mem_append,
      List.mem_singleton, or_comm]

/-! ### Deleting -/

theorem erase_middle {front back : List α} (distinct : (front ++ x :: back).Nodup) :
    (front ++ x :: back).erase x = front ++ back := by
  have absent : x ∉ front :=
    fun again => (List.nodup_append.mp distinct).2.2 x again x List.mem_cons_self rfl
  rw [List.erase_append_right _ absent, List.erase_cons_head]

theorem Holds.delete (holds : h.Holds xs) (inside : x ∈ xs) :
    (h.delete x).Holds (xs.erase x) ∧ (h.delete x).key = h.key := by
  obtain ⟨front, back, rfl⟩ := List.append_of_mem inside
  have full : front ++ x :: back ≠ [] := by simp
  have before := holds.spells.prev_of_append
  have after := holds.spells.next_of_append
  rw [Option.or_none] at before after
  rw [erase_middle holds.distinct]
  simp only [Hash.delete]
  by_cases only : h.app.prev x = none ∧ h.app.next x = none
  · -- the last element takes the table with it
    rw [if_pos only]
    obtain rfl : front = [] := List.getLast?_eq_none_iff.mp (before.symm.trans only.1)
    obtain rfl : back = [] := List.head?_eq_none_iff.mp (after.symm.trans only.2)
    exact ⟨⟨rfl, List.nodup_nil, trivial, by simp, by simp, by simp, by simp⟩, rfl⟩
  rw [if_neg only]
  obtain ⟨power, chain, chains⟩ := holds.filed full
  have length := holds.numItems full
  rw [List.length_append, List.length_cons] at length
  refine ⟨⟨?_, ?_, holds.spells.unlink holds.distinct, ?_, ?_, ?_, ?_⟩, rfl⟩
  · rw [DoublyLinked.head_unlink holds.spells, ← holds.head]
    rfl
  · exact holds.distinct.sublist ((List.sublist_cons_self x back).append_left front)
  · intro y here
    refine holds.hashed y ?_
    rcases List.mem_append.mp here with early | late
    · exact List.mem_append_left _ early
    · exact List.mem_append_right _ (List.mem_cons_of_mem _ late)
  · intro _
    rw [DoublyLinked.last_unlink holds.spells holds.distinct, ← holds.tail full]
    rfl
  · intro _
    change h.tbl.numItems - 1 = (front ++ back).length
    rw [length, List.length_append]
    omega
  · intro _
    refine ⟨power, _, (chains.remove inside).congr_mem fun y => ?_⟩
    rw [← erase_middle holds.distinct, Set.mem_sdiff, Set.mem_singleton_iff, Set.mem_ofPred_eq,
      Set.mem_ofPred_eq, holds.distinct.mem_erase_iff, and_comm]

/-! ### Finding -/

omit [DecidableEq α] in
theorem findInBkt_segment {before : Option α} {ys : List α} {fuel : Nat}
    (segment : h.hh.Segment before ys none) (enough : ys.length ≤ fuel) (key : List UInt8)
    (hashval : UInt32) :
    h.findInBkt key hashval fuel ys.head? = ys.find? fun y => h.hashv y = hashval ∧
      h.key y = key := by
  induction ys generalizing before fuel with
  | nil => cases fuel <;> rfl
  | cons y ys ih =>
    obtain ⟨-, front, rest⟩ := segment
    cases fuel with
    | zero => simp at enough
    | succ fuel =>
      rw [Option.or_none] at front
      rw [List.head?_cons, findInBkt, front, ih rest (Nat.le_of_succ_le_succ enough),
        List.find?_cons]
      split <;> rename_i test <;> simp [test]

/-- A search finds an element with the key if there is one. -/
inductive Found (h : Hash α) (xs : List α) (key : List UInt8) : Option α → Prop where
  | hit {x : α} (inside : x ∈ xs) (same : h.key x = key) : Found h xs key (some x)
  | miss (absent : ∀ x ∈ xs, h.key x ≠ key) : Found h xs key none

omit [DecidableEq α] in
theorem Holds.find (holds : h.Holds xs) (key : List UInt8) : Found h xs key (h.find key) := by
  rw [Hash.find, holds.head]
  cases xs with
  | nil => exact .miss (by simp)
  | cons y ys =>
    obtain ⟨-, chain, chains⟩ := holds.filed (List.cons_ne_nil y ys)
    obtain ⟨head, count, -, spells⟩ := chains.holds (toBkt (jen key) h.tbl.numBuckets)
    simp only [List.head?_cons]
    rw [head, findInBkt_segment spells (le_of_eq count.symm)]
    generalize found : List.find? _ _ = result
    cases result with
    | some x =>
      have test := List.find?_some found
      rw [decide_eq_true_eq] at test
      exact .hit ((chains.mem _ x).mp (List.mem_of_find?_eq_some found)).1 test.2
    | none =>
      refine .miss fun x inside same => ?_
      have hashed := holds.hashed x inside
      rw [same] at hashed
      have there : x ∈ chain (toBkt (jen key) h.tbl.numBuckets) :=
        (chains.mem _ x).mpr ⟨inside, by rw [hashed]⟩
      have test := List.find?_eq_none.mp found x there
      rw [decide_eq_true_eq] at test
      exact test ⟨hashed, same⟩

/-! ### The integrity check -/

omit [DecidableEq α] in
theorem countP_lt_succ (bkt : α → Nat) (xs : List α) (n : Nat) :
    (xs.countP fun x => bkt x < n + 1) = (xs.countP fun x => bkt x < n) + xs.countP fun x =>
      bkt x = n := by
  induction xs with
  | nil => rfl
  | cons x xs ih =>
    have split : (if bkt x < n + 1 then 1 else 0) = (if bkt x < n then 1 else 0) + if bkt x =
        n then 1 else 0 := by
      split_ifs <;> omega
    simp only [List.countP_cons, decide_eq_true_eq, ih, split]
    omega

omit [DecidableEq α] in
/-- Each element is counted in its own bucket. -/
theorem sum_countP (bkt : α → Nat) (xs : List α) (n : Nat) :
    ((List.range n).map fun i => xs.countP fun x => bkt x = i).sum = xs.countP fun x =>
      bkt x < n := by
  induction n with
  | zero => simp
  | succ n ih =>
    rw [List.range_succ, List.map_append, List.sum_append, ih, List.map_singleton,
      List.sum_singleton, countP_lt_succ]

theorem Holds.fsckBucket (holds : h.Holds xs) (full : xs ≠ []) (i : Nat) :
    h.fsckBucket i = some (xs.countP fun x => toBkt (h.hashv x) h.tbl.numBuckets = i) := by
  obtain ⟨-, chain, chains⟩ := holds.filed full
  obtain ⟨head, count, distinct, spells⟩ := chains.holds i
  have same : (chain i).Perm (xs.filter fun x => toBkt (h.hashv x) h.tbl.numBuckets = i) := by
    refine (List.perm_ext_iff_of_nodup distinct (holds.distinct.filter _)).mpr fun x => ?_
    rw [chains.mem, List.mem_filter, decide_eq_true_eq]
    rfl
  have length := same.length_eq
  rw [← List.countP_eq_length_filter] at length
  have enough : (chain i).length ≤ h.tbl.numItems := by
    rw [length, holds.numItems full]
    exact List.countP_le_length
  simp only [Hash.fsckBucket]
  rw [head, DoublyLinked.count_segment spells enough, count]
  simp [length]

theorem mapM_some {β : Type} {f : Nat → Option β} {g : Nat → β} (same : ∀ i, f i = some (g i))
    (is : List Nat) :
    is.mapM f = some (is.map g) := by
  induction is with
  | nil => rfl
  | cons i is ih =>
    rw [List.mapM_cons, same, ih]
    rfl

theorem Holds.fsck (holds : h.Holds xs) : h.fsck = true := by
  have head := holds.head
  rw [Hash.fsck]
  cases xs with
  | nil => rw [head, List.head?_nil]
  | cons y ys =>
    have full : y :: ys ≠ [] := List.cons_ne_nil y ys
    have counted := DoublyLinked.count_segment holds.spells (le_of_eq (holds.numItems full).symm)
    have within : (y :: ys).countP (fun x => toBkt (h.hashv x) h.tbl.numBuckets <
        h.tbl.numBuckets) = (y :: ys).length := by
      refine List.countP_eq_length.mpr fun x _ => ?_
      rw [decide_eq_true_eq, (holds.filed full).power]
      exact toBkt_lt _ _
    rw [← head] at counted
    rw [List.head?_cons] at head
    rw [mapM_some (holds.fsckBucket full), counted, head]
    simp only [sum_countP, within, holds.numItems full, decide_true, Bool.and_self]

end Hash

/-! ### Runs -/

inductive Event (α : Type) where
  | add (key : List UInt8) (x : α)
  | delete (x : α)

variable {α : Type} [DecidableEq α]

/-- An element may be added when it is not in the table, and deleted when it is. -/
def machine (α : Type) [DecidableEq α] : Transition.Machine (Hash α) (Event α) Unit where
  init := {}
  enabled
    | h, .add _ x => x ∉ h.items
    | h, .delete x => x ∈ h.items
  next
    | h, .add key x => h.add key x
    | h, .delete x => .ok (h.delete x)

instance (h : Hash α) (e : Event α) : Decidable ((machine α).enabled h e) :=
  match e with
  | .add _ x => inferInstanceAs (Decidable (x ∉ h.items))
  | .delete x => inferInstanceAs (Decidable (x ∈ h.items))

/-- What a table is for: the keys and elements in it, oldest first. -/
def Event.apply (entries : List (List UInt8 × α)) : Event α → List (List UInt8 × α)
  | .add key x => entries ++ [(key, x)]
  | .delete x => entries.filter (·.2 ≠ x)

def contents (es : List (Event α)) : List (List UInt8 × α) := es.foldl Event.apply []

structure Stores (h : Hash α) (entries : List (List UInt8 × α)) : Prop where
  holds : h.Holds (entries.map Prod.snd)
  keys : ∀ entry ∈ entries, h.key entry.2 = entry.1

theorem map_filter_erase {entries : List (List UInt8 × α)}
    (distinct : (entries.map Prod.snd).Nodup) (x : α) :
    (entries.filter (·.2 ≠ x)).map Prod.snd = (entries.map Prod.snd).erase x := by
  rw [distinct.erase_eq_filter, List.filter_map]
  refine congrArg (List.map Prod.snd) (List.filter_congr fun entry _ => ?_)
  simp only [Function.comp_apply, bne, beq_eq_decide, ne_eq, decide_not]

theorem Stores.step {h : Hash α} {entries : List (List UInt8 × α)} {e : Event α}
    (stores : Stores h entries) (possible : (machine α).enabled h e) :
    ∃ h', (machine α).next h e = .ok h' ∧ Stores h' (e.apply entries) := by
  obtain ⟨holds, keys⟩ := stores
  cases e with
  | add key x =>
    have fresh : x ∉ entries.map Prod.snd := holds.items ▸ possible
    obtain ⟨h', added, grown, keys'⟩ := holds.add key fresh
    refine ⟨h', added, ?_, fun entry inside => ?_⟩
    · rw [Event.apply, List.map_append]
      exact grown
    · rw [keys']
      rcases List.mem_append.mp inside with old | last
      · have different : entry.2 ≠ x := fun same => fresh (same ▸ List.mem_map_of_mem old)
        rw [Function.update_of_ne different]
        exact keys entry old
      · obtain rfl := List.mem_singleton.mp last
        exact Function.update_self ..
  | delete x =>
    have inside : x ∈ entries.map Prod.snd := holds.items ▸ possible
    obtain ⟨left, keys'⟩ := holds.delete inside
    refine ⟨h.delete x, rfl, ?_, fun entry member => ?_⟩
    · rw [Event.apply, map_filter_erase holds.distinct]
      exact left
    · rw [keys']
      exact keys entry (List.mem_filter.mp member).1

theorem stores_of_run {h : Hash α} {es : List (Event α)} (run : (machine α).Run es h) :
    Stores h (contents es) := by
  refine Transition.Machine.Run.induction (P := fun es h => Stores h (contents es)) ⟨.init,
    fun _ none => nomatch none⟩ ?_ run
  intro es h e h' _ stores step
  obtain ⟨h'', reached, after⟩ := stores.step step.1
  cases Except.ok.inj (step.2.symm.trans reached)
  rw [contents, List.foldl_append]
  exact after

/-- After any additions and deletions the table passes its integrity check, counts
and iterates over what was added and not deleted in the order of insertion, finds
an element under a key exactly when one is there, and takes the next event. -/
theorem hash_table_refines {h : Hash α} {es : List (Event α)} (run : (machine α).Run es h) :
    h.fsck = true ∧ h.cnt = (contents es).length ∧ h.items = (contents es).map Prod.snd ∧
      (∀ key x, h.find key = some x → (key, x) ∈ contents es) ∧
      (∀ key, h.find key = none ↔ ∀ x, (key, x) ∉ contents es) ∧
      ∀ e, (machine α).enabled h e → ∃ h', (machine α).Step h e h' := by
  have stores := stores_of_run run
  have holds := stores.holds
  have keys := stores.keys
  have keyed : ∀ x, x ∈ (contents es).map Prod.snd → (h.key x, x) ∈ contents es := by
    intro x inside
    obtain ⟨entry, member, rfl⟩ := List.mem_map.mp inside
    rw [keys entry member]
    exact member
  refine ⟨holds.fsck, ?_, holds.items, fun key x found => ?_, fun key => ?_, fun e possible => ?_⟩
  · rw [holds.cnt, List.length_map]
  · have outcome := holds.find key
    rw [found] at outcome
    cases outcome with
    | hit inside same => exact same ▸ keyed x inside
  · have outcome := holds.find key
    constructor
    · intro missing x member
      rw [missing] at outcome
      cases outcome with
      | miss absent => exact absent x (List.mem_map_of_mem member) (keys _ member)
    · intro absent
      generalize h.find key = result at outcome ⊢
      cases outcome with
      | hit inside same => exact absurd (same ▸ keyed _ inside) (absent _)
      | miss => rfl
  · obtain ⟨h', reached, -⟩ := stores.step possible
    exact ⟨h', possible, reached⟩

/-- Ten keys that fall into one bucket of thirty-two, so that the tenth doubles the
table, and the second one taken out again. -/
def crowd : List (Event Nat) :=
  ([15, 36, 56, 113, 144, 177, 178, 189, 226, 251].map fun key => .add [UInt8.ofNat key] key) ++
    [.delete 36]

theorem hash_table_refines_crowd :
    ∃ h, (machine Nat).Run crowd h ∧ h.tbl.numBuckets = 64 ∧ h.fsck = true ∧
      h.items = [15, 56, 113, 144, 177, 178, 189, 226, 251] := by
  have shown : ((machine Nat).exec {} crowd).map (·.tbl.numBuckets) = some 64 := by decide +kernel
  obtain ⟨h, run, doubled⟩ := Transition.Machine.exec_observe shown
  obtain ⟨sound, -, order, -⟩ := hash_table_refines run
  have left : (contents crowd).map Prod.snd = [15, 56, 113, 144, 177, 178, 189, 226, 251] := by
    decide +kernel
  exact ⟨h, run, doubled, sound, order.trans left⟩

end Uthash
