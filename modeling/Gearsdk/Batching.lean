import Gearsdk.OrderedMap
import Mathlib.Algebra.GroupWithZero.Nat

/-! Items collected in groups, one for each key. All groups go out together once there are
enough items in them, and at the end. -/
namespace Batching
open Std

abbrev Groups (κ α : Type) [Ord κ] := TreeMap κ (List α)

structure State (κ α : Type) [Ord κ] where
  groups : Groups κ α := ∅
  gone : List (κ × List α) := []

section
variable {κ α : Type} [Ord κ]

def add (groups : Groups κ α) (item : κ × α) : Groups κ α :=
  groups.insert item.1 (groups.getD item.1 [] ++ [item.2])

def held (groups : Groups κ α) : Nat := (groups.toList.map fun group => group.2.length).sum

def flush (s : State κ α) : State κ α := { groups := ∅, gone := s.gone ++ s.groups.toList }

def step (limit : Nat) (s : State κ α) (item : κ × α) : State κ α :=
  let groups := add s.groups item
  if limit ≤ held groups then flush { s with groups } else { s with groups }

def run (limit : Nat) (items : List (κ × α)) : List (κ × List α) :=
  (flush (items.foldl (step limit) {})).gone

end

section
variable {κ α : Type} [DecidableEq κ]

/-- The items under one key, in the order of the groups. -/
def itemsOf (key : κ) (groups : List (κ × List α)) : List α :=
  (groups.filter fun group => group.1 = key).flatMap Prod.snd

theorem itemsOf_append (key : κ) (first second : List (κ × List α)) :
    itemsOf key (first ++ second) = itemsOf key first ++ itemsOf key second := by
  rw [itemsOf, List.filter_append, List.flatMap_append]
  rfl

end

variable {κ α : Type} [Ord κ] [TransOrd κ] [LawfulEqOrd κ] [DecidableEq κ]

/-- A map has one group for each key. -/
theorem itemsOf_toList (key : κ) (groups : Groups κ α) :
    itemsOf key groups.toList = groups.getD key [] := by
  rw [TreeMap.getD_eq_getD_getElem?]
  cases found : groups[key]? with
  | none =>
    have unlisted : groups.toList.filter (fun group => group.1 = key) = [] := by
      refine List.filter_eq_nil_iff.mpr fun group inside => ?_
      have held := TreeMap.mem_toList_iff_getElem?_eq_some.mp inside
      rw [decide_eq_true_eq]
      rintro rfl
      rw [found] at held
      contradiction
    rw [itemsOf, unlisted]
    rfl
  | some items =>
    have others : (groups.erase key).toList.filter (fun group => group.1 = key) = [] := by
      refine List.filter_eq_nil_iff.mpr fun group inside => ?_
      have held := TreeMap.mem_toList_iff_getElem?_eq_some.mp inside
      rw [decide_eq_true_eq]
      rintro rfl
      rw [OrderedMap.lookup_erase, if_pos rfl] at held
      contradiction
    have single : (groups.toList.filter fun group => group.1 = key).Perm [(key, items)] := by
      have first : ((key, items) :: (groups.erase key).toList).filter (fun group => group.1 = key) =
          (key, items) :: (groups.erase key).toList.filter fun group => group.1 = key :=
        List.filter_cons_of_pos (decide_eq_true rfl)
      have whole := (OrderedMap.toList_erase_present found).filter fun group => group.1 = key
      rwa [first, others] at whole
    rw [itemsOf, List.perm_singleton.mp single, List.flatMap_singleton]
    rfl

theorem getD_add (groups : Groups κ α) (item : κ × α) (key : κ) :
    (add groups item).getD key [] = groups.getD key [] ++ if item.1 = key then [item.2]
      else [] := by
  rw [add, TreeMap.getD_eq_getD_getElem?, OrderedMap.lookup_insert]
  split
  · rename_i same
    rw [← same]
    rfl
  · rw [List.append_nil, TreeMap.getD_eq_getD_getElem?]

/-- What has gone and what is held, under one key. -/
def State.itemsOf (key : κ) (s : State κ α) : List α :=
  Batching.itemsOf key s.gone ++ s.groups.getD key []

theorem itemsOf_flush (key : κ) (s : State κ α) : (flush s).itemsOf key = s.itemsOf key := by
  have empty : (∅ : Groups κ α).getD key [] = [] := TreeMap.getD_emptyc
  rw [State.itemsOf, flush, empty, itemsOf_append, itemsOf_toList, List.append_nil, State.itemsOf]

theorem itemsOf_step (limit : Nat) (key : κ) (s : State κ α) (item : κ × α) :
    (step limit s item).itemsOf key = s.itemsOf key ++ if item.1 = key then [item.2] else [] := by
  have added : ({ s with groups := add s.groups item } : State κ α).itemsOf key =
      s.itemsOf key ++ if item.1 = key then [item.2] else [] := by
    rw [State.itemsOf, getD_add, State.itemsOf, List.append_assoc]
  rw [step]
  split
  · rw [itemsOf_flush, added]
  · exact added

/-- Every item goes out once, and those of one key in their order. -/
theorem itemsOf_run (limit : Nat) (key : κ) (items : List (κ × α)) :
    itemsOf key (run limit items) = (items.filter fun item => item.1 = key).map Prod.snd := by
  have steps : ∀ s : State κ α, (items.foldl (step limit) s).itemsOf key =
      s.itemsOf key ++ (items.filter fun item => item.1 = key).map Prod.snd := by
    induction items with
    | nil => exact fun s => (List.append_nil _).symm
    | cons item rest ih =>
      intro s
      rw [List.foldl_cons, ih, itemsOf_step, List.append_assoc, List.filter_cons]
      by_cases same : item.1 = key
      · rw [if_pos same, if_pos (decide_eq_true same), List.map_cons, List.singleton_append]
      · rw [if_neg same, if_neg (by rwa [decide_eq_true_eq]), List.nil_append]
  have empty : ∀ key : κ, (∅ : Groups κ α).getD key [] = [] := fun key => TreeMap.getD_emptyc
  calc itemsOf key (run limit items)
      = (flush (items.foldl (step limit) {})).itemsOf key := by
        rw [State.itemsOf, flush, empty, List.append_nil]
        rfl
    _ = (items.foldl (step limit) {}).itemsOf key := itemsOf_flush key _
    _ = _ := by
        rw [steps, State.itemsOf, empty]
        rfl

omit [TransOrd κ] [LawfulEqOrd κ] [DecidableEq κ] in
/-- The groups never hold enough to go out. -/
theorem held_step (positive : 0 < limit) (s : State κ α) (item : κ × α) :
    held (step limit s item).groups < limit := by
  rw [step]
  split
  · exact positive
  · rename_i few
    exact Nat.lt_of_not_le few

/-- No group is empty. -/
def State.Filled (s : State κ α) : Prop :=
  (∀ (key : κ) (items : List α), s.groups[key]? = some items → items ≠ []) ∧
    ∀ group ∈ s.gone, group.2 ≠ []

omit [DecidableEq κ] in
theorem State.Filled.flush {s : State κ α} (filled : s.Filled) : (flush s).Filled := by
  refine ⟨fun key items found => ?_, fun group inside => ?_⟩
  · rw [Batching.flush, OrderedMap.lookup_empty] at found
    contradiction
  · rcases List.mem_append.mp inside with before | now
    · exact filled.2 group before
    · exact filled.1 group.1 group.2 (TreeMap.mem_toList_iff_getElem?_eq_some.mp now)

theorem State.Filled.step {s : State κ α} (filled : s.Filled) (limit : Nat) (item : κ × α) :
    (step limit s item).Filled := by
  have added : ({ s with groups := add s.groups item } : State κ α).Filled := by
    refine ⟨fun key items found => ?_, filled.2⟩
    simp only [add, OrderedMap.lookup_insert] at found
    split at found
    · rw [← Option.some.inj found]
      exact List.append_ne_nil_of_right_ne_nil _ (List.cons_ne_nil _ _)
    · exact filled.1 key items found
  rw [Batching.step]
  split
  · exact added.flush
  · exact added

omit [LawfulEqOrd κ] [DecidableEq κ] in
theorem filled_init : ({} : State κ α).Filled := by
  refine ⟨fun key items found => ?_, fun group inside => absurd inside List.not_mem_nil⟩
  rw [OrderedMap.lookup_empty] at found
  contradiction

theorem run_filled (limit : Nat) (items : List (κ × α)) :
    ∀ group ∈ run limit items, group.2 ≠ [] := by
  have steps : ∀ s : State κ α, s.Filled → (items.foldl (step limit) s).Filled := by
    induction items with
    | nil => exact fun s filled => filled
    | cons item rest ih => exact fun s filled => ih _ (filled.step limit item)
  exact (steps {} filled_init).flush.2

end Batching
