import Std.Data.TreeMap.Lemmas
import Std.Data.TreeMap.AdditionalOperations
import Mathlib.Data.List.Perm.Basic
import Mathlib.Data.List.Nodup

/-! Lookup, size and contents of ordered maps under insertion and removal, with
the comparison of keys already resolved to equality. -/
namespace OrderedMap
open Std

variable {α β : Type} [Ord α]

@[simp] theorem toList_empty : (∅ : TreeMap α β).toList = [] := rfl

variable [TransOrd α] {t : TreeMap α β}

theorem lookup_empty (a : α) : (∅ : TreeMap α β)[a]? = none :=
  TreeMap.getElem?_emptyc

theorem mem_iff_lookup : a ∈ t ↔ ∃ v, t[a]? = some v := by
  rw [TreeMap.mem_iff_isSome_getElem?, Option.isSome_iff_exists]

theorem mem_of_lookup (found : t[a]? = some v) : a ∈ t :=
  mem_iff_lookup.mpr ⟨v, found⟩

theorem not_mem_iff_lookup : a ∉ t ↔ t[a]? = none := by
  rw [TreeMap.mem_iff_isSome_getElem?, Bool.not_eq_true, Option.isSome_eq_false_iff,
    Option.isNone_iff_eq_none]

theorem size_insert_new (t : TreeMap α β) (v : β) (fresh : k ∉ t) :
    (t.insert k v).size = t.size + 1 := by
  simp only [TreeMap.size_insert, TreeMap.mem_iff_contains] at fresh ⊢
  rw [if_neg fresh]

theorem size_zero_iff : t.size = 0 ↔ ∀ a : α, a ∉ t := by
  rw [← TreeMap.isEmpty_iff_forall_not_mem, TreeMap.isEmpty_eq_size_eq_zero, beq_iff_eq]

theorem size_erase_present (present : k ∈ t) : (t.erase k).size + 1 = t.size := by
  have positive : t.size ≠ 0 := fun empty => size_zero_iff.mp empty k present
  simp only [TreeMap.size_erase, TreeMap.mem_iff_contains] at present ⊢
  rw [if_pos present]
  omega

theorem toList_nodup (t : TreeMap α β) : t.toList.Nodup := by
  apply List.Nodup.of_map Prod.fst
  rw [TreeMap.map_fst_toList_eq_keys]
  exact TreeMap.nodup_keys

variable [LawfulEqOrd α]

theorem mem_insert_iff (t : TreeMap α β) (k a : α) (v : β) : a ∈ t.insert k v ↔ k = a ∨ a ∈ t := by
  rw [TreeMap.mem_insert, Std.compare_eq_iff_eq]

theorem mem_erase_iff (t : TreeMap α β) (k a : α) : a ∈ t.erase k ↔ k ≠ a ∧ a ∈ t := by
  rw [TreeMap.mem_erase, ne_eq, Std.compare_eq_iff_eq]

/-- Maps whose values correspond under every key have corresponding contents. -/
theorem toList_of_lookup {u : TreeMap α γ} {f : γ → β} (same : ∀ k : α, t[k]? = u[k]?.map f) :
    t.toList = u.toList.map fun entry => (entry.1, f entry.2) := by
  have mapped : t.Equiv (u.map fun _ => f) := TreeMap.Equiv.of_forall_constGet?_eq fun k => by
    rw [TreeMap.getElem?_map, same]
  rw [mapped.toList_eq, TreeMap.toList_map]

variable [DecidableEq α]

theorem lookup_insert (t : TreeMap α β) (k a : α) (v : β) :
    (t.insert k v)[a]? = if k = a then some v else t[a]? := by
  simp only [TreeMap.getElem?_insert, Std.compare_eq_iff_eq]

theorem lookup_erase (t : TreeMap α β) (k a : α) :
    (t.erase k)[a]? = if k = a then none else t[a]? := by
  simp only [TreeMap.getElem?_erase, Std.compare_eq_iff_eq]

theorem lookup_insert_ne (t : TreeMap α β) (v : β) (different : k ≠ a) :
    (t.insert k v)[a]? = t[a]? := by
  rw [lookup_insert, if_neg different]

theorem lookup_erase_ne (t : TreeMap α β) (different : k ≠ a) : (t.erase k)[a]? = t[a]? := by
  rw [lookup_erase, if_neg different]

/-- Removing a list of keys one after the other removes exactly those keys. -/
theorem lookup_eraseAll (ks : List α) (t : TreeMap α β) (a : α) :
    (ks.foldl (fun t k => t.erase k) t)[a]? = if a ∈ ks then none else t[a]? := by
  induction ks generalizing t with
  | nil => simp
  | cons k rest ih =>
    rw [List.foldl_cons, ih, lookup_erase]
    by_cases same : k = a
    · simp [same]
    · simp [same, Ne.symm same]

theorem toList_insert_new (t : TreeMap α β) (v : β) (fresh : k ∉ t) :
    (t.insert k v).toList.Perm ((k, v) :: t.toList) := by
  have unlisted : (k, v) ∉ t.toList := fun member =>
    fresh (mem_of_lookup (TreeMap.mem_toList_iff_getElem?_eq_some.mp member))
  refine (List.perm_ext_iff_of_nodup (toList_nodup _)
    (List.nodup_cons.mpr ⟨unlisted, toList_nodup t⟩)).mpr ?_
  rintro ⟨a, w⟩
  simp only [List.mem_cons, TreeMap.mem_toList_iff_getElem?_eq_some, lookup_insert, Prod.mk.injEq]
  by_cases same : k = a
  · subst same
    simp [not_mem_iff_lookup.mp fresh, eq_comm]
  · simp [same, Ne.symm same]

theorem toList_erase_present (found : t[k]? = some v) :
    t.toList.Perm ((k, v) :: (t.erase k).toList) := by
  have unlisted : (k, v) ∉ (t.erase k).toList := by
    intro member
    have kept := TreeMap.mem_toList_iff_getElem?_eq_some.mp member
    simp at kept
  refine (List.perm_ext_iff_of_nodup (toList_nodup t)
    (List.nodup_cons.mpr ⟨unlisted, toList_nodup _⟩)).mpr ?_
  rintro ⟨a, w⟩
  simp only [List.mem_cons, TreeMap.mem_toList_iff_getElem?_eq_some, lookup_erase, Prod.mk.injEq]
  by_cases same : k = a
  · subst same
    simp [found, eq_comm]
  · simp [same, Ne.symm same]

end OrderedMap
