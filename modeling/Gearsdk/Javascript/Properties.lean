import Gearsdk.Javascript.Reading
import Mathlib.Algebra.Group.Nat.Defs

/-! The properties of an object that has been read: the numbers of its keys, and what `for in`
goes through. -/
namespace Javascript
open Utf16

/-! ### Numbers -/

theorem unit_of_digit {c : Char} (digit : c.isDigit = true) :
    (UInt16.ofNat c.toNat).toNat = c.toNat ∧ 48 ≤ c.toNat ∧ c.toNat ≤ 57 := by
  simp only [Char.isDigit, Bool.and_eq_true, decide_eq_true_eq, ge_iff_le,
    UInt32.le_iff_toNat_le] at digit
  obtain ⟨low, high⟩ := digit
  have low : 48 ≤ c.toNat := low
  have high : c.toNat ≤ 57 := high
  exact ⟨UInt16.toNat_ofNat_of_lt' (Nat.lt_of_le_of_lt high (by decide)), low, high⟩

theorem digits_foldl {chars : List Char} (digits : ∀ c ∈ chars, c.isDigit = true) (start : Nat) :
    (chars.map fun c => UInt16.ofNat c.toNat).foldl (fun number unit =>
      10 * number + (unit.toNat - 48)) start =
      Nat.ofDigitChars 10 chars start := by
  induction chars generalizing start with
  | nil => rfl
  | cons c rest ih =>
    obtain ⟨digit, later⟩ := List.forall_mem_cons.mp digits
    rw [List.map_cons, List.foldl_cons, ih later, (unit_of_digit digit).1, Nat.ofDigitChars_cons]
    rfl

theorem digitsNumber_decimal (small : n < 2 ^ 53) : digitsNumber (decimal n) = some n := by
  have digits : ∀ c ∈ Nat.toDigits 10 n, c.isDigit = true := fun c inside =>
    Nat.isDigit_of_mem_toDigits (by decide) (by decide) inside
  have text : decimal n = (Nat.toDigits 10 n).map fun c => UInt16.ofNat c.toNat := by
    rw [decimal, units, String.toList_ofList]
  have filled : decimal n ≠ [] := by
    rw [text, ne_eq, List.map_eq_nil_iff]
    exact Nat.toDigits_ne_nil
  have plain : (decimal n).all isDigit = true := by
    rw [text, List.all_map, List.all_eq_true]
    intro c inside
    obtain ⟨number, low, high⟩ := unit_of_digit (digits c inside)
    simp only [Function.comp, isDigit, number, Bool.and_eq_true, decide_eq_true_eq]
    exact ⟨low, high⟩
  have number : (decimal n).foldl (fun number unit => 10 * number + (unit.toNat - 48)) 0 = n := by
    rw [text, digits_foldl digits, Nat.ofDigitChars_ten_toDigits]
  rw [digitsNumber, if_pos ⟨filled, plain⟩, number, if_pos small]

theorem decimal_inj (small : m < 2 ^ 53) (small' : n < 2 ^ 53) (same : decimal m = decimal n) :
    m = n := by
  have numbers := congrArg digitsNumber same
  rw [digitsNumber_decimal small, digitsNumber_decimal small'] at numbers
  exact Option.some.inj numbers

/-! ### Members -/

theorem setMember_new {members : List (Text × Value)} (fresh : key ∉ members.map Prod.fst)
    (value : Value) :
    setMember members key value = members ++ [(key, value)] := by
  rw [setMember, if_neg]
  rw [List.any_eq_true]
  rintro ⟨member, inside, same⟩
  exact fresh (of_decide_eq_true same ▸ List.mem_map_of_mem inside)

/-- Members of different keys are all kept. -/
theorem addMembers_nodup {members : List (Text × Text × Value)} (before : List (Text × Value))
    (distinct : (before.map Prod.fst ++ members.map Prod.fst).Nodup) :
    addMembers before members = before ++ members.map fun member => (member.1, member.2.2) := by
  induction members generalizing before with
  | nil => exact (List.append_nil before).symm
  | cons member rest ih =>
    have fresh : member.1 ∉ before.map Prod.fst := by
      intro inside
      exact (List.nodup_append.mp distinct).2.2 _ inside _ List.mem_cons_self rfl
    have step : addMembers before (member :: rest) =
        addMembers (before ++ [(member.1, member.2.2)]) rest := by
      rw [← setMember_new fresh]
      rfl
    rw [step, ih, List.append_assoc]
    · rfl
    · rw [List.map_append, List.append_assoc]
      exact distinct

theorem mem_entries {members : List (Text × Value)} :
    entry ∈ (Value.object members).entries ↔ entry ∈ members := by
  rw [Value.entries, ordered, List.mem_append, List.mem_mergeSort, List.mem_filter, List.mem_filter]
  cases (arrayIndex entry.1).isSome with
  | true => simp only [and_true, Bool.not_true, Bool.false_eq_true, and_false, or_false]
  | false => simp only [and_true, Bool.not_false, Bool.false_eq_true, and_false, false_or]

end Javascript
