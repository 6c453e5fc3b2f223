import Gearsdk.Qstring

/-! The comparison operators of strings and what they have to do with one another. -/
namespace Gearsdk
namespace Qstring

/-- The sign of `strcmp`, for the bytes before the terminators. -/
def strcmp : Qstring → Qstring → Int
  | [], [] => 0
  | [], _ :: _ => -1
  | _ :: _, [] => 1
  | a :: as, b :: bs => if a < b then -1 else if b < a then 1 else strcmp as bs

def operatorLt (a b : Qstring) : Bool := strcmp (cString a) (cString b) < 0

/-- The laws that the operators have together. -/
structure Coherent (a b c : Qstring) : Prop where
  eq_refl : operatorEq a a = true
  eq_symm : operatorEq a b = operatorEq b a
  eq_trans : operatorEq a b = true → operatorEq b c = true → operatorEq a c = true
  eq_same : operatorEq a b = true ↔ a = b
  ne_not : operatorNe a b = !operatorEq a b
  ne_symm : operatorNe a b = operatorNe b a
  compare_eq : compare a b = 0 ↔ operatorEq a b = true
  lt_irrefl : operatorLt a a = false
  lt_asymm : operatorLt a b = true → operatorLt b a = false
  lt_trans : operatorLt a b = true → operatorLt b c = true → operatorLt a c = true
  lt_total : operatorEq a b = true ↔ operatorLt a b = false ∧ operatorLt b a = false

instance : Std.Asymm fun a b : UInt8 => a < b := ⟨fun _ _ => UInt8.lt_asymm⟩

instance : Std.Irrefl fun a b : UInt8 => a < b := ⟨UInt8.lt_irrefl⟩

instance : Trans (fun a b : UInt8 => a < b) (fun a b => a < b) (fun a b => a < b) :=
  ⟨UInt8.lt_trans⟩

theorem byte_eq_of_not_lt {c d : UInt8} (below : ¬ c < d) (above : ¬ d < c) : c = d :=
  UInt8.le_antisymm (UInt8.not_lt.mp above) (UInt8.not_lt.mp below)

instance : Std.Trichotomous fun a b : UInt8 => a < b := ⟨fun _ _ => byte_eq_of_not_lt⟩

theorem strcmp_neg_iff (a b : Qstring) : strcmp a b < 0 ↔ a < b := by
  induction a generalizing b with
  | nil =>
    cases b with
    | nil => exact iff_of_false (Int.lt_irrefl 0) (List.not_lt_nil [])
    | cons d bs => exact iff_of_true (Int.negSucc_lt_zero 0) (List.nil_lt_cons d bs)
  | cons c as ih =>
    cases b with
    | nil => exact iff_of_false (Int.not_lt.mpr (Int.le_of_lt Int.one_pos)) (List.not_lt_nil _)
    | cons d bs =>
      rw [strcmp, List.cons_lt_cons_iff]
      by_cases below : c < d
      · rw [if_pos below]
        exact iff_of_true (by decide) (.inl below)
      · rw [if_neg below]
        by_cases above : d < c
        · rw [if_pos above]
          refine iff_of_false (by decide) ?_
          rintro (less | ⟨rfl, _⟩)
          · exact below less
          · exact below above
        · rw [if_neg above, ih, or_iff_right below, and_iff_right (byte_eq_of_not_lt below above)]

/-- The order is that of the bytes, the shorter text first. -/
theorem operatorLt_iff (cleanLeft : Clean a) (cleanRight : Clean b) :
    operatorLt a b = true ↔ a < b := by
  rw [operatorLt, decide_eq_true_eq, cString_of_nul_free cleanLeft, cString_of_nul_free cleanRight,
    strcmp_neg_iff]

theorem operatorNe_clean_iff (cleanLeft : Clean a) (cleanRight : Clean b) :
    operatorNe a b = true ↔ ¬ b <+: a := by
  rw [operatorNe_iff cleanRight, cString_of_nul_free cleanLeft]

/-- Neither text is less than the other just when they are the same. -/
theorem operatorLt_total (cleanA : Clean a) (cleanB : Clean b) :
    a = b ↔ operatorLt a b = false ∧ operatorLt b a = false := by
  rw [← Bool.not_eq_true, operatorLt_iff cleanA cleanB, ← Bool.not_eq_true,
    operatorLt_iff cleanB cleanA]
  constructor
  · rintro rfl
    exact ⟨List.lt_irrefl a, List.lt_irrefl a⟩
  · rintro ⟨notBelow, notAbove⟩
    exact List.le_antisymm notAbove notBelow

/-- `!=` is the negation of `==` just when the right text is no proper beginning of the left. -/
theorem operatorNe_eq_not_iff (cleanA : Clean a) (cleanB : Clean b) :
    (operatorNe a b = !operatorEq a b) ↔ (b <+: a → a = b) := by
  rw [Bool.eq_iff_iff, Bool.not_eq_true', ← Bool.not_eq_true, operatorNe_clean_iff cleanA cleanB,
    operatorEq_iff cleanA cleanB, not_iff_not]
  refine ⟨Iff.mp, fun apart => ⟨apart, ?_⟩⟩
  rintro rfl
  exact List.prefix_refl a

/-- For texts without NULs the operators are coherent exactly when neither of the two
texts is a proper beginning of the other. -/
theorem coherent_iff (cleanA : Clean a) (cleanB : Clean b) (cleanC : Clean c) :
    Coherent a b c ↔ (a <+: b ∨ b <+: a → a = b) := by
  have eq_ab := operatorEq_iff cleanA cleanB
  have eq_symm : operatorEq a b = operatorEq b a := by
    rw [Bool.eq_iff_iff, eq_ab, operatorEq_iff cleanB cleanA]
    exact eq_comm
  constructor
  · intro coherent
    have other : operatorNe b a = !operatorEq b a := by
      rw [← coherent.ne_symm, coherent.ne_not, eq_symm]
    rintro (begins | begins)
    · exact ((operatorNe_eq_not_iff cleanB cleanA).mp other begins).symm
    · exact (operatorNe_eq_not_iff cleanA cleanB).mp coherent.ne_not begins
  · intro apart
    have ne_ab := (operatorNe_eq_not_iff cleanA cleanB).mpr fun begins => apart (.inr begins)
    have ne_ba := (operatorNe_eq_not_iff cleanB cleanA).mpr fun begins => (apart (.inl begins)).symm
    refine ⟨(operatorEq_iff cleanA cleanA).mpr rfl, eq_symm, ?_, eq_ab, ne_ab, ?_, ?_, ?_,
      ?_, ?_, ?_⟩
    · rw [eq_ab, operatorEq_iff cleanB cleanC, operatorEq_iff cleanA cleanC]
      exact Eq.trans
    · rw [ne_ab, ne_ba, eq_symm]
    · rw [compare_iff cleanB, cString_of_nul_free cleanA, eq_ab]
    · rw [← Bool.not_eq_true, operatorLt_iff cleanA cleanA]
      exact List.lt_irrefl a
    · rw [operatorLt_iff cleanA cleanB, ← Bool.not_eq_true, operatorLt_iff cleanB cleanA]
      exact List.lt_asymm
    · rw [operatorLt_iff cleanA cleanB, operatorLt_iff cleanB cleanC, operatorLt_iff cleanA cleanC]
      exact List.lt_trans
    · rw [eq_ab]
      exact operatorLt_total cleanA cleanB

/-- The laws hold for texts that part at their second byte. -/
theorem coherent_ab_ac : Coherent (literal "ab") (literal "ac") (literal "b") :=
  (coherent_iff (by decide +kernel) (by decide +kernel) (by decide +kernel)).mpr (by decide +kernel)

/-- A text is not unequal to its beginning. -/
theorem beginning_is_not_unequal :
    operatorEq (literal "ab") (literal "a") = false ∧
      operatorNe (literal "ab") (literal "a") = false ∧
      operatorNe (literal "a") (literal "ab") = true ∧
        ¬ Coherent (literal "ab") (literal "a") (literal "a") := by
  refine ⟨by decide +kernel, by decide +kernel, by decide +kernel, fun coherent => ?_⟩
  exact absurd coherent.ne_not (by decide +kernel)

end Qstring
end Gearsdk
