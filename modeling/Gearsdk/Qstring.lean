import Mathlib.Data.List.TakeWhile

/-! Byte strings as the server handles them, and the few formatting operations
that its keys and message fields need. Strings are shorter than 2^31 - 1 bytes,
so that the `int` lengths of `printf` and its copies are exact; what the copies
do with longer ones is in `Rejoining`. -/
namespace Gearsdk

abbrev Qstring := List UInt8

namespace Qstring

instance : LawfulBEq Qstring := inferInstanceAs (LawfulBEq (List UInt8))

def literal (text : String) : Qstring := text.toUTF8.data.toList

theorem literal_inj {a b : String} : literal a = literal b ↔ a = b := by
  refine ⟨fun same => ?_, congrArg literal⟩
  have bytes : a.toUTF8 = b.toUTF8 := ByteArray.ext (Array.toList_inj.mp same)
  exact String.toByteArray_inj.mp bytes

/-- A text of ASCII characters has one byte for each. -/
theorem literal_ofList {chars : List Char} (ascii : ∀ c ∈ chars, c.toNat < 128) :
    literal (String.ofList chars) = chars.map fun c => UInt8.ofNat c.toNat := by
  have encoded : chars.flatMap String.utf8EncodeChar = chars.map fun c => UInt8.ofNat c.toNat := by
    induction chars with
    | nil => rfl
    | cons c rest ih =>
      have first : String.utf8EncodeChar c = [UInt8.ofNat c.toNat] :=
        if_pos (Nat.le_of_lt_succ (ascii c List.mem_cons_self))
      rw [List.flatMap_cons, List.map_cons, first,
        ih fun c later => ascii c (List.mem_cons_of_mem _ later), List.singleton_append]
  rw [literal, String.toUTF8, String.toByteArray_ofList, List.utf8Encode, encoded,
    List.data_toByteArray]

/-- `%d` of `format_string`. -/
def decimal (n : Int) : Qstring := literal (toString n)

/-- A string that travels through a C string ends at its first NUL. -/
def cString (bytes : Qstring) : Qstring := bytes.takeWhile (· ≠ 0)

theorem cString_nul_free (bytes : Qstring) : ∀ byte ∈ cString bytes, byte ≠ 0 := by
  intro byte member
  simpa using List.mem_takeWhile_imp member

/-- No byte is the terminator of a C string. -/
def Clean (bytes : Qstring) : Prop := ∀ byte ∈ bytes, byte ≠ 0

instance : DecidablePred Clean := fun bytes => List.decidableBAll (· ≠ 0) bytes

theorem cString_clean (bytes : Qstring) : Clean (cString bytes) := cString_nul_free bytes

/-- Whether `strncmp` finds no difference in the first `n` characters. -/
def strncmpEqual (a b : Qstring) (n : Nat) : Bool := (cString a).take n = (cString b).take n

def operatorEq (a b : Qstring) : Bool := a.length = b.length && strncmpEqual a b b.length

/-- The number of characters compared comes from the right operand only. -/
def operatorNe (a b : Qstring) : Bool := !strncmpEqual a b b.length

/-- The left operand is copied first, with its length as an `int`. -/
def compare (a b : Qstring) : Int := if operatorEq (cString a) b then 0 else 1

theorem cString_of_nul_free (clean : ∀ byte ∈ bytes, byte ≠ 0) : cString bytes = bytes := by
  apply List.takeWhile_eq_self_iff.mpr
  intro byte member
  simpa using clean byte member

theorem cString_eq_self_iff (bytes : Qstring) : cString bytes = bytes ↔ Clean bytes := by
  refine ⟨fun same => ?_, cString_of_nul_free⟩
  rw [← same]
  exact cString_clean bytes

theorem cString_prefix (bytes : Qstring) : cString bytes <+: bytes := List.takeWhile_prefix _

theorem operatorEq_iff (cleanLeft : Clean a) (cleanRight : Clean b) :
    operatorEq a b = true ↔ a = b := by
  simp only [operatorEq, strncmpEqual, cString_of_nul_free cleanLeft,
    cString_of_nul_free cleanRight, Bool.and_eq_true, decide_eq_true_eq, List.take_length]
  constructor
  · rintro ⟨sameLength, sameStart⟩
    rwa [← sameLength, List.take_length] at sameStart
  · rintro rfl
    exact ⟨rfl, List.take_length⟩

theorem compare_iff (clean : Clean b) : compare a b = 0 ↔ cString a = b := by
  rw [← operatorEq_iff (cString_clean a) clean, compare]
  split <;> simp_all

/-- The right operand is not told from a string that it begins. -/
theorem operatorNe_iff (clean : Clean b) : operatorNe a b = true ↔ ¬ b <+: cString a := by
  simp only [operatorNe, strncmpEqual, cString_of_nul_free clean, List.take_length,
    Bool.not_eq_true', decide_eq_false_iff_not, List.prefix_iff_eq_take]
  exact not_congr eq_comm

end Qstring
end Gearsdk
