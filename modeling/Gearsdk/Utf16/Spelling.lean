import Gearsdk.Utf16

/-! Bytes and units that spell the same characters, and functions on single bytes and units
that keep them together. -/
namespace Utf16

def Spells (bytes : List UInt8) (text : Text) : Prop :=
  ∃ chars : List Char, bytes = chars.flatMap String.utf8EncodeChar ∧ text = encode chars

theorem Spells.ofUtf8 (spells : Spells bytes text) : ofUtf8 bytes = some text := by
  obtain ⟨chars, rfl, rfl⟩ := spells
  exact ofUtf8_flatMap chars

theorem Spells.utf8 (spells : Spells bytes text) : utf8 text = bytes := by
  obtain ⟨chars, rfl, rfl⟩ := spells
  rw [Utf16.utf8, decode_encode]

theorem Spells.nil : Spells [] [] := ⟨[], rfl, rfl⟩

theorem Spells.char (c : Char) : Spells (String.utf8EncodeChar c) (encodeChar c) :=
  ⟨[c], (List.flatMap_singleton ..).symm, (List.flatMap_singleton ..).symm⟩

theorem Spells.append (first : Spells bytes text) (second : Spells bytes' text') :
    Spells (bytes ++ bytes') (text ++ text') := by
  obtain ⟨chars, rfl, rfl⟩ := first
  obtain ⟨chars', rfl, rfl⟩ := second
  exact ⟨chars ++ chars', List.flatMap_append.symm, (encode_append chars chars').symm⟩

/-! ### ASCII -/

theorem utf8EncodeChar_ascii {c : Char} (small : c.toNat < 128) :
    String.utf8EncodeChar c = [UInt8.ofNat c.toNat] :=
  if_pos (Nat.le_of_lt_succ small)

theorem encodeChar_ascii {c : Char} (small : c.toNat < 128) :
    encodeChar c = [UInt16.ofNat c.toNat] :=
  if_pos (Nat.lt_trans small (by decide))

/-- The unit of an ASCII byte. -/
def widen (byte : UInt8) : UInt16 := UInt16.ofNat byte.toNat

theorem Spells.byte {byte : UInt8} (ascii : byte.toNat < 128) : Spells [byte] [widen byte] := by
  have number : (Char.ofNat byte.toNat).toNat = byte.toNat := toNat_ofNat (Or.inl (by omega))
  have small : (Char.ofNat byte.toNat).toNat < 128 := by rwa [number]
  have spells := Spells.char (Char.ofNat byte.toNat)
  rwa [utf8EncodeChar_ascii small, encodeChar_ascii small, number, UInt8.ofNat_toNat] at spells

theorem Spells.ascii (ascii : ∀ byte ∈ bytes, byte.toNat < 128) :
    Spells bytes (bytes.map widen) := by
  induction bytes with
  | nil => exact Spells.nil
  | cons byte rest ih =>
    obtain ⟨small, later⟩ := List.forall_mem_cons.mp ascii
    exact (Spells.byte small).append (ih later)

/-! ### Characters that are not ASCII -/

theorem utf8EncodeChar_above {c : Char} (above : 128 ≤ c.toNat) :
    ∀ byte ∈ String.utf8EncodeChar c, 128 ≤ byte.toNat := by
  have bound := char_bound c
  have value : c.val.toNat = c.toNat := rfl
  have number (n : Nat) (small : n < 256) (high : 128 ≤ n) : 128 ≤ (UInt8.ofNat n).toNat := by
    rw [UInt8.toNat_ofNat_of_lt' small]
    exact high
  rw [String.utf8EncodeChar]
  simp only [value]
  split
  · omega
  · split
    · simp only [List.forall_mem_cons, List.not_mem_nil, false_imp_iff, implies_true, and_true]
      exact ⟨number _ (by omega) (by omega), number _ (by omega) (by omega)⟩
    · split
      · simp only [List.forall_mem_cons, List.not_mem_nil, false_imp_iff, implies_true, and_true]
        exact ⟨number _ (by omega) (by omega), number _ (by omega) (by omega),
          number _ (by omega) (by omega)⟩
      · simp only [List.forall_mem_cons, List.not_mem_nil, false_imp_iff, implies_true, and_true]
        exact ⟨number _ (by omega) (by omega), number _ (by omega) (by omega),
          number _ (by omega) (by omega),
          number _ (by omega) (by omega)⟩

theorem encodeChar_above {c : Char} (above : 128 ≤ c.toNat) :
    ∀ unit ∈ encodeChar c, 128 ≤ unit.toNat := by
  have bound := char_bound c
  have number (n : Nat) (small : n < 65536) (high : 128 ≤ n) : 128 ≤ (UInt16.ofNat n).toNat := by
    rw [UInt16.toNat_ofNat_of_lt' small]
    exact high
  rw [encodeChar]
  split
  · rename_i small
    rw [List.forall_mem_singleton]
    exact number _ small above
  · simp only [List.forall_mem_cons, List.not_mem_nil, false_imp_iff, implies_true, and_true]
    exact ⟨number _ (by omega) (by omega), number _ (by omega) (by omega)⟩

theorem flatMap_unchanged {xs : List α} {f : α → List α} (unchanged : ∀ x ∈ xs, f x = [x]) :
    xs.flatMap f = xs := by
  induction xs with
  | nil => rfl
  | cons x rest ih =>
    obtain ⟨here, later⟩ := List.forall_mem_cons.mp unchanged
    rw [List.flatMap_cons, here, ih later, List.singleton_append]

/-- Functions that spell the same for every ASCII character, and change no other. -/
structure Alike (onByte : UInt8 → List UInt8) (onUnit : UInt16 → Text) : Prop where
  ascii : ∀ n < 128, Spells (onByte (UInt8.ofNat n)) (onUnit (UInt16.ofNat n))
  byte : ∀ byte, 128 ≤ byte.toNat → onByte byte = [byte]
  unit : ∀ unit, 128 ≤ unit.toNat → onUnit unit = [unit]

theorem Alike.char (alike : Alike onByte onUnit) (c : Char) :
    Spells ((String.utf8EncodeChar c).flatMap onByte) ((encodeChar c).flatMap onUnit) := by
  by_cases small : c.toNat < 128
  · rw [utf8EncodeChar_ascii small, encodeChar_ascii small, List.flatMap_singleton,
      List.flatMap_singleton]
    exact alike.ascii c.toNat small
  · have above : 128 ≤ c.toNat := Nat.le_of_not_lt small
    rw [flatMap_unchanged fun byte inside => alike.byte byte (utf8EncodeChar_above above byte inside),
      flatMap_unchanged fun unit inside => alike.unit unit (encodeChar_above above unit inside)]
    exact Spells.char c

theorem Spells.flatMap (alike : Alike onByte onUnit) (spells : Spells bytes text) :
    Spells (bytes.flatMap onByte) (text.flatMap onUnit) := by
  obtain ⟨chars, rfl, rfl⟩ := spells
  induction chars with
  | nil => exact Spells.nil
  | cons c rest ih =>
    have first := alike.char c
    rw [encode, List.flatMap_cons, List.flatMap_cons, List.flatMap_append, List.flatMap_append]
    exact first.append ih

end Utf16
