import Mathlib.Data.List.TakeDrop

/-! Texts in UTF-16 and their UTF-8. A unit that is half of no surrogate pair stands for the
replacement character. -/
namespace Utf16

abbrev Text := List UInt16

def isHigh (unit : UInt16) : Bool := 0xD800 ≤ unit.toNat && unit.toNat < 0xDC00

def isLow (unit : UInt16) : Bool := 0xDC00 ≤ unit.toNat && unit.toNat < 0xE000

def replacement : Char := Char.ofNat 0xFFFD

/-- The character of a unit by itself. -/
def single (unit : UInt16) : Char :=
  if isHigh unit || isLow unit then replacement else Char.ofNat unit.toNat

def pair (high low : UInt16) : Char :=
  Char.ofNat (0x10000 + 1024 * (high.toNat - 0xD800) + (low.toNat - 0xDC00))

def decode : Text → List Char
  | [] => []
  | [unit] => [single unit]
  | high :: low :: rest =>
      if isHigh high && isLow low then pair high low :: decode rest
        else single high :: decode (low :: rest)

def encodeChar (c : Char) : Text :=
  if c.toNat < 0x10000 then [UInt16.ofNat c.toNat]
  else [UInt16.ofNat (0xD800 + (c.toNat - 0x10000) / 1024),
    UInt16.ofNat (0xDC00 + (c.toNat - 0x10000) % 1024)]

def encode (chars : List Char) : Text := chars.flatMap encodeChar

/-- The bytes of a text in UTF-8. -/
def utf8 (text : Text) : List UInt8 := (decode text).flatMap String.utf8EncodeChar

/-- What a host makes of bytes that are UTF-8. -/
def ofUtf8 (bytes : List UInt8) : Option Text :=
  bytes.toByteArray.utf8Decode?.map fun chars => encode chars.toList

/-- Every unit is a character of one byte. -/
def IsAscii (text : Text) : Prop := ∀ unit ∈ text, unit.toNat < 128

instance : DecidablePred IsAscii := fun text =>
  inferInstanceAs (Decidable (∀ unit ∈ text, unit.toNat < 128))

/-! ### Lengths -/

theorem toNat_ofNat (valid : n.isValidChar) : (Char.ofNat n).toNat = n := by
  rw [Char.ofNat, dif_pos valid]
  rfl

theorem length_utf8EncodeChar (c : Char) : (String.utf8EncodeChar c).length =
    if c.toNat < 0x80 then 1 else if c.toNat < 0x800 then 2 else if c.toNat < 0x10000 then 3
      else 4 := by
  have value : c.val.toNat = c.toNat := rfl
  rw [String.length_utf8EncodeChar, Char.utf8Size]
  simp only [UInt32.le_iff_toNat_le, UInt32.toNat_ofNatLT, value, Nat.le_iff_lt_add_one]

theorem toNat_single (unit : UInt16) : (single unit).toNat =
    if isHigh unit || isLow unit then 0xFFFD else unit.toNat := by
  have bound := unit.toNat_lt
  rw [single]
  split
  · rfl
  · rename_i alone
    simp only [isHigh, isLow, Bool.or_eq_true, Bool.and_eq_true, decide_eq_true_eq] at alone
    exact toNat_ofNat (by rw [Nat.isValidChar]; omega)

theorem toNat_pair (isHigh : isHigh high = true) (isLow : isLow low = true) :
    (pair high low).toNat = 0x10000 + 1024 * (high.toNat - 0xD800) + (low.toNat - 0xDC00) := by
  simp only [Utf16.isHigh, Utf16.isLow, Bool.and_eq_true, decide_eq_true_eq] at isHigh isLow
  exact toNat_ofNat (by rw [Nat.isValidChar]; omega)

theorem length_single (unit : UInt16) :
    1 ≤ (String.utf8EncodeChar (single unit)).length ∧
      ((String.utf8EncodeChar (single unit)).length ≤ 1 ↔ unit.toNat < 128) := by
  rw [length_utf8EncodeChar, toNat_single]
  split
  · rename_i half
    simp only [isHigh, isLow, Bool.or_eq_true, Bool.and_eq_true, decide_eq_true_eq] at half
    simp
    omega
  · split
    · omega
    · split
      · omega
      · split <;> omega

theorem length_pair (isHigh : isHigh high = true) (isLow : isLow low = true) :
    (String.utf8EncodeChar (pair high low)).length = 4 := by
  rw [length_utf8EncodeChar, toNat_pair isHigh isLow, if_neg (by omega), if_neg (by omega),
    if_neg (by omega)]

theorem utf8_cons_single (unit : UInt16) (rest : Text)
    (alone : ∀ low rest', rest = low :: rest' → (isHigh unit && isLow low) = false) :
    utf8 (unit :: rest) = String.utf8EncodeChar (single unit) ++ utf8 rest := by
  cases rest with
  | nil => simp [utf8, decode]
  | cons low rest => simp [utf8, decode, alone low rest rfl]

theorem utf8_pair (high low : UInt16) (rest : Text) (paired : (isHigh high && isLow low) = true) :
    utf8 (high :: low :: rest) = String.utf8EncodeChar (pair high low) ++ utf8 rest := by
  simp [utf8, decode, paired]

/-- UTF-8 takes a byte for every unit, and no more only for ASCII. -/
theorem length_utf8 (text : Text) :
    text.length ≤ (utf8 text).length ∧ ((utf8 text).length ≤ text.length ↔ IsAscii text) := by
  induction text using decode.induct with
  | case1 =>
    exact ⟨Nat.le_refl _, iff_of_true (Nat.le_refl _) fun _ none => absurd none List.not_mem_nil⟩
  | case2 unit =>
    have one := length_single unit
    rw [utf8_cons_single unit [] (by rintro _ _ ⟨⟩), List.length_append]
    simpa [utf8, decode, IsAscii] using one
  | case3 high low rest paired ih =>
    have four := length_pair (Bool.and_eq_true_iff.mp paired).1 (Bool.and_eq_true_iff.mp paired).2
    have above : ¬ IsAscii (high :: low :: rest) := by
      intro ascii
      have small := ascii high List.mem_cons_self
      simp only [isHigh, Bool.and_eq_true, decide_eq_true_eq] at paired
      omega
    rw [utf8_pair high low rest paired, List.length_append, four]
    simp only [List.length_cons]
    exact ⟨by omega, iff_of_false (by omega) above⟩
  | case4 high low rest unpaired ih =>
    have one := length_single high
    rw [utf8_cons_single high (low ::
      rest) (by rintro _ _ ⟨⟩; exact Bool.eq_false_iff.mpr unpaired), List.length_append,
      List.length_cons]
    refine ⟨by omega, ?_⟩
    have both : IsAscii (high :: low :: rest) ↔ high.toNat < 128 ∧ IsAscii (low :: rest) :=
      List.forall_mem_cons
    rw [both, ← one.2, ← ih.2]
    omega

/-- An ASCII text has the same numbers as bytes. -/
theorem utf8_ascii (ascii : IsAscii text) :
    utf8 text = text.map fun unit => UInt8.ofNat unit.toNat := by
  induction text with
  | nil => rfl
  | cons unit rest ih =>
    obtain ⟨small, later⟩ := List.forall_mem_cons.mp ascii
    have alone : isHigh unit = false := by
      rw [isHigh, Bool.and_eq_false_iff]
      exact .inl (decide_eq_false (by omega))
    have char : (single unit).toNat = unit.toNat := by
      rw [toNat_single, alone, isLow]
      simp
      omega
    have encoded : String.utf8EncodeChar (single unit) = [UInt8.ofNat unit.toNat] := by
      rw [← char]
      exact if_pos (show (single unit).toNat ≤ 0x7F by omega)
    rw [utf8_cons_single unit rest (fun _ _ _ => by rw [alone, Bool.false_and]), encoded, ih later,
      List.map_cons, List.singleton_append]

/-! ### Texts of characters -/

theorem char_bound (c : Char) : c.toNat < 0xD800 ∨ 0xDFFF < c.toNat ∧ c.toNat < 0x110000 := c.valid

theorem decode_encodeChar (c : Char) (rest : Text) :
    decode (encodeChar c ++ rest) = c :: decode rest := by
  have bound := char_bound c
  by_cases small : c.toNat < 0x10000
  · have number : (UInt16.ofNat c.toNat).toNat = c.toNat := UInt16.toNat_ofNat_of_lt' small
    have high : isHigh (UInt16.ofNat c.toNat) = false := by
      rw [isHigh, number, Bool.and_eq_false_iff, decide_eq_false_iff_not, decide_eq_false_iff_not]
      omega
    have low : isLow (UInt16.ofNat c.toNat) = false := by
      rw [isLow, number, Bool.and_eq_false_iff, decide_eq_false_iff_not, decide_eq_false_iff_not]
      omega
    have char : single (UInt16.ofNat c.toNat) = c := by
      simp only [single, high, low, number, Bool.or_self, Bool.false_eq_true, if_false,
        Char.ofNat_toNat]
    rw [encodeChar, if_pos small, List.singleton_append]
    cases rest with
    | nil => simp only [decode, char]
    | cons unit rest => simp only [decode, high, Bool.false_and, Bool.false_eq_true, if_false, char]
  · have first : (UInt16.ofNat (0xD800 + (c.toNat - 0x10000) / 1024)).toNat = 0xD800 +
      (c.toNat - 0x10000) / 1024 :=
      UInt16.toNat_ofNat_of_lt' (by rw [show UInt16.size = 65536 from rfl]; omega)
    have second : (UInt16.ofNat (0xDC00 + (c.toNat - 0x10000) % 1024)).toNat = 0xDC00 +
      (c.toNat - 0x10000) % 1024 :=
      UInt16.toNat_ofNat_of_lt' (by rw [show UInt16.size = 65536 from rfl]; omega)
    have paired : (isHigh (UInt16.ofNat (0xD800 + (c.toNat - 0x10000) / 1024)) &&
        isLow (UInt16.ofNat (0xDC00 + (c.toNat - 0x10000) % 1024))) = true := by
      simp only [isHigh, isLow, first, second, Bool.and_eq_true, decide_eq_true_eq]
      omega
    have char : pair (UInt16.ofNat (0xD800 + (c.toNat - 0x10000) / 1024))
        (UInt16.ofNat (0xDC00 + (c.toNat - 0x10000) % 1024)) = c := by
      have sum : 0x10000 + 1024 * (0xD800 + (c.toNat - 0x10000) / 1024 - 0xD800) +
          (0xDC00 + (c.toNat - 0x10000) % 1024 - 0xDC00) = c.toNat := by omega
      rw [pair, first, second, sum, Char.ofNat_toNat]
    rw [encodeChar, if_neg small, List.cons_append, List.singleton_append, decode, if_pos paired,
      char]

theorem decode_encode (chars : List Char) : decode (encode chars) = chars := by
  induction chars with
  | nil => rfl
  | cons c rest ih => rw [encode, List.flatMap_cons, decode_encodeChar, ← encode, ih]

theorem ofUtf8_flatMap (chars : List Char) :
    ofUtf8 (chars.flatMap String.utf8EncodeChar) = some (encode chars) := by
  have bytes : (chars.flatMap String.utf8EncodeChar).toByteArray = chars.utf8Encode := rfl
  rw [ofUtf8, bytes, List.utf8Decode?_utf8Encode, Option.map_some]

theorem encode_append (xs ys : List Char) : encode (xs ++ ys) = encode xs ++ encode ys :=
  List.flatMap_append

end Utf16
