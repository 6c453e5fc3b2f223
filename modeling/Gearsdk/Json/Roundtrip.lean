import Gearsdk.Json.Text

/-! What the writer puts out is read back as the value it was written from. -/
namespace Gearsdk
namespace Json
open Qstring

mutual

/-- A value without fractions, whose integers fit in 64 bits. -/
def Plain : Json → Prop
  | .double _ => False
  | .int value => -2 ^ 63 ≤ value ∧ value ≤ 2 ^ 64 - 1
  | .array elements => PlainElements elements
  | .object members => PlainMembers members
  | .null | .bool _ | .string _ => True

def PlainElements : List Json → Prop
  | [] => True
  | element :: rest => Plain element ∧ PlainElements rest

def PlainMembers : List (Qstring × Json) → Prop
  | [] => True
  | (_, value) :: rest => Plain value ∧ PlainMembers rest

end

theorem plainElements_iff : PlainElements elements ↔ ∀ element ∈ elements, Plain element := by
  induction elements with
  | nil => simp only [PlainElements, List.not_mem_nil, false_imp_iff, implies_true]
  | cons first rest ih => simp only [PlainElements, ih, List.forall_mem_cons]

theorem plainMembers_iff : PlainMembers members ↔ ∀ member ∈ members, Plain member.2 := by
  induction members with
  | nil => simp only [PlainMembers, List.not_mem_nil, false_imp_iff, implies_true]
  | cons first rest ih => simp only [PlainMembers, ih, List.forall_mem_cons]

/-! ### Strings -/

theorem hexValue_hexDigits (small : n < 16) : hexValue (hexDigits n) = some n := by
  have all : ∀ n : Fin 16, hexValue (hexDigits n.val) = some n.val := by decide
  exact all ⟨n, small⟩

theorem parseStringToStream_escape (rounds : Nat) (byte : UInt8) (is : Qstring) :
    parseStringToStream (rounds + 1) (escape byte ++ is) =
      (parseStringToStream rounds is).map fun (os, is) => (byte :: os, is) := by
  have short (e : UInt8) (known : unescape e = some byte) :
    parseStringToStream (rounds + 1) ([92, e] ++ is) =
      (parseStringToStream rounds is).map fun (os, is) => (byte :: os, is) := by
    simp only [List.cons_append, List.nil_append, parseStringToStream, if_true, known]
  simp only [escape]
  split
  · subst byte
    exact short 34 rfl
  split
  · subst byte
    exact short 92 rfl
  split
  · subst byte
    exact short 98 rfl
  split
  · subst byte
    exact short 116 rfl
  split
  · subst byte
    exact short 110 rfl
  split
  · subst byte
    exact short 102 rfl
  split
  · subst byte
    exact short 114 rfl
  split
  · rename_i control
    have high := hexValue_hexDigits (n := byte.toNat / 16) (by omega)
    have low := hexValue_hexDigits (n := byte.toNat % 16) (by omega)
    have whole : 4096 * 0 + 256 * 0 + 16 * (byte.toNat / 16) + byte.toNat % 16 = byte.toNat := by
      omega
    have unit : parseUnicode ([48, 48, hexDigits (byte.toNat / 16), hexDigits (byte.toNat % 16)] ++ is) =
        some (byte.toNat, is) := by
      have zero : hexValue 48 = some 0 := rfl
      have inside : ¬ (0xD800 ≤ byte.toNat ∧ byte.toNat ≤ 0xDFFF) := by omega
      simp only [parseUnicode, List.cons_append, List.nil_append, parseHex4, zero, high, low, whole,
        Option.bind_some, bind, if_neg inside]
    have back : encodeUtf8 byte.toNat = [byte] := by
      have ascii : byte.toNat ≤ 0x7F := by omega
      simp only [encodeUtf8, if_pos ascii, UInt8.ofNat_toNat]
    have unknown : unescape 117 = none := rfl
    simp only [List.cons_append, List.nil_append] at unit
    simp only [List.cons_append, List.nil_append, parseStringToStream, if_true, unknown, unit,
      Option.bind_some, bind, back]
    cases parseStringToStream rounds is with
    | none => rfl
    | some read => rfl
  · rename_i quote backslash _ _ _ _ _ printable
    simp only [List.cons_append, List.nil_append, parseStringToStream, if_neg backslash,
      if_neg quote, if_neg printable]

theorem escape_length_pos (byte : UInt8) : 0 < (escape byte).length := by
  simp only [escape]
  repeat' split
  all_goals simp only [List.length_cons, List.length_nil, Nat.zero_lt_succ]

theorem parseStringToStream_write (bytes rest : Qstring) (enough : bytes.length < rounds) :
    parseStringToStream rounds (bytes.flatMap escape ++ 34 :: rest) = some (bytes, rest) := by
  induction bytes generalizing rounds with
  | nil =>
    obtain ⟨rounds, rfl⟩ := Nat.exists_eq_add_one_of_ne_zero (Nat.ne_of_gt enough)
    rfl
  | cons byte bytes ih =>
    obtain ⟨rounds, rfl⟩ :=
      Nat.exists_eq_add_one_of_ne_zero (Nat.ne_of_gt (Nat.zero_lt_of_lt enough))
    rw [List.flatMap_cons, List.append_assoc, parseStringToStream_escape,
      ih (Nat.lt_of_succ_lt_succ enough)]
    rfl

theorem length_le_flatMap_escape (bytes : Qstring) :
    bytes.length ≤ (bytes.flatMap escape).length := by
  induction bytes with
  | nil => exact Nat.le_refl _
  | cons byte bytes ih =>
    have here := escape_length_pos byte
    simp only [List.flatMap_cons, List.length_append, List.length_cons]
    omega

theorem parseString_write (bytes rest : Qstring) :
    parseString (bytes.flatMap escape ++ 34 :: rest) = some (bytes, rest) := by
  refine parseStringToStream_write bytes rest ?_
  have long := length_le_flatMap_escape bytes
  simp only [List.length_append, List.length_cons]
  omega

/-! ### Numbers -/

/-- Nothing that goes on with a number. -/
def Ends (rest : Qstring) : Prop :=
  ∀ byte ∈ rest.head?, isdigit byte = false ∧ byte ≠ 46 ∧ byte ≠ 101 ∧ byte ≠ 69

theorem Ends.cons (byte : UInt8) (rest : Qstring)
    (other : isdigit byte = false ∧ byte ≠ 46 ∧ byte ≠ 101 ∧ byte ≠ 69 := by decide) :
    Ends (byte :: rest) := by
  intro head inside
  obtain rfl := Option.some.inj inside
  exact other

theorem Ends.nil : Ends [] := by
  intro head inside
  cases inside

theorem takeWhile_digits (digits : ∀ byte ∈ s, isdigit byte = true) (ends : Ends rest) :
    (s ++ rest).takeWhile isdigit = s := by
  rw [List.takeWhile_append_of_pos digits]
  cases rest with
  | nil => rw [List.takeWhile_nil, List.append_nil]
  | cons byte rest =>
    have other := (ends byte rfl).1
    rw [List.takeWhile_cons_of_neg (by simp only [other, Bool.false_eq_true, not_false_eq_true]),
      List.append_nil]

theorem parseDigits_append (digits : ∀ byte ∈ s, isdigit byte = true) (filled : s ≠ [])
    (ends : Ends rest) :
    parseDigits (s ++ rest) = some (s, rest) := by
  simp only [parseDigits, takeWhile_digits digits ends, if_neg filled, List.drop_left]

theorem parseFrac_ends (ends : Ends rest) : parseFrac rest = some ([], rest) := by
  cases rest with
  | nil => rfl
  | cons byte rest =>
    have dot := (ends byte rfl).2.1
    simp only [parseFrac, consume, if_neg dot]

theorem parseExp_ends (ends : Ends rest) : parseExp rest = some ([], rest) := by
  cases rest with
  | nil => rfl
  | cons byte rest =>
    obtain ⟨_, _, lower, upper⟩ := ends byte rfl
    simp only [parseExp, lower, upper, or_self, if_false]

theorem head_toDigits (positive : 0 < n) : (Nat.toDigits 10 n).head? ≠ some '0' := by
  induction n using Nat.strong_induction_on with
  | _ n ih =>
    by_cases single : n < 10
    · rw [Nat.toDigits_of_lt_base single]
      have all : ∀ n : Fin 10, 0 < n.val → [Nat.digitChar n.val].head? ≠ some '0' := by decide
      exact all ⟨n, single⟩ positive
    · obtain ⟨c, rest, shape⟩ :=
        List.exists_cons_of_ne_nil (Nat.toDigits_ne_nil (n := n / 10) (b := 10))
      have earlier := ih (n / 10) (by omega) (by omega)
      rw [Nat.toDigits_of_base_le (by decide) (by omega), shape]
      rwa [shape] at earlier

/-- The decimal text of a number begins with a zero only if it is zero. -/
theorem unsigned_head (positive : 0 < n) (shape : unsigned n = byte :: rest) : byte ≠ 48 := by
  rintro rfl
  have mapped : ((Nat.toDigits 10 n).map fun c => UInt8.ofNat c.toNat).head? = some 48 := by
    rw [← unsigned, shape]
    rfl
  rw [List.head?_map, Option.map_eq_some_iff] at mapped
  obtain ⟨c, first, same⟩ := mapped
  have digit := Nat.isDigit_of_mem_toDigits (by decide) (by decide) (List.mem_of_mem_head? first)
  obtain ⟨value, _, _⟩ := digit_toNat digit
  have zero : c = '0' := by
    apply Char.ext
    apply UInt32.toNat_inj.mp
    change c.toNat = 48
    rw [← value, same]
    rfl
  exact head_toDigits positive (zero ▸ first)

theorem parseIntPart_unsigned (n : Nat) (ends : Ends rest) :
    parseIntPart (unsigned n ++ rest) = some (unsigned n, rest) := by
  obtain ⟨byte, digits, shape⟩ := List.exists_cons_of_ne_nil (unsigned_ne_nil n)
  rcases Nat.eq_zero_or_pos n with rfl | positive
  · rfl
  · have other := unsigned_head positive shape
    have read := parseDigits_append (unsigned_digits n) (unsigned_ne_nil n) ends
    rw [shape] at read ⊢
    simp only [parseIntPart, List.cons_append, consume, if_neg other]
    exact read

section Reader
variable (tooBig : Qstring → Bool)

theorem parseNumber_write (fits : -2 ^ 63 ≤ i ∧ i ≤ 2 ^ 64 - 1) (ends : Ends rest) :
    parseNumber tooBig (writeInt i ++ rest) = some (.int i, rest) := by
  cases i with
  | ofNat n =>
    obtain ⟨byte, digits, shape⟩ := List.exists_cons_of_ne_nil (unsigned_ne_nil n)
    have digit := unsigned_digits n byte (by simp only [shape, List.mem_cons_self])
    have unsignedText : consume 45 (unsigned n ++ rest) = none := by
      rw [shape, List.cons_append, consume, if_neg]
      rintro rfl
      exact absurd (isdigit_bounds digit).1 (by decide)
    have bound : n ≤ 2 ^ 64 - 1 := by
      have high : (n : Int) ≤ 2 ^ 64 - 1 := fits.2
      omega
    simp only [parseNumber, writeInt, unsignedText, parseIntPart_unsigned n ends,
      parseFrac_ends ends, parseExp_ends ends, Strtol.accumulate_unsigned, Option.bind_some, bind,
      Bool.false_eq_true, if_false, bound, and_self, if_true]
    rfl
  | negSucc n =>
    have bound : n + 1 ≤ 2 ^ 63 := by
      have low := fits.1
      omega
    simp only [parseNumber, writeInt, List.cons_append, consume, if_true,
      parseIntPart_unsigned (n + 1) ends, parseFrac_ends ends, parseExp_ends ends,
      Strtol.accumulate_unsigned, Option.bind_some, bind, bound, and_self]
    rfl

/-! ### Values -/

/-- The text of a value begins with its own first character. -/
def Opens (text : Qstring) : Prop :=
  ∃ c rest, text = c :: rest ∧ isWhitespace c = false ∧ c ≠ 93 ∧ c.toNat < 128

theorem unsigned_opens (n : Nat) : Opens (unsigned n) := by
  obtain ⟨byte, rest, shape⟩ := List.exists_cons_of_ne_nil (unsigned_ne_nil n)
  obtain ⟨low, high⟩ :=
    isdigit_bounds (unsigned_digits n byte (by simp only [shape, List.mem_cons_self]))
  refine ⟨byte, rest, shape, ?_, ?_, by omega⟩
  · have other (c : UInt8) (outside : c.toNat < 48) : byte ≠ c := by
      rintro rfl
      omega
    simp only [isWhitespace, other 32 (by decide), other 10 (by decide), other 13 (by decide),
      other 9 (by decide), decide_false, Bool.or_self]
  · rintro rfl
    exact absurd high (by decide)

theorem write_opens (plain : Plain value) : Opens (write value) := by
  cases value with
  | null => exact ⟨110, [117, 108, 108], rfl, rfl, by decide, by decide⟩
  | bool value =>
    cases value with
    | true => exact ⟨116, [114, 117, 101], rfl, rfl, by decide, by decide⟩
    | false => exact ⟨102, [97, 108, 115, 101], rfl, rfl, by decide, by decide⟩
  | int i =>
    cases i with
    | ofNat n => exact unsigned_opens n
    | negSucc n => exact ⟨45, unsigned (n + 1), rfl, rfl, by decide, by decide⟩
  | double text => exact absurd plain not_false
  | string bytes => exact ⟨34, _, rfl, rfl, by decide, by decide⟩
  | array elements => exact ⟨91, _, rfl, rfl, by decide, by decide⟩
  | object members => exact ⟨123, _, rfl, rfl, by decide, by decide⟩

theorem skipWhitespace_cons (rest : Qstring) (visible : isWhitespace c = false) :
    skipWhitespace (c :: rest) = c :: rest := by
  rw [skipWhitespace,
    List.dropWhile_cons_of_neg (by simp only [visible, Bool.false_eq_true, not_false_eq_true])]

theorem Opens.skipWhitespace (opens : Opens text) (rest : Qstring) :
    skipWhitespace (text ++ rest) = text ++ rest := by
  obtain ⟨c, tail, rfl, visible, _⟩ := opens
  exact skipWhitespace_cons (tail ++ rest) visible

theorem Opens.append (opens : Opens text) (rest : Qstring) : Opens (text ++ rest) := by
  obtain ⟨c, tail, rfl, visible, bracket⟩ := opens
  exact ⟨c, tail ++ rest, rfl, visible, bracket⟩

theorem Opens.consume_bracket (opens : Opens text) : consume 93 text = none := by
  obtain ⟨c, tail, rfl, _, bracket, _⟩ := opens
  exact if_neg bracket

theorem Opens.length_pos (opens : Opens text) : 0 < text.length := by
  obtain ⟨c, tail, rfl, _⟩ := opens
  exact Nat.zero_lt_succ _

/-- It has no byte order mark in front. -/
theorem Opens.skipBom (opens : Opens text) : skipBom text = text := by
  obtain ⟨c, tail, rfl, _, _, ascii⟩ := opens
  have other (mark : UInt8) (above : 128 ≤ mark.toNat) : c ≠ mark := by
    rintro rfl
    omega
  simp only [Json.skipBom, List.foldl_cons, List.foldl_nil, consume, other 0xEF (by decide),
    other 0xBB (by decide), other 0xBF (by decide), if_false, Option.getD_none]

theorem writeElements_cons (element : Json) (rest : List Json) :
    writeElements true (element :: rest) = write element ++ writeElements false rest := rfl

theorem writeElements_next (element : Json) (rest : List Json) :
    writeElements false (element :: rest) = 44 :: writeElements true (element :: rest) := rfl

theorem writeMembers_cons (name : Qstring) (value : Json) (rest : List (Qstring × Json)) :
    writeMembers true ((name, value) :: rest) =
      writeString name ++ 58 :: write value ++ writeMembers false rest := rfl

theorem writeMembers_next (name : Qstring) (value : Json) (rest : List (Qstring × Json)) :
    writeMembers false ((name, value) :: rest) = 44 :: writeMembers true ((name, value) :: rest) :=
  rfl

theorem parseValue_number (fits : -2 ^ 63 ≤ i ∧ i ≤ 2 ^ 64 - 1) (ends : Ends rest) (rounds : Nat) :
    parseValue tooBig (rounds + 1) (writeInt i ++ rest) = some (.int i, rest) := by
  have number := parseNumber_write tooBig fits ends
  have first : ∃ c tail, writeInt i = c :: tail ∧ c.toNat ≤ 57 ∧ c ≠ 34 := by
    cases i with
    | ofNat n =>
      obtain ⟨byte, tail, shape⟩ := List.exists_cons_of_ne_nil (unsigned_ne_nil n)
      obtain ⟨low, high⟩ :=
        isdigit_bounds (unsigned_digits n byte (by simp only [shape, List.mem_cons_self]))
      refine ⟨byte, tail, shape, high, ?_⟩
      rintro rfl
      exact absurd low (by decide)
    | negSucc n => exact ⟨45, unsigned (n + 1), rfl, by decide, by decide⟩
  obtain ⟨c, tail, shape, low, quote⟩ := first
  have other (letter : UInt8) (above : 57 < letter.toNat) : c ≠ letter := by
    rintro rfl
    omega
  rw [shape, List.cons_append] at number ⊢
  simp only [parseValue, other 110 (by decide), other 116 (by decide), other 102 (by decide), quote,
    other 123 (by decide), other 91 (by decide), if_false]
  exact number

/-! One equation for each kind of bracket. -/

theorem parseValue_string (rounds : Nat) (is : Qstring) :
    parseValue tooBig (rounds + 1) (34 :: is) = (parseString is).map fun (bytes, is) =>
      (.string bytes, is) := rfl

theorem parseValue_object (rounds : Nat) (is : Qstring)
    (filled : consume 125 (skipWhitespace is) = none) :
    parseValue tooBig (rounds + 1) (123 :: is) =
      (parseMembers tooBig rounds (skipWhitespace is)).map fun (members, is) =>
        (.object members, is) := by
  rw [parseValue]
  simp only [filled]
  rfl

theorem parseValue_array (rounds : Nat) (is : Qstring)
    (filled : consume 93 (skipWhitespace is) = none) :
    parseValue tooBig (rounds + 1) (91 :: is) =
      (parseElements tooBig rounds (skipWhitespace is)).map fun (elements, is) =>
        (.array elements, is) := by
  rw [parseValue]
  simp only [filled]
  rfl

/-- A member and what comes behind it. -/
theorem parseMembers_member (name : Qstring) (opens : Opens (write value))
    (read : parseValue tooBig rounds (write value ++ after) = some (value, after)) :
    parseMembers tooBig (rounds + 1) (writeString name ++ 58 :: (write value ++ after)) =
      match consume 44 (skipWhitespace after) with
      | some is => (parseMembers tooBig rounds (skipWhitespace is)).map fun (rest, is) =>
        ((name, value) :: rest, is)
      | none => (consume 125 (skipWhitespace after)).map fun is => ([(name, value)], is) := by
  have colon : skipWhitespace (58 :: (write value ++ after)) = 58 :: (write value ++ after) :=
    skipWhitespace_cons _ rfl
  have opening (is : Qstring) : consume 34 (34 :: is) = some is := rfl
  have colons (is : Qstring) : consume 58 (58 :: is) = some is := rfl
  simp only [writeString, List.cons_append, List.append_assoc, List.nil_append]
  cases next : consume 44 (skipWhitespace after) with
  | none =>
    simp only [parseMembers, opening, colons, parseString_write, colon, opens.skipWhitespace after,
      read, next, Option.bind_some, bind]
  | some is =>
    simp only [parseMembers, opening, colons, parseString_write, colon, opens.skipWhitespace after,
      read, next, Option.bind_some, bind]

theorem skipWhitespace_text (c : UInt8) (rest : Qstring)
    (visible : isWhitespace c = false := by decide) :
    skipWhitespace (c :: rest) = c :: rest := skipWhitespace_cons rest visible

/-- With so many rounds, texts that are short enough are read back. -/
structure ReadsBack (rounds : Nat) : Prop where
  ofValue : ∀ value rest, Plain value → Ends rest → 2 * (write value).length ≤ rounds →
    parseValue tooBig rounds (write value ++ rest) = some (value, rest)
  ofElements : ∀ element elements rest, PlainElements (element :: elements) →
    2 * (writeElements true (element :: elements)).length < rounds →
    parseElements tooBig rounds (writeElements true (element :: elements) ++ 93 :: rest) =
      some (element :: elements, rest)
  ofMembers : ∀ name value members rest, PlainMembers ((name, value) :: members) →
    2 * (writeMembers true ((name, value) :: members)).length < rounds →
    parseMembers tooBig rounds (writeMembers true ((name, value) :: members) ++ 125 :: rest) =
      some ((name, value) :: members, rest)

variable {tooBig}

theorem ReadsBack.value_succ (reads : ReadsBack tooBig rounds) (plain : Plain value)
    (ends : Ends rest) (enough : 2 * (write value).length ≤ rounds + 1) :
    parseValue tooBig (rounds + 1) (write value ++ rest) = some (value, rest) := by
  match value, plain with
  | .null, _ => rfl
  | .bool true, _ => rfl
  | .bool false, _ => rfl
  | .int i, fits => exact parseValue_number tooBig fits ends rounds
  | .string bytes, _ =>
    simp only [write, writeString, List.cons_append, List.append_assoc, List.nil_append]
    rw [parseValue_string, parseString_write]
    rfl
  | .array [], _ => rfl
  | .array (element :: elements), plain =>
    simp only [write, List.length_cons, List.length_append, List.length_nil] at enough
    have read := reads.ofElements element elements rest plain (by omega)
    have opens := (write_opens plain.1).append (writeElements false elements ++ 93 :: rest)
    rw [← List.append_assoc, ← writeElements_cons] at opens
    have bare := opens.skipWhitespace []
    rw [List.append_nil] at bare
    simp only [write, List.cons_append, List.append_assoc, List.nil_append]
    rw [parseValue_array, bare, read]
    · rfl
    · rw [bare]
      exact opens.consume_bracket
  | .object [], _ => rfl
  | .object ((name, value) :: members), plain =>
    simp only [write, List.length_cons, List.length_append, List.length_nil] at enough
    have read := reads.ofMembers name value members rest plain (by omega)
    have bare : skipWhitespace (writeMembers true ((name, value) :: members) ++ 125 :: rest) =
        writeMembers true ((name, value) :: members) ++ 125 :: rest := skipWhitespace_cons _ rfl
    simp only [write, List.cons_append, List.append_assoc, List.nil_append]
    rw [parseValue_object, bare, read]
    · rfl
    · rw [bare]
      rfl

theorem ReadsBack.elements_succ (reads : ReadsBack tooBig rounds)
    (plain : PlainElements (element :: elements))
    (enough : 2 * (writeElements true (element :: elements)).length < rounds + 1) :
    parseElements tooBig (rounds + 1) (writeElements true (element :: elements) ++ 93 :: rest) =
      some (element :: elements, rest) := by
  rw [writeElements_cons, List.length_append] at enough
  match elements, plain with
  | [], plain =>
    have first := reads.ofValue _ _ plain.1 (Ends.cons 93 rest) (by omega)
    rw [writeElements_cons, writeElements, List.append_nil]
    simp only [parseElements, first, Option.bind_some, bind, skipWhitespace_text 93 rest]
    rfl
  | next :: later, plain =>
    have after : writeElements false (next :: later) ++ 93 :: rest =
      44 :: (writeElements true (next :: later) ++ 93 :: rest) := rfl
    have first := reads.ofValue _ _ plain.1
      (Ends.cons 44 (writeElements true (next :: later) ++ 93 :: rest)) (by omega)
    have opens := (write_opens plain.2.1).append (writeElements false later ++ 93 :: rest)
    rw [← List.append_assoc, ← writeElements_cons] at opens
    have bare := opens.skipWhitespace []
    rw [List.append_nil] at bare
    rw [writeElements_next, List.length_cons] at enough
    have others := reads.ofElements next later rest plain.2 (by omega)
    rw [writeElements_cons element, List.append_assoc, after, parseElements, first]
    simp only [Option.bind_some, bind, skipWhitespace_text 44 _, consume, if_true, bare, others]
    rfl

theorem ReadsBack.members_succ (reads : ReadsBack tooBig rounds)
    (plain : PlainMembers ((name, value) :: members))
    (enough : 2 * (writeMembers true ((name, value) :: members)).length < rounds + 1) :
    parseMembers tooBig (rounds + 1) (writeMembers true ((name, value) :: members) ++ 125 :: rest) =
      some ((name, value) :: members, rest) := by
  rw [writeMembers_cons, List.length_append, List.length_append, List.length_cons] at enough
  match members, plain with
  | [], plain =>
    have first := reads.ofValue _ _ plain.1 (Ends.cons 125 rest) (by omega)
    have member := parseMembers_member tooBig name (write_opens plain.1) first
    rw [skipWhitespace_text 125 rest] at member
    rw [writeMembers_cons, writeMembers, List.append_nil, List.append_assoc]
    exact member
  | (next, other) :: later, plain =>
    have first := reads.ofValue _ _ plain.1
      (Ends.cons 44 (writeMembers true ((next, other) :: later) ++ 125 :: rest)) (by omega)
    have member := parseMembers_member tooBig name (write_opens plain.1) first
    rw [writeMembers_next, List.length_cons] at enough
    have others := reads.ofMembers next other later rest plain.2 (by omega)
    have bare : skipWhitespace (writeMembers true ((next, other) :: later) ++ 125 :: rest) =
        writeMembers true ((next, other) :: later) ++ 125 :: rest := skipWhitespace_cons _ rfl
    simp only [skipWhitespace_text 44 _, consume, if_true, bare, others] at member
    rw [writeMembers_cons name, writeMembers_next, List.append_assoc, List.append_assoc]
    exact member

variable (tooBig)

theorem readsBack (rounds : Nat) : ReadsBack tooBig rounds := by
  induction rounds with
  | zero =>
    constructor
    · intro value rest plain _ enough
      have positive := (write_opens plain).length_pos
      omega
    · intro element elements rest _ enough
      omega
    · intro name value members rest _ enough
      omega
  | succ rounds reads =>
    constructor
    · intro value rest
      exact reads.value_succ
    · intro element elements rest
      exact reads.elements_succ
    · intro name value members rest
      exact reads.members_succ

/-- What has been written is read back. -/
theorem parse_write (plain : Plain value) : parse tooBig (write value) = some value := by
  have bare := (write_opens plain).skipWhitespace []
  have read := (readsBack tooBig (2 * (write value).length)).ofValue value [] plain Ends.nil
    (Nat.le_refl _)
  rw [List.append_nil] at bare read
  simp only [parse, (write_opens plain).skipBom, bare, read, Option.bind_some, bind]
  rfl

end Reader

/-! ### C strings -/

theorem clean_nil : Clean [] := by decide

theorem clean_append : Clean (a ++ b) ↔ Clean a ∧ Clean b := List.forall_mem_append

theorem clean_cons : Clean (byte :: a) ↔ byte ≠ 0 ∧ Clean a := List.forall_mem_cons

theorem escape_clean (byte : UInt8) : Clean (escape byte) := by
  have digit : ∀ n : Fin 16, hexDigits n.val ≠ 0 := by decide
  simp only [escape]
  repeat' split
  all_goals try decide
  · rename_i control
    have high := digit ⟨byte.toNat / 16, by omega⟩
    have low := digit ⟨byte.toNat % 16, by omega⟩
    simp only [clean_cons, high, low, clean_nil, ne_eq, not_false_eq_true, and_self, and_true]
    decide
  · rename_i printable
    rintro other inside rfl
    rw [← List.mem_singleton.mp inside] at printable
    exact printable (by decide)

theorem writeString_clean (bytes : Qstring) : Clean (writeString bytes) := by
  have body : Clean (bytes.flatMap escape) := by
    intro byte inside
    obtain ⟨original, _, here⟩ := List.mem_flatMap.mp inside
    exact escape_clean original byte here
  exact clean_cons.mpr ⟨by decide, clean_append.mpr ⟨body, by decide⟩⟩

theorem unsigned_clean (n : Nat) : Clean (unsigned n) := clean_of_digits (unsigned_digits n)

theorem separator_clean (first : Bool) : Clean (separator first) := by
  cases first <;> decide

mutual

theorem write_clean : (value : Json) → Plain value → Clean (write value)
  | .null, _ => by decide
  | .bool true, _ => by decide
  | .bool false, _ => by decide
  | .int (.ofNat n), _ => unsigned_clean n
  | .int (.negSucc n), _ => clean_cons.mpr ⟨by decide, unsigned_clean (n + 1)⟩
  | .double _, plain => absurd plain not_false
  | .string bytes, _ => writeString_clean bytes
  | .array elements, plain =>
    clean_cons.mpr ⟨by decide, clean_append.mpr ⟨writeElements_clean true elements plain, by decide⟩⟩
  | .object members, plain =>
    clean_cons.mpr ⟨by decide, clean_append.mpr ⟨writeMembers_clean true members plain, by decide⟩⟩

theorem writeElements_clean (first : Bool) :
    (elements : List Json) → PlainElements elements → Clean (writeElements first elements)
  | [], _ => clean_nil
  | element :: rest, plain =>
    clean_append.mpr ⟨clean_append.mpr ⟨separator_clean first, write_clean element plain.1⟩,
      writeElements_clean false rest plain.2⟩

theorem writeMembers_clean (first : Bool) :
    (members : List (Qstring × Json)) → PlainMembers members → Clean (writeMembers first members)
  | [], _ => clean_nil
  | (name, value) :: rest, plain => by
    have head := clean_append.mpr ⟨separator_clean first, writeString_clean name⟩
    have body : Clean (58 :: write value) := clean_cons.mpr ⟨by decide, write_clean value plain.1⟩
    exact clean_append.mpr ⟨clean_append.mpr ⟨head, body⟩, writeMembers_clean false rest plain.2⟩

end

theorem parse_getJsonString (tooBig : Qstring → Bool) (plain : Plain obj) :
    parse tooBig (getJsonString obj) = some obj := by
  rw [getJsonString, cString_of_nul_free (write_clean obj plain), parse_write tooBig plain]

end Json
end Gearsdk
