import Gearsdk.Javascript

/-! What `JSON.parse` reads of strings and objects that are written without white space. -/
namespace Javascript
open Utf16

def hexDigit (n : Nat) : UInt16 := UInt16.ofNat (if n < 10 then 48 + n else 55 + n)

/-- The escapes of a writer that leaves everything but quotation marks, backslashes and control
characters as it is. -/
def escape (unit : UInt16) : Text :=
  if unit = 34 then [92, 34]
  else if unit = 92 then [92, 92]
  else if unit = 8 then [92, 98]
  else if unit = 9 then [92, 116]
  else if unit = 10 then [92, 110]
  else if unit = 12 then [92, 102]
  else if unit = 13 then [92, 114]
  else if unit.toNat < 32 then [92, 117, 48, 48, hexDigit (unit.toNat / 16),
    hexDigit (unit.toNat % 16)]
  else [unit]

def quote (text : Text) : Text := 34 :: (text.flatMap escape ++ [34])

/-- Keys with the texts of their values. -/
def membersText (first : Bool) : List (Text × Text) → Text
  | [] => []
  | (key, text) :: rest =>
    (if first then [] else [44]) ++ quote key ++ 58 :: text ++ membersText false rest

def objectText (members : List (Text × Text)) : Text := 123 :: (membersText true members ++ [125])

/-- A text is read as a value, whatever is behind it. -/
structure Reads (text : Text) (value : Value) : Prop where
  visible : ∃ unit rest, text = unit :: rest ∧ isWhitespace unit = false
  read : ∀ rounds rest, text.length ≤ rounds → parseValue rounds (text ++ rest) = some (value, rest)

/-! ### Strings -/

theorem hexValue_hexDigit (small : n < 16) : hexValue (hexDigit n) = some n := by
  have table : ∀ n < 16, hexValue (hexDigit n) = some n := by decide
  exact table n small

theorem parseUnit_escape (unit : UInt16) (rest : Text) :
    consume 34 (escape unit ++ rest) = none ∧
      parseUnit (escape unit ++ rest) = some (unit, rest) := by
  rw [escape]
  split
  · subst unit
    exact ⟨rfl, rfl⟩
  split
  · subst unit
    exact ⟨rfl, rfl⟩
  split
  · subst unit
    exact ⟨rfl, rfl⟩
  split
  · subst unit
    exact ⟨rfl, rfl⟩
  split
  · subst unit
    exact ⟨rfl, rfl⟩
  split
  · subst unit
    exact ⟨rfl, rfl⟩
  split
  · subst unit
    exact ⟨rfl, rfl⟩
  split
  · rename_i control
    have number : 16 * (unit.toNat / 16) + unit.toNat % 16 = unit.toNat := Nat.div_add_mod _ _
    have zero : hexValue 48 = some 0 := rfl
    refine ⟨rfl, ?_⟩
    simp only [List.cons_append, List.nil_append, parseUnit, if_true, unicodeEscape, zero,
      hexValue_hexDigit (show unit.toNat / 16 < 16 by omega),
      hexValue_hexDigit (show unit.toNat % 16 < 16 by omega), Option.bind_eq_bind, Option.bind_some,
      Nat.mul_zero, Nat.zero_add, number, UInt16.ofNat_toNat]
  · rename_i quotation backslash _ _ _ _ _ visible
    refine ⟨if_neg quotation, ?_⟩
    simp only [List.singleton_append, parseUnit, if_neg backslash, if_neg visible]

theorem parseString_quote (text rest : Text) (enough : text.length < rounds) :
    parseString rounds (text.flatMap escape ++ 34 :: rest) = some (text, rest) := by
  induction text generalizing rounds with
  | nil =>
    obtain ⟨rounds, rfl⟩ :=
      Nat.exists_eq_succ_of_ne_zero (Nat.ne_of_gt (Nat.lt_of_le_of_lt (Nat.zero_le _) enough))
    rfl
  | cons unit later ih =>
    obtain ⟨rounds, rfl⟩ :=
      Nat.exists_eq_succ_of_ne_zero (Nat.ne_of_gt (Nat.lt_of_le_of_lt (Nat.zero_le _) enough))
    rw [List.length_cons] at enough
    have read := ih (Nat.lt_of_succ_lt_succ enough)
    have next := parseUnit_escape unit (later.flatMap escape ++ 34 :: rest)
    rw [List.flatMap_cons, List.append_assoc, parseString, next.1]
    simp only [next.2, Option.bind_eq_bind, Option.bind_some, read]

theorem length_le_flatMap_escape (text : Text) : text.length ≤ (text.flatMap escape).length := by
  induction text with
  | nil => exact Nat.le_refl _
  | cons unit rest ih =>
    have some_unit : 0 < (escape unit).length := by
      rw [escape]
      repeat' split
      all_goals exact Nat.succ_pos _
    rw [List.flatMap_cons, List.length_cons, List.length_append]
    omega

/-- A string with its quotation marks, of which the first has been read. -/
theorem parseString_rest (text rest : Text) :
    parseString ((text.flatMap escape ++ 34 :: rest).length + 1) (text.flatMap escape ++
      34 :: rest) = some (text, rest) := by
  refine parseString_quote text rest ?_
  have longer := length_le_flatMap_escape text
  rw [List.length_append]
  omega

theorem skipWhitespace_visible (rest : Text) (visible : isWhitespace unit = false) :
    skipWhitespace (unit :: rest) = unit :: rest := by
  rw [skipWhitespace, List.dropWhile_cons_of_neg (by rw [visible]; exact Bool.false_ne_true)]

theorem Reads.quote (text : Text) : Reads (quote text) (.string text) := by
  refine ⟨⟨34, _, rfl, rfl⟩, fun rounds rest enough => ?_⟩
  obtain ⟨rounds, rfl⟩ := Nat.exists_eq_succ_of_ne_zero (n := rounds) (by
    rintro rfl
    exact absurd enough (Nat.not_le.mpr (Nat.succ_pos _)))
  have read := parseString_rest text rest
  have shape : Javascript.quote text ++ rest = 34 :: (text.flatMap escape ++ 34 :: rest) := by
    rw [Javascript.quote, List.cons_append, List.append_assoc, List.singleton_append]
  rw [shape, parseValue]
  simp only [read, Option.map_some]
  rfl

/-! ### Objects -/

theorem Reads.bare (reads : Reads text value) (rest : Text) :
    skipWhitespace (text ++ rest) = text ++ rest := by
  obtain ⟨unit, later, rfl, visible⟩ := reads.visible
  exact skipWhitespace_visible _ visible

/-- The members that are read, behind those that are there. -/
def addMembers (before : List (Text × Value)) (members : List (Text × Text × Value)) :
    List (Text × Value) :=
  members.foldl (fun members member => setMember members member.1 member.2.2) before

def texts (members : List (Text × Text × Value)) : List (Text × Text) :=
  members.map fun member => (member.1, member.2.1)

theorem parseMembers_member (key : Text) (reads : Reads text value) (enough : text.length ≤ rounds)
    (before : List (Text × Value)) (rest : Text) :
    parseMembers (rounds + 1) before (quote key ++ 58 :: (text ++ rest)) =
      match consume 44 (skipWhitespace rest) with
      | some rest => parseMembers rounds (setMember before key value) (skipWhitespace rest)
      | none =>
        (consume 125 (skipWhitespace rest)).map fun rest => (setMember before key value, rest) := by
  have shape : quote key ++ 58 :: (text ++ rest) =
      34 :: (key.flatMap escape ++ 34 :: 58 :: (text ++ rest)) := by
    rw [quote, List.cons_append, List.append_assoc, List.singleton_append]
  have quotation : consume 34 (34 :: (key.flatMap escape ++ 34 :: 58 :: (text ++ rest))) =
      some (key.flatMap escape ++ 34 :: 58 :: (text ++ rest)) := rfl
  have colon : consume 58 (skipWhitespace (58 :: (text ++ rest))) = some (text ++ rest) := rfl
  rw [shape, parseMembers, quotation]
  cases next : consume 44 (skipWhitespace rest) with
  | none =>
    simp only [Option.bind_eq_bind, Option.bind_some, parseString_rest, colon, reads.bare,
      reads.read rounds rest enough, next]
  | some rest =>
    simp only [Option.bind_eq_bind, Option.bind_some, parseString_rest, colon, reads.bare,
      reads.read rounds _ enough, next]

theorem membersText_cons (key text : Text) (later : List (Text × Text)) (rest : Text) :
    membersText true ((key, text) :: later) ++ rest = quote key ++
      58 :: (text ++ (membersText false later ++ rest)) := by
  simp only [membersText, if_true, List.nil_append, List.append_assoc, List.cons_append]

theorem membersText_next (member : Text × Text) (later : List (Text × Text)) :
    membersText false (member :: later) = 44 :: membersText true (member :: later) := by
  simp only [membersText, if_true, Bool.false_eq_true, if_false, List.nil_append, List.cons_append]

theorem parseMembers_text {members : List (Text × Text × Value)}
    (reads : ∀ member ∈ members, Reads member.2.1 member.2.2) (filled : members ≠ [])
    (enough : (membersText true (texts members)).length < rounds) (before : List (Text × Value))
    (rest : Text) :
    parseMembers rounds before (membersText true (texts members) ++ 125 :: rest) =
      some (addMembers before members, rest) := by
  obtain ⟨rounds, rfl⟩ :=
    Nat.exists_eq_succ_of_ne_zero (Nat.ne_of_gt (Nat.lt_of_le_of_lt (Nat.zero_le _) enough))
  induction members generalizing rounds before with
  | nil => exact absurd rfl filled
  | cons member later ih =>
    obtain ⟨key, text, value⟩ := member
    obtain ⟨first, others⟩ := List.forall_mem_cons.mp reads
    have reads_first : Reads text value := first
    have shape : texts ((key, text, value) :: later) = (key, text) :: texts later := rfl
    have length := congrArg List.length (membersText_cons key text (texts later) [])
    simp only [List.append_nil, List.length_append, List.length_cons] at length
    rw [shape] at enough ⊢
    have short : text.length ≤ rounds := by omega
    rw [membersText_cons, Nat.succ_eq_add_one, parseMembers_member key reads_first short]
    cases later with
    | nil => rfl
    | cons next later =>
      have comma : membersText false (texts (next :: later)) =
        44 :: membersText true (texts (next :: later)) :=
        membersText_next _ _
      have bare : skipWhitespace (membersText true (texts (next :: later)) ++ 125 :: rest) =
          membersText true (texts (next :: later)) ++ 125 :: rest := rfl
      rw [comma, List.length_cons] at length
      obtain ⟨rounds, rfl⟩ := Nat.exists_eq_succ_of_ne_zero (n := rounds) (by omega)
      have read := ih others (List.cons_ne_nil _ _) (setMember before key value) rounds (by omega)
      rw [comma, List.cons_append, skipWhitespace_visible _ rfl]
      simp only [consume, if_true, bare]
      exact read

/-- An object of texts that are read is read. -/
theorem Reads.object {members : List (Text × Text × Value)}
    (reads : ∀ member ∈ members, Reads member.2.1 member.2.2) :
    Reads (objectText (texts members)) (.object (addMembers [] members)) := by
  refine ⟨⟨123, _, rfl, rfl⟩, fun rounds rest enough => ?_⟩
  obtain ⟨rounds, rfl⟩ := Nat.exists_eq_succ_of_ne_zero (n := rounds) (by
    rintro rfl
    exact absurd enough (Nat.not_le.mpr (Nat.succ_pos _)))
  cases members with
  | nil => rfl
  | cons member later =>
    have fewer : (membersText true (texts (member :: later))).length < rounds := by
      rw [objectText, List.length_cons, List.length_append, List.length_singleton] at enough
      omega
    have read := parseMembers_text reads (List.cons_ne_nil _ _) fewer [] rest
    have shape : objectText (texts (member :: later)) ++ rest =
        123 :: (membersText true (texts (member :: later)) ++ 125 :: rest) := by
      rw [objectText, List.cons_append, List.append_assoc, List.singleton_append]
    have bare : skipWhitespace (membersText true (texts (member :: later)) ++ 125 :: rest) =
        membersText true (texts (member :: later)) ++ 125 :: rest := rfl
    have filled : consume 125 (membersText true (texts (member :: later)) ++ 125 :: rest) = none :=
      rfl
    rw [shape, parseValue]
    simp only [bare, filled, read]
    rfl

theorem parse_of_reads (reads : Reads text value) : parse text = some value := by
  have bare := reads.bare []
  have read := reads.read (2 * text.length) [] (Nat.le_mul_of_pos_left _ (by decide))
  rw [List.append_nil] at bare read
  rw [parse, bare, Option.bind_eq_bind, read]
  rfl

end Javascript
