import Gearsdk.ServerInfoReader.Lines

/-! The lines from which all four readers take the same: on a plain line the key and
the value stand alone on either side of the only `=`, and the quotes of the value, if
any, belong together. -/
namespace Gearsdk.ServerInfoReader
open Trim

variable {content line front back key value raw : Text}

/-- Every reader cuts the same text out of a part of a line. -/
structure Bare (part body : Text) : Prop where
  cpp : Cpp.trim part = body
  typeScript : trim jsSpace part = body
  lua : trim luaSpace part = body
  rust : trim rustSpace part = body

/-- Neither end of a text is a quote. -/
def Unquoted (value : Text) : Prop :=
  (∀ s, value.head? = some s → quote s = false) ∧ ∀ s, value.getLast? = some s → quote s = false

/-- The value is written as it is, or between two double or two single quotes. -/
def Written (raw value : Text) : Prop :=
  Unquoted value ∧ (raw = value ∨ raw = .char '"' :: value ++ [.char '"'] ∨
    raw = .char '\'' :: value ++ [.char '\''])

structure Plain (line key value : Text) : Prop where
  separator : equals ∈ line
  single : equals ∉ afterEquals line
  uncommented : hash ∉ line
  clean : nul ∉ line
  named : Bare (beforeEquals line) key ∧ key ≠ []
  valued : ∃ raw, Bare (afterEquals line) raw ∧ raw ≠ [] ∧ Written raw value

/-- If a `=` stands before the first `stop`, no `stop` stands before the first `=`. -/
theorem not_mem_beforeEquals {stop : Symbol} (first : equals ∈ line.takeWhile (· ≠ stop)) :
    stop ∉ beforeEquals line := by
  intro member
  obtain ⟨before, after, split⟩ := List.append_of_mem member
  have present : equals ∈ line := (List.takeWhile_prefix _).subset first
  have absent := equals_not_mem_beforeEquals line
  rw [split_equals present, split, List.append_assoc, List.cons_append] at first
  have inside : (before ++ stop :: (after ++ equals :: afterEquals line)).takeWhile (· ≠ stop) <+:
      before := by
    rw [List.takeWhile_append]
    split
    · simp only [List.takeWhile_cons, ne_eq, not_true_eq_false, decide_false, Bool.false_eq_true,
        if_false, List.append_nil, List.prefix_refl]
    · exact List.takeWhile_prefix _
  rw [split] at absent
  exact absent (List.mem_append_left _ (inside.subset first))

theorem Cpp.ending_of_blank (s : Symbol) (isBlank : blank s = true) : ending s = true := by
  cases s with
  | char c =>
    simp only [blank, oneOf, List.contains_eq_mem, List.mem_cons, List.not_mem_nil, or_false,
      decide_eq_true_eq] at isBlank
    rcases isBlank with rfl | rfl <;> decide
  | ill => contradiction

/-- What ends a line is white space for the other readers. -/
theorem Cpp.space_of_ending (s : Symbol) (ends : ending s = true) :
    jsSpace s = true ∧ luaSpace s = true ∧ rustSpace s = true := by
  cases s with
  | char c =>
    simp only [ending, oneOf, List.contains_eq_mem, List.mem_cons, List.not_mem_nil, or_false,
      decide_eq_true_eq] at ends
    rcases ends with rfl | rfl | rfl | rfl <;> decide
  | ill => contradiction

theorem Cpp.mem_of_mem_trim {s : Symbol} {str : Text} (member : s ∈ Cpp.trim str) : s ∈ str := by
  apply (List.dropWhile_suffix blank).subset
  simp only [Cpp.trim] at member
  split at member
  · contradiction
  · rename_i first rest shape
    rw [shape]
    rcases List.mem_cons.mp member with rfl | later
    · exact List.mem_cons_self ..
    · exact List.mem_cons_of_mem _ ((List.rdropWhile_prefix _ _).subset later)

theorem Cpp.unblank_of_solid {s : Symbol} (solid : ending s = false) : blank s = false := by
  by_contra isBlank
  rw [ending_of_blank s (Bool.not_eq_false _ ▸ isBlank)] at solid
  contradiction

theorem Cpp.mem_trim {s : Symbol} {str : Text} (solid : ending s = false) (member : s ∈ str) :
    s ∈ Cpp.trim str := by
  have unblank := unblank_of_solid solid
  have inside := Trim.mem_dropWhile unblank member
  simp only [Cpp.trim]
  cases shape : str.dropWhile blank with
  | nil => simp [shape] at inside
  | cons first rest =>
    rw [shape] at inside
    rcases List.mem_cons.mp inside with rfl | later
    · exact List.mem_cons_self ..
    · exact List.mem_cons_of_mem _ (Trim.mem_rdropWhile solid later)

/-- The other readers cut off at least what this one does. -/
theorem Cpp.trim_trim {space : Symbol → Bool} (weaker : ∀ s, ending s = true → space s = true)
    (str : Text) :
    Trim.trim space (Cpp.trim str) = Trim.trim space str := by
  rw [← Trim.trim_dropWhile (fun s isBlank => weaker s (ending_of_blank s isBlank)) str]
  simp only [Cpp.trim]
  cases str.dropWhile blank with
  | nil => rfl
  | cons first rest => exact Trim.trim_append_rdropWhile weaker [first] rest

theorem Cpp.trim_rdropWhile {str : Text} (solid : str.rdropWhile ending ≠ []) :
    Cpp.trim (str.rdropWhile ending) = Cpp.trim str := by
  rcases Trim.blank_or_solid ending str with allBlank | ⟨before, c, after, rfl, inner⟩
  · exact absurd (List.rdropWhile_eq_nil_iff.mpr allBlank) solid
  · have unblank := unblank_of_solid inner
    rw [Trim.rdropWhile_append_cons inner]
    simp only [Cpp.trim]
    rw [Trim.dropWhile_append_cons unblank, Trim.dropWhile_append_cons unblank]
    cases before.dropWhile blank with
    | nil => simp only [List.nil_append, List.rdropWhile_idempotent]
    | cons first rest =>
      simp only [List.cons_append]
      rw [Trim.rdropWhile_append_cons inner, Trim.rdropWhile_append_cons inner,
        List.rdropWhile_idempotent]

/-! ### Quotes -/

theorem unquoted_iff {value : Text} :
    Unquoted value ↔ value.head?.any quote = false ∧ value.getLast?.any quote = false := by
  cases head : value.head? <;> cases last : value.getLast? <;> simp [Unquoted, head, last]

theorem stripQuotes_length_le (value : Text) : (stripQuotes value).length ≤ value.length := by
  simp only [stripQuotes]
  split <;> split <;> simp
  omega

theorem stripQuotes_eq_self_iff {value : Text} : stripQuotes value = value ↔ Unquoted value := by
  rw [unquoted_iff]
  constructor
  · intro same
    have head : value.head?.any quote = false := by
      by_contra quoted
      rw [Bool.not_eq_false] at quoted
      have shorter : (stripQuotes value).length ≤ value.tail.length := by
        simp only [stripQuotes, if_pos quoted]
        split <;> simp
      cases value with
      | nil => contradiction
      | cons first rest =>
        rw [same, List.tail_cons, List.length_cons] at shorter
        omega
    refine ⟨head, ?_⟩
    by_contra quoted
    rw [Bool.not_eq_false] at quoted
    have lengths := congrArg List.length same
    simp only [stripQuotes, head, Bool.false_eq_true, if_false, if_pos quoted,
      List.length_dropLast] at lengths
    cases value with
    | nil => contradiction
    | cons first rest =>
      rw [List.length_cons] at lengths
      omega
  · rintro ⟨head, last⟩
    simp only [stripQuotes, head, last, Bool.false_eq_true, if_false]

theorem stripQuotes_quoted {q : Symbol} (isQuote : quote q = true) (value : Text) :
    stripQuotes (q :: value ++ [q]) = value := by
  simp [stripQuotes, isQuote]

theorem trim_quoted {q : Symbol} (isQuote : quote q = true) (value : Text) :
    trim quote (q :: value ++ [q]) = trim quote value := by
  rw [← List.singleton_append, List.append_assoc, trim_append_left (by simpa using isQuote),
    trim_append_right (by simpa using isQuote)]

theorem Cpp.quotedBy_eq {q : Char} (long : 2 ≤ raw.length) (quoted : Cpp.quotedBy q raw = true) :
    raw = .char q :: raw.tail.dropLast ++ [.char q] := by
  simp only [quotedBy, Bool.and_eq_true, decide_eq_true_eq] at quoted
  obtain ⟨head, last⟩ := quoted
  cases raw with
  | nil => contradiction
  | cons first rest =>
    cases Option.some.inj head
    rw [List.length_cons] at long
    have inner : rest ≠ [] := List.length_pos_iff.mp (by omega)
    rw [List.getLast?_cons_of_ne_nil inner] at last
    rw [List.tail_cons, List.cons_append, List.dropLast_append_getLast? _ last]

theorem Cpp.unquote_some (unquoted : Cpp.unquote raw = some value) :
    raw = value ∨ raw = .char '"' :: value ++ [.char '"'] ∨
      raw = .char '\'' :: value ++ [.char '\''] := by
  simp only [unquote] at unquoted
  split at unquoted
  · rename_i quoted
    obtain ⟨long, quoted⟩ := quoted
    split at unquoted
    · contradiction
    · cases unquoted
      rcases Bool.or_eq_true_iff.mp quoted with double | single
      · exact .inr (.inl (quotedBy_eq long double))
      · exact .inr (.inr (quotedBy_eq long single))
  · split at unquoted
    · contradiction
    · exact .inl (Option.some.inj unquoted)

theorem Cpp.opens_unquoted (unquoted : Unquoted value) : Cpp.opens value = false := by
  cases value with
  | nil => rfl
  | cons first rest =>
    have solid := unquoted.1 first rfl
    simp only [opens, List.head?_cons, Option.some.injEq, Bool.or_eq_false_iff,
      decide_eq_false_iff_not]
    constructor
    · rintro rfl
      contradiction
    · rintro rfl
      contradiction

theorem Cpp.quotedBy_quoted (q : Char) (value : Text) :
    Cpp.quotedBy q (.char q :: value ++ [.char q]) = true := by
  rw [quotedBy, List.getLast?_concat]
  simp

theorem Cpp.unquote_bare (closed : opens raw = false) : Cpp.unquote raw = some raw := by
  have unpaired : (quotedBy '"' raw || quotedBy '\'' raw) = false := by
    simp only [opens, Bool.or_eq_false_iff] at closed
    simp only [quotedBy, closed.1, closed.2, Bool.false_and, Bool.or_self]
  simp [unquote, closed, unpaired]

theorem Cpp.unquote_quoted {q : Char} (isQuote : q = '"' ∨ q = '\'') (closed : opens value = false) :
    Cpp.unquote (.char q :: value ++ [.char q]) = some value := by
  have quoted : (quotedBy '"' (.char q :: value ++ [.char q]) ||
      quotedBy '\'' (.char q :: value ++ [.char q])) = true := by
    rcases isQuote with rfl | rfl
    · rw [quotedBy_quoted, Bool.true_or]
    · rw [quotedBy_quoted, Bool.or_true]
  simp only [unquote]
  rw [if_pos ⟨by simp, quoted⟩]
  simp [closed]

theorem Cpp.unquote_written (written : Written raw value) : Cpp.unquote raw = some value := by
  obtain ⟨unquoted, same⟩ := written
  have closed := opens_unquoted unquoted
  rcases same with rfl | rfl | rfl
  · exact unquote_bare closed
  · exact unquote_quoted (.inl rfl) closed
  · exact unquote_quoted (.inr rfl) closed

/-- The value as it is written between white space, from what the readers make of it. -/
theorem written_of_read (unquoted : Cpp.unquote raw = some value)
    (js : stripQuotes (trim jsSpace raw) = value) (lua : stripQuotes (trim luaSpace raw) = value)
    (rust : trim quote (trim rustSpace raw) = value) :
    Written raw value ∧ trim jsSpace raw = raw ∧ trim luaSpace raw = raw ∧
      trim rustSpace raw = raw := by
  have paired (q : Symbol) (isQuote : quote q = true)
      (solid : jsSpace q = false ∧ luaSpace q = false ∧ rustSpace q = false)
      (same : raw = q :: value ++ [q]) :
      Unquoted value ∧ trim jsSpace raw = raw ∧ trim luaSpace raw = raw ∧
        trim rustSpace raw = raw := by
    have ends (space : Symbol → Bool) (inner : space q = false) : trim space raw = raw := by
      rw [trim_eq_self_iff, same]
      constructor
      · intro s head
        cases Option.some.inj head
        exact inner
      · intro s last
        rw [List.getLast?_concat] at last
        cases Option.some.inj last
        exact inner
    refine ⟨?_, ends _ solid.1, ends _ solid.2.1, ends _ solid.2.2⟩
    rw [ends _ solid.2.2, same, trim_quoted isQuote, trim_eq_self_iff] at rust
    exact rust
  rcases Cpp.unquote_some unquoted with rfl | same | same
  · -- the readers together leave as much as there was
    have whole (space : Symbol → Bool) (stripped : stripQuotes (trim space raw) = raw) :
        trim space raw = raw := by
      apply trim_eq_of_length
      have shorter := stripQuotes_length_le (trim space raw)
      rwa [stripped] at shorter
    have inner : trim rustSpace raw = raw := by
      apply trim_eq_of_length
      have shorter := trim_length_le quote (trim rustSpace raw)
      rwa [rust] at shorter
    rw [inner, trim_eq_self_iff] at rust
    exact ⟨⟨rust, .inl rfl⟩, whole _ js, whole _ lua, inner⟩
  · obtain ⟨solid, ends⟩ := paired _ (by decide) ⟨by decide, by decide, by decide⟩ same
    exact ⟨⟨solid, .inr (.inl same)⟩, ends⟩
  · obtain ⟨solid, ends⟩ := paired _ (by decide) ⟨by decide, by decide, by decide⟩ same
    exact ⟨⟨solid, .inr (.inr same)⟩, ends⟩

/-- A value that is written so is read so. -/
theorem Written.stripQuotes (written : Written raw value) : stripQuotes raw = value := by
  obtain ⟨unquoted, rfl | rfl | rfl⟩ := written
  · exact stripQuotes_eq_self_iff.mpr unquoted
  · exact stripQuotes_quoted (by decide) value
  · exact stripQuotes_quoted (by decide) value

theorem Written.trim (written : Written raw value) : trim quote raw = value := by
  obtain ⟨unquoted, rfl | rfl | rfl⟩ := written
  · exact trim_eq_self_iff.mpr unquoted
  · rw [trim_quoted (by decide)]
    exact trim_eq_self_iff.mpr unquoted
  · rw [trim_quoted (by decide)]
    exact trim_eq_self_iff.mpr unquoted

/-! ### The lines from which all readers take the same -/

theorem map_decode_of_wellFormed (formed : Rust.wellFormed content = true)
    (member : line ∈ content.splitOn newline) :
    line.map TypeScript.decode = line := by
  refine (List.map_congr_left fun s inside => ?_).trans (List.map_id line)
  have kept := List.all_eq_true.mp formed s (mem_of_mem_splitOn member inside)
  cases s with
  | char => rfl
  | ill => contradiction

/-- The key of a line that a reader takes apart at `=`, once the comment is off. -/
theorem uncommented_of_mem {space : Symbol → Bool} (solid : space equals = false)
    (solidHash : space hash = false) (present : equals ∈ beforeHash (trim space line)) :
    equals ∈ line ∧ hash ∉ beforeEquals line := by
  have inside : equals ∈ line := mem_of_mem_trim ((List.takeWhile_prefix _).subset present)
  refine ⟨inside, fun member => not_mem_beforeEquals present ?_⟩
  rw [split_equals inside, trimmed_line solid,
    beforeEquals_append (not_mem_dropWhile (equals_not_mem_beforeEquals line))]
  exact mem_dropWhile solidHash member

theorem TypeScript.uncommented_of_entry (taken : TypeScript.entry line = some pair) :
    equals ∈ line ∧ hash ∉ beforeEquals line := by
  simp only [TypeScript.entry] at taken
  split at taken
  · contradiction
  · rcases splitOn_equals (beforeHash (trim jsSpace line)) with ⟨_, split⟩ | ⟨present, _⟩
    · rw [split] at taken
      contradiction
    · exact uncommented_of_mem (by decide) (by decide) present

theorem Cpp.clean_of_entry (taken : Cpp.entry line = some pair) : nul ∉ beforeEquals line := by
  apply not_mem_beforeEquals
  by_contra absent
  have nothing : Cpp.entry line = none :=
    Cpp.entry_eq_none fun member => absent (Cpp.mem_of_mem_trim member)
  rw [nothing] at taken
  contradiction

theorem remainder_uncommented {space : Symbol → Bool} (uncommented : hash ∉ back) :
    remainder space back = back.rdropWhile space := by
  refine List.takeWhile_eq_self_iff.mpr fun s member => decide_eq_true ?_
  rintro rfl
  exact uncommented ((List.rdropWhile_prefix _ _).subset member)

/-- Nothing stands behind the value that some of the readers pass over. -/
theorem rest_of_read
    (cpp : Cpp.unquote (Cpp.trim ((Cpp.cString back).rdropWhile Cpp.ending)) = some value)
    (single : equals ∉ remainder rustSpace back)
    (rust : trim quote (trim rustSpace (remainder rustSpace back)) = value) :
    nul ∉ back ∧ hash ∉ back ∧ equals ∉ back := by
  have uncommentedValue : hash ∉ value := by
    rw [← rust]
    intro member
    have inside := mem_of_mem_trim (mem_of_mem_trim member)
    simpa using List.mem_takeWhile_imp inside
  have sub : ∀ s ∈ value, s ∈ Cpp.cString back := by
    intro s member
    apply (List.rdropWhile_prefix Cpp.ending _).subset
    apply Cpp.mem_of_mem_trim
    rcases Cpp.unquote_some cpp with same | same | same <;> rw [same] <;> simp [member]
  have uncommented : hash ∉ Cpp.cString back := by
    intro member
    have inside := Cpp.mem_trim (by decide : Cpp.ending hash = false)
      (mem_rdropWhile (p := Cpp.ending) (by decide) member)
    rcases Cpp.unquote_some cpp with same | same | same <;> rw [same] at inside
    · exact uncommentedValue inside
    · simp [hash] at inside
      exact uncommentedValue inside
    · simp [hash] at inside
      exact uncommentedValue inside
  have clean : nul ∉ back := by
    intro member
    have inside : nul ∈ remainder rustSpace back := by
      obtain ⟨before, after, rfl, absent⟩ := List.eq_append_cons_of_mem member
      have prefix_ : before <+: Cpp.cString (before ++ nul :: after) := by
        have solid : ∀ s ∈ before, decide (s ≠ nul) = true :=
          fun s inside => decide_eq_true (ne_of_mem_of_not_mem inside absent)
        rw [Cpp.cString, List.takeWhile_append_of_pos solid]
        exact List.prefix_append _ _
      rw [remainder, rdropWhile_append_cons (by decide),
        beforeHash_append (fun listed => uncommented (prefix_.subset listed)) _ (by decide)]
      exact List.mem_append_right _ (List.mem_cons_self ..)
    have read : nul ∈ value := by
      rw [← rust]
      exact mem_trim (by decide) (mem_trim (by decide) inside)
    have earlier := List.mem_takeWhile_imp (sub nul read)
    simp at earlier
  rw [Cpp.cString_of_not_mem clean] at uncommented
  rw [remainder_uncommented uncommented] at single
  exact ⟨clean, uncommented, fun member => single (mem_rdropWhile (by decide) member)⟩

theorem rdropWhile_ne_nil (nonempty : Cpp.trim (back.rdropWhile Cpp.ending) ≠ []) :
    back.rdropWhile Cpp.ending ≠ [] := by
  intro empty
  rw [empty] at nonempty
  exact nonempty rfl

theorem trim_remainder {space : Symbol → Bool} (uncommented : hash ∉ back) :
    trim space (remainder space back) = trim space back := by
  rw [remainder_uncommented uncommented, trim_rdropWhile fun _ => id]

theorem not_mem_remainder {space : Symbol → Bool} (single : equals ∉ back) :
    equals ∉ remainder space back :=
  fun member => single ((List.rdropWhile_prefix _ _).subset ((List.takeWhile_prefix _).subset member))

theorem Bare.ne_nil (bare : Bare back raw) (nonempty : raw ≠ []) :
    back.rdropWhile Cpp.ending ≠ [] := by
  intro empty
  apply nonempty
  rw [← bare.rust, ← trim_rdropWhile (fun s ends => (Cpp.space_of_ending s ends).2.2) back, empty]
  rfl

/-- What the readers take alike is plain. -/
theorem plain_of_all (formed : Rust.wellFormed content = true)
    (decoded : line.map TypeScript.decode = line)
    (all : ∀ reader, entryOf content reader line = some (key, value)) : Plain line key value := by
  have cpp := all .cpp
  have js := all .typeScript
  have lua := all .lua
  have rust := all .rust
  simp only [entryOf, formed, decoded, if_true] at cpp js lua rust
  obtain ⟨present, uncommentedKey⟩ := TypeScript.uncommented_of_entry js
  have cleanKey := Cpp.clean_of_entry cpp
  obtain ⟨front, back, rfl, keyEnds⟩ := List.eq_append_cons_of_mem present
  rw [beforeEquals_append keyEnds] at uncommentedKey cleanKey
  have started := head_ne_hash (not_mem_dropWhile (p := Cpp.blank) uncommentedKey)
  rw [Cpp.entry_append keyEnds started cleanKey, Option.ite_none_left_eq_some] at cpp
  rw [TypeScript.entry_append keyEnds uncommentedKey, Option.ite_none_left_eq_some] at js
  rw [Lua.entry_append keyEnds uncommentedKey] at lua
  rw [Rust.entry_append keyEnds uncommentedKey, Option.ite_none_left_eq_some] at rust
  obtain ⟨solid, cpp⟩ := cpp
  obtain ⟨keyNonempty, rawNonempty⟩ := not_or.mp solid
  obtain ⟨taken, unquoted, same⟩ := Option.map_eq_some_iff.mp cpp
  obtain ⟨cppKey, rfl⟩ := Prod.mk.inj same
  obtain ⟨jsKey, jsValue⟩ := Prod.mk.inj (Option.some.inj js.2)
  obtain ⟨luaKey, luaValue⟩ := Prod.mk.inj (Option.some.inj lua)
  obtain ⟨rustKey, rustValue⟩ := Prod.mk.inj (Option.some.inj rust.2)
  obtain ⟨clean, uncommented, single⟩ := rest_of_read unquoted rust.1 rustValue
  rw [Cpp.cString_of_not_mem clean] at unquoted rawNonempty
  rw [Cpp.trim_rdropWhile (rdropWhile_ne_nil rawNonempty)] at unquoted rawNonempty
  rw [beforeEquals_of_not_mem (not_mem_remainder single), trim_remainder uncommented,
    ← Cpp.trim_trim fun s ends => (Cpp.space_of_ending s ends).1] at jsValue
  rw [trim_remainder uncommented, ← Cpp.trim_trim fun s ends =>
    (Cpp.space_of_ending s ends).2.1] at luaValue
  rw [trim_remainder uncommented, ← Cpp.trim_trim fun s ends =>
    (Cpp.space_of_ending s ends).2.2] at rustValue
  obtain ⟨written, jsWhole, luaWhole, rustWhole⟩ :=
    written_of_read unquoted jsValue luaValue rustValue
  rw [Cpp.trim_trim fun s ends => (Cpp.space_of_ending s ends).1] at jsWhole
  rw [Cpp.trim_trim fun s ends => (Cpp.space_of_ending s ends).2.1] at luaWhole
  rw [Cpp.trim_trim fun s ends => (Cpp.space_of_ending s ends).2.2] at rustWhole
  constructor
  · exact List.mem_append_right _ (List.mem_cons_self ..)
  · rwa [afterEquals_append keyEnds]
  · exact fun inside => (List.mem_append.mp inside).elim uncommentedKey
      fun later => (List.mem_cons.mp later).elim (by decide) uncommented
  · exact fun inside => (List.mem_append.mp inside).elim cleanKey
      fun later => (List.mem_cons.mp later).elim (by decide) clean
  · rw [beforeEquals_append keyEnds]
    exact ⟨⟨cppKey, jsKey, luaKey, rustKey⟩, cppKey ▸ keyNonempty⟩
  · rw [afterEquals_append keyEnds]
    exact ⟨_, ⟨rfl, jsWhole, luaWhole, rustWhole⟩, rawNonempty, written⟩

theorem Plain.all (plain : Plain line key value) (formed : Rust.wellFormed content = true)
    (decoded : line.map TypeScript.decode = line) (reader : Reader) :
    entryOf content reader line = some (key, value) := by
  obtain ⟨front, back, rfl, keyEnds⟩ := List.eq_append_cons_of_mem plain.separator
  obtain ⟨separator, single, uncommented, clean, ⟨named, keyNonempty⟩, raw, valued, rawNonempty,
    written⟩ := plain
  rw [afterEquals_append keyEnds] at single valued
  rw [beforeEquals_append keyEnds] at named
  rw [List.mem_append, List.mem_cons, not_or, not_or] at uncommented clean
  obtain ⟨uncommentedKey, -, uncommented⟩ := uncommented
  obtain ⟨cleanKey, -, clean⟩ := clean
  cases reader with
  | cpp =>
    have started := head_ne_hash (not_mem_dropWhile (p := Cpp.blank) uncommentedKey)
    rw [entryOf, Cpp.entry_append keyEnds started cleanKey, Cpp.cString_of_not_mem clean,
      Cpp.trim_rdropWhile (valued.ne_nil rawNonempty), named.cpp, valued.cpp,
      if_neg (not_or.mpr ⟨keyNonempty, rawNonempty⟩), Cpp.unquote_written written]
    rfl
  | typeScript =>
    rw [entryOf, decoded, TypeScript.entry_append keyEnds uncommentedKey, named.typeScript,
      if_neg keyNonempty, beforeEquals_of_not_mem (not_mem_remainder single),
      trim_remainder uncommented, valued.typeScript, written.stripQuotes]
  | lua =>
    rw [entryOf, Lua.entry_append keyEnds uncommentedKey, named.lua, trim_remainder uncommented,
      valued.lua, written.stripQuotes]
  | rust =>
    rw [entryOf, if_pos formed, Rust.entry_append keyEnds uncommentedKey,
      if_neg (not_mem_remainder single), named.rust, trim_remainder uncommented, valued.rust,
      written.trim]

/-- All four readers take the same from a plain line of a file in UTF-8, and from no
other line. -/
theorem all_take_iff (member : line ∈ content.splitOn newline) :
    (∀ reader, entryOf content reader line = some (key, value)) ↔
      Plain line key value ∧ Rust.wellFormed content = true := by
  constructor
  · intro all
    have formed : Rust.wellFormed content = true := by
      by_contra broken
      have rust := all .rust
      rw [entryOf, if_neg broken] at rust
      contradiction
    exact ⟨plain_of_all formed (map_decode_of_wellFormed formed member) all, formed⟩
  · rintro ⟨plain, formed⟩ reader
    exact plain.all formed (map_decode_of_wellFormed formed member) reader

end Gearsdk.ServerInfoReader
