import Gearsdk.ServerInfoReader.Plain

/-! When the four readers of a configuration file agree. Each keeps the last value of
a key, so that they agree on a key whose last line is plain. A last line that is not
plain parts them, though those that pass over it may have the same from earlier ones. -/
namespace Gearsdk.ServerInfoReader
open Trim

/-! ### The lines with a key -/

/-- A quote at the beginning has its partner at the end, and no other quote follows
it. One quote alone counts as its own partner. -/
inductive Cpp.Paired : Text → Prop where
  | bare {raw : Text} (closed : opens raw = false) : Paired raw
  | alone (q : Char) (isQuote : q = '"' ∨ q = '\'') : Paired [.char q]
  | quoted {value : Text} (q : Char) (isQuote : q = '"' ∨ q = '\'') (closed : opens value = false) :
      Paired (.char q :: value ++ [.char q])

/-- The line has the key for a reader: the text before the first `=` is the key but
for white space, and nothing keeps the reader from taking a value. -/
inductive Has (line key : Text) : Reader → Prop where
  | cpp (separator : equals ∈ line) (clean : nul ∉ beforeEquals line)
      (started : ((beforeEquals line).dropWhile Cpp.blank).head? ≠ some hash)
      (named : Cpp.trim (beforeEquals line) = key) (nonempty : key ≠ [])
      (filled : Cpp.trim ((Cpp.cString (afterEquals line)).rdropWhile Cpp.ending) ≠ [])
      (paired : Cpp.Paired (Cpp.trim ((Cpp.cString (afterEquals line)).rdropWhile Cpp.ending))) :
      Has line key .cpp
  | typeScript (separator : equals ∈ line) (uncommented : hash ∉ beforeEquals line)
      (named : trim jsSpace (beforeEquals line) = key) (nonempty : key ≠ []) :
      Has line key .typeScript
  | lua (separator : equals ∈ line) (uncommented : hash ∉ beforeEquals line)
      (named : trim luaSpace (beforeEquals line) = key) :
      Has line key .lua
  | rust (separator : equals ∈ line) (uncommented : hash ∉ beforeEquals line)
      (named : trim rustSpace (beforeEquals line) = key)
      (single : equals ∉ beforeHash (afterEquals line)) :
      Has line key .rust

variable {content line front back key value raw : Text} {reader : Reader}

/-- The key is the text before the first `=`, as one reader or another trims it. -/
theorem Has.named (has : Has line key reader) :
    key ∈ [Cpp.trim (beforeEquals line), trim jsSpace (beforeEquals line),
      trim luaSpace (beforeEquals line), trim rustSpace (beforeEquals line)] := by
  cases has with
  | cpp _ _ _ named | typeScript _ _ named | lua _ _ named | rust _ _ named =>
    subst named
    simp only [List.mem_cons, true_or, or_true]

/-- A quote that begins a text of one character is that character. -/
theorem Cpp.alone_of_opens (opened : opens raw = true) (short : raw.length < 2) :
    ∃ q : Char, (q = '"' ∨ q = '\'') ∧ raw = [.char q] := by
  have head : raw.head? = some (.char '"') ∨ raw.head? = some (.char '\'') := by
    simpa [opens] using opened
  cases raw with
  | nil => simp at head
  | cons first rest =>
    rw [List.length_cons] at short
    obtain rfl : rest = [] := List.length_eq_zero_iff.mp (by omega)
    rcases head with same | same
    · cases Option.some.inj same
      exact ⟨_, .inl rfl, rfl⟩
    · cases Option.some.inj same
      exact ⟨_, .inr rfl, rfl⟩

theorem Cpp.paired_of_unquote (unquoted : Cpp.unquote raw = some value) : Paired raw := by
  simp only [unquote] at unquoted
  split at unquoted
  · rename_i pair
    obtain ⟨long, quoted⟩ := pair
    split at unquoted
    · contradiction
    · rename_i closed
      rw [Bool.not_eq_true] at closed
      rcases Bool.or_eq_true_iff.mp quoted with double | single
      · rw [quotedBy_eq long double]
        exact .quoted _ (.inl rfl) closed
      · rw [quotedBy_eq long single]
        exact .quoted _ (.inr rfl) closed
  · rename_i unpaired
    split at unquoted
    · contradiction
    · rename_i unopened
      by_cases opened : opens raw = true
      · have quoted : (quotedBy '"' raw || quotedBy '\'' raw) = true := by
          by_contra single
          exact unopened (by simp [opened, Bool.eq_false_iff.mpr single])
        have short : raw.length < 2 := by
          by_contra long
          exact unpaired ⟨Nat.le_of_not_lt long, quoted⟩
        obtain ⟨q, isQuote, rfl⟩ := alone_of_opens opened short
        exact .alone q isQuote
      · exact .bare (Bool.eq_false_iff.mpr opened)

theorem Cpp.paired_iff : (∃ value, Cpp.unquote raw = some value) ↔ Paired raw := by
  constructor
  · rintro ⟨value, unquoted⟩
    exact paired_of_unquote unquoted
  · intro paired
    cases paired with
    | bare closed => exact ⟨raw, unquote_bare closed⟩
    | alone q isQuote =>
      refine ⟨[.char q], ?_⟩
      rcases isQuote with rfl | rfl <;> rfl
    | @quoted value q isQuote closed => exact ⟨value, unquote_quoted isQuote closed⟩

theorem Cpp.separator_of_entry (taken : Cpp.entry line = some pair) :
    equals ∈ Cpp.cString line := by
  by_contra absent
  rw [Cpp.entry_eq_none fun member => absent (Cpp.mem_of_mem_trim member)] at taken
  contradiction

theorem Cpp.started_of_entry (clean : nul ∉ front)
    (taken : Cpp.entry (front ++ equals :: back) = some pair) :
    (front.dropWhile blank).head? ≠ some hash := by
  intro same
  have head : (Cpp.trim (Cpp.cString (front ++ equals :: back))).head? = some hash := by
    rw [cString_append_equals clean, trim_append_equals, List.head?_append, same, Option.some_or]
  simp only [Cpp.entry, head, or_true, if_true, reduceCtorEq] at taken

theorem Cpp.takes_iff : (∃ value, Cpp.entry line = some (key, value)) ↔ Has line key .cpp := by
  constructor
  · rintro ⟨value, taken⟩
    have present := (List.takeWhile_prefix _).subset (Cpp.separator_of_entry taken)
    have clean := Cpp.clean_of_entry taken
    obtain ⟨front, back, rfl, keyEnds⟩ := List.eq_append_cons_of_mem present
    have key_ : beforeEquals (front ++ equals :: back) = front := beforeEquals_append keyEnds back
    have value_ : afterEquals (front ++ equals :: back) = back := afterEquals_append keyEnds back
    rw [key_] at clean
    have started := Cpp.started_of_entry clean taken
    rw [Cpp.entry_append keyEnds started clean, Option.ite_none_left_eq_some] at taken
    obtain ⟨solid, taken⟩ := taken
    obtain ⟨keyNonempty, rawNonempty⟩ := not_or.mp solid
    obtain ⟨inner, unquoted, same⟩ := Option.map_eq_some_iff.mp taken
    obtain ⟨rfl, -⟩ := Prod.mk.inj same
    have paired := Cpp.paired_iff.mp ⟨inner, unquoted⟩
    exact .cpp present (key_.symm ▸ clean) (key_.symm ▸ started) (by rw [key_]) keyNonempty
      (value_.symm ▸ rawNonempty) (value_.symm ▸ paired)
  · rintro ⟨present, clean, started, rfl, keyNonempty, rawNonempty, paired⟩
    obtain ⟨inner, unquoted⟩ := Cpp.paired_iff.mpr paired
    refine ⟨inner, ?_⟩
    conv_lhs => rw [split_equals present]
    rw [Cpp.entry_append (equals_not_mem_beforeEquals line) started clean,
      if_neg (not_or.mpr ⟨keyNonempty, rawNonempty⟩), unquoted]
    rfl

theorem TypeScript.takes_iff :
    (∃ value, TypeScript.entry line = some (key, value)) ↔ Has line key .typeScript := by
  constructor
  · rintro ⟨value, taken⟩
    obtain ⟨present, uncommented⟩ := TypeScript.uncommented_of_entry taken
    rw [split_equals present, TypeScript.entry_append (equals_not_mem_beforeEquals line) uncommented,
      Option.ite_none_left_eq_some] at taken
    obtain ⟨named, -⟩ := Prod.mk.inj (Option.some.inj taken.2)
    exact .typeScript present uncommented named (named ▸ taken.1)
  · rintro ⟨⟩
    rename_i present uncommented named nonempty
    have taken := TypeScript.entry_append (equals_not_mem_beforeEquals line) uncommented
      (afterEquals line)
    rw [← split_equals present, named, if_neg nonempty] at taken
    exact ⟨_, taken⟩

theorem Lua.uncommented_of_entry (taken : Lua.entry line = some pair) :
    equals ∈ line ∧ hash ∉ beforeEquals line := by
  simp only [Lua.entry] at taken
  split at taken
  · contradiction
  · split at taken
    · rename_i present
      exact uncommented_of_mem (by decide) (by decide) (mem_of_mem_trim present)
    · contradiction

theorem Lua.takes_iff : (∃ value, Lua.entry line = some (key, value)) ↔ Has line key .lua := by
  constructor
  · rintro ⟨value, taken⟩
    obtain ⟨present, uncommented⟩ := Lua.uncommented_of_entry taken
    rw [split_equals present, Lua.entry_append (equals_not_mem_beforeEquals line) uncommented] at taken
    exact .lua present uncommented (Prod.mk.inj (Option.some.inj taken)).1
  · rintro ⟨⟩
    rename_i present uncommented named
    have taken := Lua.entry_append (equals_not_mem_beforeEquals line) uncommented (afterEquals line)
    rw [← split_equals present, named] at taken
    exact ⟨_, taken⟩

theorem Rust.uncommented_of_entry (taken : Rust.entry line = some pair) :
    equals ∈ line ∧ hash ∉ beforeEquals line := by
  simp only [Rust.entry] at taken
  split at taken
  · contradiction
  · rcases splitOn_equals (beforeHash (trim rustSpace line)) with ⟨_, split⟩ | ⟨present, _⟩
    · rw [split] at taken
      contradiction
    · exact uncommented_of_mem (by decide) (by decide) present

/-- White space at the end of a line does not hide a `=`. -/
theorem equals_mem_remainder {space : Symbol → Bool} (solid : space equals = false) :
    equals ∈ remainder space back ↔ equals ∈ beforeHash back := by
  constructor
  · intro member
    obtain ⟨blanks, whole⟩ := List.rdropWhile_prefix space back
    rw [beforeHash, ← whole, List.takeWhile_append]
    split
    · exact List.mem_append_left _ ((List.takeWhile_prefix _).subset member)
    · exact member
  · intro member
    have present := (List.takeWhile_prefix _).subset member
    have uncommented := not_mem_beforeEquals member
    obtain ⟨before, after, rfl, absent⟩ := List.eq_append_cons_of_mem present
    rw [beforeEquals_append absent] at uncommented
    rw [remainder, rdropWhile_append_cons solid, beforeHash_append uncommented _ (by decide)]
    exact List.mem_append_right _ (List.mem_cons_self ..)

theorem Rust.takes_iff : (∃ value, Rust.entry line = some (key, value)) ↔ Has line key .rust := by
  constructor
  · rintro ⟨value, taken⟩
    obtain ⟨present, uncommented⟩ := Rust.uncommented_of_entry taken
    rw [split_equals present, Rust.entry_append (equals_not_mem_beforeEquals line) uncommented,
      Option.ite_none_left_eq_some, equals_mem_remainder (by decide)] at taken
    exact .rust present uncommented (Prod.mk.inj (Option.some.inj taken.2)).1 taken.1
  · rintro ⟨⟩
    rename_i present uncommented named single
    have taken := Rust.entry_append (equals_not_mem_beforeEquals line) uncommented (afterEquals line)
    have alone : equals ∉ remainder rustSpace (afterEquals line) :=
      fun member => single ((equals_mem_remainder (by decide)).mp member)
    rw [← split_equals present, named, if_neg alone] at taken
    exact ⟨_, taken⟩

/-- A reader takes a value of the key from the lines that have it. -/
theorem takes_iff (formed : Rust.wellFormed content = true)
    (member : line ∈ content.splitOn newline) :
    (∃ value, entryOf content reader line = some (key, value)) ↔ Has line key reader := by
  cases reader with
  | cpp => exact Cpp.takes_iff
  | typeScript =>
    simp only [entryOf, map_decode_of_wellFormed formed member]
    exact TypeScript.takes_iff
  | lua => exact Lua.takes_iff
  | rust =>
    simp only [entryOf, formed, if_true]
    exact Rust.takes_iff

/-! ### The last line of a key -/

/-- The reader takes no value of the key from any of the lines. -/
def Silent (content : Text) (reader : Reader) (key : Text) (lines : List Text) : Prop :=
  ∀ line ∈ lines, ∀ value, entryOf content reader line ≠ some (key, value)

variable {lines before after : List Text}

theorem load_silent (silent : Silent content reader key after) (before : List Text) :
    load (entryOf content reader) (before ++ after) key = load (entryOf content reader) before key := by
  induction after using List.reverseRecOn with
  | nil => rw [List.append_nil]
  | append_singleton after line ih =>
    have quiet := silent line (List.mem_append_right _ (List.mem_singleton_self _))
    rw [← List.append_assoc, load_append,
      ih fun l member => silent l (List.mem_append_left _ member)]
    cases taken : entryOf content reader line with
    | none => rfl
    | some pair => exact if_neg fun same : key = pair.1 => quiet pair.2 (by rw [taken, same])

theorem load_taken (taken : entryOf content reader line = some (key, value))
    (silent : Silent content reader key after) (before : List Text) :
    load (entryOf content reader) (before ++ line :: after) key = some value := by
  rw [List.append_cons, load_silent silent, load_append, taken]
  exact if_pos rfl

theorem load_none (silent : Silent content reader key lines) :
    load (entryOf content reader) lines key = none :=
  load_silent silent []

/-- All readers return the same. The readers whose keys are C strings can be asked for
no others. -/
def Agree (content : Text) : Prop :=
  ∀ key, nul ∉ key → ∀ reader other : Reader,
    reader.loadConfig content key = other.loadConfig content key

/-- A line that is read alike: it is plain, and the file is UTF-8. -/
def Alike (content line key : Text) : Prop :=
  (∃ value, Plain line key value) ∧ Rust.wellFormed content = true

/-- The last line that has a key, for one reader or another, is read alike. -/
def LastAlike (content : Text) : Prop :=
  ∀ key, nul ∉ key → ∀ before line after, content.splitOn newline = before ++ line :: after →
    (∃ reader, Has line key reader) → (∀ later ∈ after, ∀ reader, ¬ Has later key reader) →
    Alike content line key

/-- Some reader passes over the line and has the key on an earlier one. -/
def Covered (before : List Text) (line key : Text) : Prop :=
  ∃ reader, ¬ Has line key reader ∧ ∃ earlier ∈ before, Has earlier key reader

/-- The last line that has a key is read alike unless an earlier line covers it. -/
def UncoveredAlike (content : Text) : Prop :=
  ∀ key, nul ∉ key → ∀ before line after, content.splitOn newline = before ++ line :: after →
    (∃ reader, Has line key reader) → (∀ later ∈ after, ∀ reader, ¬ Has later key reader) →
    ¬ Covered before line key → Alike content line key

/-- From lines that have no key for it a reader takes no value. -/
theorem silent_of_none (formed : Rust.wellFormed content = true)
    (inside : lines ⊆ content.splitOn newline) (none : ∀ line ∈ lines, ¬ Has line key reader) :
    Silent content reader key lines :=
  fun line member value taken =>
    none line member ((takes_iff formed (inside member)).mp ⟨value, taken⟩)

theorem load_ne_none (member : line ∈ lines)
    (taken : entryOf content reader line = some (key, value)) :
    load (entryOf content reader) lines key ≠ none := by
  rcases last_or_none (fun line => ∃ value, entryOf content reader line = some (key, value)) lines with
    none | ⟨before, last, after, rfl, ⟨own, here⟩, later⟩
  · exact absurd ⟨value, taken⟩ (none line member)
  · rw [load_taken here fun line member value taken => later line member ⟨value, taken⟩]
    exact Option.some_ne_none own

/-- The two readers that do not mind what the bytes of a file encode. -/
def Raw (line key : Text) : Prop := Has line key .cpp ∨ Has line key .lua

/-- What another reader takes, the Lua reader takes under a key of its own. -/
theorem raw_of_parts (present : equals ∈ line) (uncommented : hash ∉ beforeEquals line)
    (clean : nul ∉ beforeEquals line) : ∃ other, nul ∉ other ∧ Raw line other :=
  ⟨_, fun member => clean (mem_of_mem_trim member), .inr (.lua present uncommented rfl)⟩

theorem Has.undecoded (has : Has line key reader) (clean : nul ∉ key) :
    ∃ other, nul ∉ other ∧ Raw line other := by
  cases has with
  | cpp present cleanKey started named nonempty filled paired =>
    exact ⟨key, clean, .inl (.cpp present cleanKey started named nonempty filled paired)⟩
  | typeScript present uncommented named =>
    exact raw_of_parts present uncommented fun member => clean (named ▸ mem_trim (by decide) member)
  | lua present uncommented named => exact ⟨key, clean, .inr (.lua present uncommented named)⟩
  | rust present uncommented named =>
    exact raw_of_parts present uncommented fun member => clean (named ▸ mem_trim (by decide) member)

theorem TypeScript.mem_map_decode {c : Char} (valid : c ≠ Char.ofNat 0xFFFD) (line : Text) :
    Symbol.char c ∈ line.map decode ↔ Symbol.char c ∈ line := by
  rw [List.mem_map]
  constructor
  · rintro ⟨s, member, same⟩
    cases s with
    | char => exact same ▸ member
    | ill => exact absurd (Symbol.char.inj same).symm valid
  · exact fun member => ⟨_, member, rfl⟩

theorem TypeScript.beforeEquals_map_decode (line : Text) :
    beforeEquals (line.map decode) = (beforeEquals line).map decode := by
  rw [beforeEquals, List.takeWhile_map]
  refine congrArg (List.map decode) (congrArg (List.takeWhile · line) (funext fun s => ?_))
  cases s with
  | char => rfl
  | ill => simp [decode, equals]

/-- From a line from which any reader takes something, one of the two does. -/
theorem raw_of_taken (taken : entryOf content reader line = some (key, value)) (clean : nul ∉ key) :
    ∃ other, nul ∉ other ∧ Raw line other := by
  cases reader with
  | cpp => exact (Cpp.takes_iff.mp ⟨value, taken⟩).undecoded clean
  | lua => exact (Lua.takes_iff.mp ⟨value, taken⟩).undecoded clean
  | rust =>
    simp only [entryOf, Option.ite_none_right_eq_some] at taken
    exact (Rust.takes_iff.mp ⟨value, taken.2⟩).undecoded clean
  | typeScript =>
    cases TypeScript.takes_iff.mp ⟨value, taken⟩ with
    | typeScript present uncommented named =>
      rw [TypeScript.beforeEquals_map_decode] at uncommented named
      refine raw_of_parts ((TypeScript.mem_map_decode (by decide) line).mp present)
        (fun member => uncommented ?_) fun member => clean (named ▸ mem_trim (by decide) ?_)
      · exact (TypeScript.mem_map_decode (by decide) _).mpr member
      · exact (TypeScript.mem_map_decode (by decide) _).mpr member

theorem agree_of_last (last : LastAlike content) : Agree content := by
  intro key clean reader other
  rw [loadConfig_eq, loadConfig_eq]
  by_cases formed : Rust.wellFormed content = true
  · rcases last_or_none (fun line => ∃ reader, Has line key reader) (content.splitOn newline) with
      none | ⟨before, line, after, split, has, later⟩
    · have lone : ∀ line ∈ content.splitOn newline, ∀ reader, ¬ Has line key reader :=
        fun line member reader has => none line member ⟨reader, has⟩
      have silent (reader : Reader) : Silent content reader key (content.splitOn newline) :=
        silent_of_none formed (List.Subset.refl _) fun l member => lone l member reader
      rw [load_none (silent reader), load_none (silent other)]
    · have lone : ∀ later ∈ after, ∀ reader, ¬ Has later key reader :=
        fun line member reader has => later line member ⟨reader, has⟩
      have member : line ∈ content.splitOn newline :=
        split ▸ List.mem_append_right _ (List.mem_cons_self ..)
      have inside : after ⊆ content.splitOn newline :=
        fun l member => split ▸ List.mem_append_right _ (List.mem_cons_of_mem _ member)
      have silent (reader : Reader) : Silent content reader key after :=
        silent_of_none formed inside fun l member => lone l member reader
      obtain ⟨⟨value, plain⟩, formed⟩ := last key clean before line after split has lone
      have all := (all_take_iff member).mpr ⟨plain, formed⟩
      rw [split, load_taken (all reader) (silent reader), load_taken (all other) (silent other)]
  · -- no line has a key, so that nobody reads anything
    have silent (reader : Reader) : Silent content reader key (content.splitOn newline) := by
      intro line member value taken
      obtain ⟨own, cleanOwn, raw⟩ := raw_of_taken taken clean
      have has : ∃ reader, Has line own reader := raw.elim (⟨.cpp, ·⟩) (⟨.lua, ·⟩)
      rcases last_or_none (fun line => ∃ reader, Has line own reader) (content.splitOn newline) with
        none | ⟨before, line, after, split, has, later⟩
      · exact none line member has
      · have lone : ∀ later ∈ after, ∀ reader, ¬ Has later own reader :=
          fun line member reader has => later line member ⟨reader, has⟩
        exact formed (last own cleanOwn before line after split has lone).2
    rw [load_none (silent reader), load_none (silent other)]

/-- A file from which anything is read is UTF-8 if the readers agree. -/
theorem Agree.formed (agree : Agree content) (member : line ∈ content.splitOn newline)
    (has : Has line key reader) (clean : nul ∉ key) : Rust.wellFormed content = true := by
  by_contra broken
  obtain ⟨own, cleanOwn, raw⟩ := has.undecoded clean
  have nothing : Silent content .rust own (content.splitOn newline) := by
    intro line member value taken
    simp only [entryOf, if_neg broken, reduceCtorEq] at taken
  have something : ∃ reader, load (entryOf content reader) (content.splitOn newline) own ≠
      none := by
    rcases raw with has | has
    · obtain ⟨value, taken⟩ := Cpp.takes_iff.mpr has
      exact ⟨.cpp, load_ne_none member taken⟩
    · obtain ⟨value, taken⟩ := Lua.takes_iff.mpr has
      exact ⟨.lua, load_ne_none member taken⟩
  obtain ⟨reader, loaded⟩ := something
  have same := agree own cleanOwn reader .rust
  rw [loadConfig_eq, loadConfig_eq, load_none nothing] at same
  exact loaded same

theorem uncovered_of_agree (agree : Agree content) : UncoveredAlike content := by
  rintro key clean before line after split ⟨taker, has⟩ later uncovered
  have member : line ∈ content.splitOn newline :=
    split ▸ List.mem_append_right _ (List.mem_cons_self ..)
  have formed := agree.formed member has clean
  obtain ⟨value, taken⟩ := (takes_iff formed member).mpr has
  have earlier : before ⊆ content.splitOn newline :=
    fun l member => split ▸ List.mem_append_left _ member
  have rest : after ⊆ content.splitOn newline :=
    fun l member => split ▸ List.mem_append_right _ (List.mem_cons_of_mem _ member)
  have silentAfter (reader : Reader) : Silent content reader key after :=
    silent_of_none formed rest fun l member => later l member reader
  refine (all_take_iff member).mp (fun reader => ?_) |>.imp (fun plain => ⟨value, plain⟩) id
  have same := agree key clean reader taker
  rw [loadConfig_eq, loadConfig_eq, split, load_taken taken (silentAfter taker)] at same
  by_cases own : Has line key reader
  · obtain ⟨other, here⟩ := (takes_iff formed member).mpr own
    rw [load_taken here (silentAfter reader)] at same
    exact Option.some.inj same ▸ here
  · -- a reader that passes over the line has no other line to take the value from
    have silentBefore : Silent content reader key before :=
      silent_of_none formed earlier fun l member has => uncovered ⟨reader, own, l, member, has⟩
    have passed : Silent content reader key [line] := by
      intro l member' other here
      obtain rfl := List.mem_singleton.mp member'
      exact own ((takes_iff formed member).mp ⟨other, here⟩)
    rw [List.append_cons, load_silent (silentAfter reader), load_silent passed,
      load_none silentBefore] at same
    contradiction

/-- The readers agree on a file if the last line that has a key is always plain. They do
not if a last line is not plain and no reader that passes over it has an earlier one. -/
theorem plain_lines_agree (content : Text) :
    (LastAlike content → Agree content) ∧ (Agree content → UncoveredAlike content) :=
  ⟨agree_of_last, uncovered_of_agree⟩

theorem quoted_plain : Plain (text "key = 'c'") (text "key") (text "c") where
  separator := by decide +kernel
  single := by decide +kernel
  uncommented := by decide +kernel
  clean := by decide +kernel
  named := ⟨⟨by decide +kernel, by decide +kernel, by decide +kernel, by decide +kernel⟩,
    by decide +kernel⟩
  valued := ⟨text "'c'", ⟨by decide +kernel, by decide +kernel, by decide +kernel,
    by decide +kernel⟩, by decide +kernel, unquoted_iff.mpr (by decide +kernel), by decide +kernel⟩

/-- The first line of the key is read in different ways, its last line is plain. -/
theorem plain_lines_agree_repeated : Agree (text "key = a=b\nkey = 'c'") := by
  have lines : (text "key = a=b\nkey = 'c'").splitOn newline =
      [text "key = a=b", text "key = 'c'"] := by decide +kernel
  have named (line : Text) (inside : line ∈ [text "key = a=b", text "key = 'c'"]) (key : Text)
      (reader : Reader) (has : Has line key reader) : key = text "key" := by
    have names : [Cpp.trim (beforeEquals line), trim jsSpace (beforeEquals line),
        trim luaSpace (beforeEquals line), trim rustSpace (beforeEquals line)] =
        List.replicate 4 (text "key") := by
      rcases List.mem_pair.mp inside with rfl | rfl <;> decide +kernel
    exact List.eq_of_mem_replicate (names ▸ has.named)
  have last : Has (text "key = 'c'") (text "key") .lua :=
    .lua quoted_plain.separator (by decide +kernel) (by decide +kernel)
  refine (plain_lines_agree _).1 ?_
  rintro key - before line after split ⟨reader, has⟩ later
  rw [lines] at split
  have member : line ∈ [text "key = a=b", text "key = 'c'"] :=
    split ▸ List.mem_append_right _ (List.mem_cons_self ..)
  obtain rfl := named line member key reader has
  rcases List.cons_eq_append_iff.mp split with ⟨rfl, first⟩ | ⟨rest, rfl, second⟩
  · obtain ⟨-, rfl⟩ := List.cons.inj first
    exact absurd last (later _ (List.mem_singleton_self _) _)
  · rcases List.cons_eq_append_iff.mp second with ⟨rfl, here⟩ | ⟨more, rfl, nothing⟩
    · obtain ⟨rfl, -⟩ := List.cons.inj here
      exact ⟨⟨_, quoted_plain⟩, by decide +kernel⟩
    · simp at nothing

/-- The value of `key = a=b` is `a=b`, `a` or none. -/
theorem equals_in_value : ¬ ∀ content, Agree content := by
  intro agree
  have same := agree (text "key = a=b") (text "key") (by decide) .cpp .rust
  have taken : Cpp.loadConfig (text "key = a=b") (text "key") = some (text "a=b") := by
    decide +kernel
  have passed : Rust.loadConfig (text "key = a=b") (text "key") = none := by decide +kernel
  rw [Reader.loadConfig, Reader.loadConfig, taken, passed] at same
  contradiction

end Gearsdk.ServerInfoReader
