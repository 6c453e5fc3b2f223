import Gearsdk.ServerInfoReader

/-! What each of the four readers takes from a line. Wherever a reader breaks the
file into lines, and whatever it leaves of a line break, it enters a key and a value
from each line in turn. -/
namespace Gearsdk.ServerInfoReader
open Trim

variable {content line front back key value raw : Text} {reader : Reader}
variable {entry : Text → Option (Text × Text)}

/-! ### Line by line -/

/-- What a reader takes from a line of a file. -/
def entryOf (content : Text) : Reader → Text → Option (Text × Text)
  | .cpp, line => Cpp.entry line
  | .typeScript, line => TypeScript.entry (line.map TypeScript.decode)
  | .lua, line => Lua.entry line
  | .rust, line => if Rust.wellFormed content then Rust.entry line else none

theorem load_append (entry : Text → Option (Text × Text)) (lines : List Text) (line key : Text) :
    load entry (lines ++ [line]) key =
      match entry line with
      | some (own, value) => if key = own then some value else load entry lines key
      | none => load entry lines key := by
  rw [load, List.foldl_append, List.foldl_cons, List.foldl_nil, ← load]
  cases entry line with
  | none => rfl
  | some taken => rfl

theorem load_congr {other : Text → Option (Text × Text)} {lines : List Text}
    (same : ∀ line ∈ lines, entry line = other line) : load entry lines = load other lines := by
  induction lines using List.reverseRecOn with
  | nil => rfl
  | append_singleton lines line ih =>
    have earlier := ih fun l member => same l (List.mem_append_left _ member)
    funext key
    rw [load_append, load_append, earlier,
      same line (List.mem_append_right _ (List.mem_singleton_self _))]

theorem load_map (f : Text → Text) (lines : List Text) :
    load entry (lines.map f) = load (fun line => entry (f line)) lines := by
  rw [load, List.foldl_map]
  rfl

theorem load_snoc_nil (entry : Text → Option (Text × Text)) (empty : entry [] = none)
    (lines : List Text) :
    load entry (lines ++ [[]]) = load entry lines := by
  funext key
  rw [load_append, empty]

/-- The lines of a file up to the last one, which nothing may follow. -/
theorem split_lines (content : Text) : ∃ lines last, content.splitOn newline = lines ++ [last] := by
  obtain ⟨lines, last, split⟩ :=
    (List.eq_nil_or_concat _).resolve_left (List.splitOn_ne_nil newline content)
  exact ⟨lines, last, split.trans (List.concat_eq_append ..)⟩

/-- A reader that does not mind the line breaks reads the lines as they are. -/
theorem load_linesBy {f : Text → Text} (same : ∀ line, entry (f line) = entry line)
    (empty : entry [] = none) (content : Text) :
    load entry (linesBy f content) = load entry (content.splitOn newline) := by
  obtain ⟨lines, last, split⟩ := split_lines content
  have earlier : load entry (lines.map f) = load entry lines := by
    rw [load_map, load_congr fun line _ => same line]
  simp only [linesBy, split, List.dropLast_concat, List.getLast?_concat, Option.toList_some]
  by_cases final : last = []
  · rw [final, load_snoc_nil entry empty]
    simpa using earlier
  · have kept : [last].filter (· ≠ []) = [last] := by simp [final]
    rw [kept]
    funext key
    rw [load_append, load_append, earlier]

theorem mem_of_mem_splitOn {piece : Text} {s : Symbol} (member : piece ∈ content.splitOn newline)
    (inside : s ∈ piece) :
    s ∈ content := by
  induction content generalizing piece with
  | nil =>
    rw [List.splitOn_nil, List.mem_singleton] at member
    exact member ▸ inside
  | cons first rest ih =>
    rw [List.splitOn_cons_eq_if_modifyHead] at member
    split at member
    · rcases List.mem_cons.mp member with rfl | later
      · contradiction
      · exact List.mem_cons_of_mem _ (ih later inside)
    · obtain ⟨head, tail, split⟩ := List.exists_cons_of_ne_nil (List.splitOn_ne_nil newline rest)
      rw [split, List.modifyHead_cons] at member
      rcases List.mem_cons.mp member with rfl | later
      · rcases List.mem_cons.mp inside with rfl | deeper
        · exact List.mem_cons_self ..
        · exact List.mem_cons_of_mem _ (ih (split ▸ List.mem_cons_self ..) deeper)
      · exact List.mem_cons_of_mem _ (ih (split ▸ List.mem_cons_of_mem _ later) inside)

theorem splitOn_map_decode (content : Text) :
    (content.map TypeScript.decode).splitOn newline =
      (content.splitOn newline).map (List.map TypeScript.decode) := by
  induction content with
  | nil => rfl
  | cons first rest ih =>
    have break_ : (TypeScript.decode first == newline) = (first == newline) := by
      cases first with
      | char c => rfl
      | ill bytes => exact beq_eq_beq.mpr (by simp [TypeScript.decode, newline])
    rw [List.map_cons, List.splitOn_cons_eq_if_modifyHead, List.splitOn_cons_eq_if_modifyHead,
      break_, ih]
    obtain ⟨head, tail, split⟩ := List.exists_cons_of_ne_nil (List.splitOn_ne_nil newline rest)
    rw [split]
    split <;> rfl

/-! ### The ends of a line -/

/-- The carriage return at the end of a line is white space for every reader. -/
theorem trim_chomp {space : Symbol → Bool} (cr : space carriageReturn = true) (line : Text) :
    trim space (chomp line) = trim space line := by
  simp only [chomp]
  split
  · rename_i ends
    have whole : line = line.dropLast ++ [carriageReturn] :=
      (List.dropLast_append_getLast? carriageReturn ends).symm
    conv_rhs => rw [whole]
    exact (trim_append_right (by simpa using cr) _).symm
  · rfl

theorem Cpp.trim_newline (str : Text) :
    equals ∉ Cpp.trim (str ++ [newline]) ∧ equals ∉ Cpp.trim str ∨
    Cpp.trim (str ++ [newline]) = Cpp.trim str := by
  have solid : blank newline = false := by decide
  have ends : ending newline = true := by decide
  simp only [Cpp.trim]
  rw [Trim.dropWhile_append_cons solid]
  cases rest : str.dropWhile blank with
  | nil => exact .inl ⟨by decide, by decide⟩
  | cons first rest =>
    right
    simp only [List.cons_append]
    rw [Trim.rdropWhile_append_right (by simpa using ends)]

theorem Cpp.entry_eq_none (absent : equals ∉ Cpp.trim (Cpp.cString line)) :
    Cpp.entry line = none := by
  simp only [Cpp.entry, if_pos absent, ite_self]

theorem Cpp.cString_append (line : Text) (s : Symbol) (solid : s ≠ nul) :
    Cpp.cString (line ++ [s]) = Cpp.cString line ∨
      Cpp.cString (line ++ [s]) = Cpp.cString line ++ [s] := by
  simp only [Cpp.cString, List.takeWhile_append]
  split
  · rename_i clean
    right
    rw [List.takeWhile_cons_of_pos (by simpa using solid), List.takeWhile_nil]
    exact congrArg (· ++ [s]) ((List.takeWhile_prefix _).eq_of_length clean).symm
  · exact .inl rfl

theorem Cpp.entry_newline (line : Text) : Cpp.entry (line ++ [newline]) = Cpp.entry line := by
  rcases Cpp.cString_append line newline (by decide) with same | longer
  · simp only [Cpp.entry, same]
  · rcases Cpp.trim_newline (Cpp.cString line) with ⟨without, without'⟩ | same
    · rw [Cpp.entry_eq_none (longer ▸ without), Cpp.entry_eq_none without']
    · simp only [Cpp.entry, longer, same]

/-- Each reader enters what it takes from one line after the other. -/
theorem loadConfig_eq (reader : Reader) (content : Text) :
    reader.loadConfig content = load (entryOf content reader) (content.splitOn newline) := by
  cases reader with
  | cpp => exact load_linesBy Cpp.entry_newline rfl content
  | lua => exact load_linesBy (fun _ => rfl) rfl content
  | typeScript =>
    have same (line : Text) : TypeScript.entry (chomp line) = TypeScript.entry line := by
      simp only [TypeScript.entry, trim_chomp (by decide : jsSpace carriageReturn = true)]
    obtain ⟨lines, last, split⟩ := split_lines (content.map TypeScript.decode)
    have pieces : TypeScript.loadConfig content =
        load TypeScript.entry ((content.map TypeScript.decode).splitOn newline) := by
      simp only [TypeScript.loadConfig, split, List.dropLast_concat, List.getLast?_concat,
        Option.toList_some]
      funext key
      rw [load_append, load_append, load_map, load_congr fun line _ => same line]
    rw [Reader.loadConfig, pieces, splitOn_map_decode, load_map]
    rfl
  | rust =>
    have same (line : Text) : Rust.entry (chomp line) = Rust.entry line := by
      simp only [Rust.entry, trim_chomp (by decide : rustSpace carriageReturn = true)]
    rw [Reader.loadConfig, Rust.loadConfig, load_linesBy same rfl]
    cases formed : Rust.wellFormed content with
    | true => exact load_congr fun line _ => by simp [entryOf, formed]
    | false =>
      have nothing (lines : List Text) : load (entryOf content .rust) lines = fun _ => none := by
        have same : load (entryOf content .rust) lines = load (fun _ => none) lines :=
          load_congr fun line _ => by simp [entryOf, formed]
        rw [same, load, List.foldl_fixed]
      rw [nothing]
      rfl

/-! ### What each reader takes from a line with a key and a value -/

theorem beforeEquals_append (absent : equals ∉ front) (back : Text) :
    beforeEquals (front ++ equals :: back) = front := by
  have solid : ∀ s ∈ front, decide (s ≠ equals) = true :=
    fun s member => decide_eq_true (ne_of_mem_of_not_mem member absent)
  rw [beforeEquals, List.takeWhile_append_of_pos solid, List.takeWhile_cons_of_neg (by simp),
    List.append_nil]

theorem afterEquals_append (absent : equals ∉ front) (back : Text) :
    afterEquals (front ++ equals :: back) = back := by
  have solid : ∀ s ∈ front, decide (s ≠ equals) = true :=
    fun s member => decide_eq_true (ne_of_mem_of_not_mem member absent)
  rw [afterEquals, List.dropWhile_append_of_pos solid, List.dropWhile_cons_of_neg (by simp),
    List.tail_cons]

theorem beforeHash_append (absent : hash ∉ front) (s : Symbol) (solid : s ≠ hash) (back : Text) :
    beforeHash (front ++ s :: back) = front ++ s :: beforeHash back := by
  have clean : ∀ s ∈ front, decide (s ≠ hash) = true :=
    fun s member => decide_eq_true (ne_of_mem_of_not_mem member absent)
  rw [beforeHash, List.takeWhile_append_of_pos clean,
    List.takeWhile_cons_of_pos (by simpa using solid), beforeHash]

theorem equals_not_mem_beforeEquals (line : Text) : equals ∉ beforeEquals line := by
  intro member
  simpa using List.mem_takeWhile_imp member

theorem split_equals (present : equals ∈ line) :
    line = beforeEquals line ++ equals :: afterEquals line := by
  obtain ⟨front, back, rfl, absent⟩ := List.eq_append_cons_of_mem present
  rw [beforeEquals_append absent, afterEquals_append absent]

/-- Splitting at `=` gives one piece, or the text before the first `=` and others. -/
theorem splitOn_equals (line : Text) : equals ∉ line ∧ line.splitOn equals = [line] ∨
    equals ∈ line ∧ ∃ second rest, line.splitOn equals = beforeEquals line :: second :: rest := by
  by_cases present : equals ∈ line
  · obtain ⟨second, rest, split⟩ :=
      List.exists_cons_of_ne_nil (List.splitOn_ne_nil equals (afterEquals line))
    refine .inr ⟨present, second, rest, ?_⟩
    conv_lhs => rw [split_equals present]
    rw [List.splitOn_append_cons_self_of_not_mem (equals_not_mem_beforeEquals line), split]
  · exact .inl ⟨present, List.splitOn_eq_singleton present⟩

theorem beforeEquals_of_not_mem (absent : equals ∉ line) : beforeEquals line = line :=
  List.takeWhile_eq_self_iff.mpr fun _ member => decide_eq_true (ne_of_mem_of_not_mem member absent)

theorem Cpp.cString_of_not_mem (absent : nul ∉ line) : Cpp.cString line = line :=
  List.takeWhile_eq_self_iff.mpr fun _ member => decide_eq_true (ne_of_mem_of_not_mem member absent)

theorem not_mem_dropWhile {s : Symbol} {p : Symbol → Bool} (absent : s ∉ front) :
    s ∉ front.dropWhile p :=
  fun member => absent ((List.dropWhile_suffix p).subset member)

theorem head_ne_hash (absent : hash ∉ front) : front.head? ≠ some hash :=
  fun same => absent (List.mem_of_head? same)

theorem not_hash_head (started : front.head? ≠ some hash) (back : Text) :
    ¬ (front ++ equals :: back = [] ∨ (front ++ equals :: back).head? = some hash) := by
  cases front with
  | nil => simp [equals, hash]
  | cons first rest => simpa using started

/-- A line whose first `=` is before any `#`, for a reader that trims all white space. -/
theorem trimmed_line {space : Symbol → Bool} (solid : space equals = false) (front back : Text) :
    trim space (front ++ equals :: back) = front.dropWhile space ++
      equals :: back.rdropWhile space :=
  trim_append_cons solid front back

/-- The part of the line that is left of a comment after the first `=`. -/
def remainder (space : Symbol → Bool) (back : Text) : Text := beforeHash (back.rdropWhile space)

theorem TypeScript.entry_append (keyEnds : equals ∉ front) (uncommented : hash ∉ front)
    (back : Text) :
    TypeScript.entry (front ++ equals :: back) =
      if trim jsSpace front = [] then none
      else some (trim jsSpace front,
        stripQuotes (trim jsSpace (beforeEquals (remainder jsSpace back)))) := by
  have solid : jsSpace equals = false := by decide
  have first : ∃ rest, (remainder jsSpace back).splitOn equals =
      beforeEquals (remainder jsSpace back) :: rest := by
    rcases splitOn_equals (remainder jsSpace back) with ⟨absent, split⟩ | ⟨_, second, rest, split⟩
    · exact ⟨[], by rw [split, beforeEquals_of_not_mem absent]⟩
    · exact ⟨second :: rest, split⟩
  obtain ⟨rest, split⟩ := first
  simp only [TypeScript.entry]
  rw [trimmed_line solid, if_neg (not_hash_head (head_ne_hash (not_mem_dropWhile uncommented)) _),
    beforeHash_append (not_mem_dropWhile uncommented) _ (by decide),
    List.splitOn_append_cons_self_of_not_mem (not_mem_dropWhile keyEnds), ← remainder, split]
  simp only [trim_dropWhile (fun _ => id)]

theorem Lua.entry_append (keyEnds : equals ∉ front) (uncommented : hash ∉ front) (back : Text) :
    Lua.entry (front ++ equals :: back) =
      some (trim luaSpace front, stripQuotes (trim luaSpace (remainder luaSpace back))) := by
  have solid : luaSpace equals = false := by decide
  simp only [Lua.entry]
  rw [trimmed_line solid, if_neg (not_hash_head (head_ne_hash (not_mem_dropWhile uncommented)) _),
    beforeHash_append (not_mem_dropWhile uncommented) _ (by decide), ← remainder,
    trimmed_line solid, if_pos (List.mem_append_right _ (List.mem_cons_self ..)),
    beforeEquals_append (not_mem_dropWhile (not_mem_dropWhile keyEnds)),
    afterEquals_append (not_mem_dropWhile (not_mem_dropWhile keyEnds)), List.dropWhile_idempotent,
    dropWhile_rdropWhile]
  rfl

theorem Rust.entry_append (keyEnds : equals ∉ front) (uncommented : hash ∉ front) (back : Text) :
    Rust.entry (front ++ equals :: back) =
      if equals ∈ remainder rustSpace back then none
      else some (trim rustSpace front, trim quote (trim rustSpace (remainder rustSpace back))) := by
  have solid : rustSpace equals = false := by decide
  simp only [Rust.entry]
  rw [trimmed_line solid, if_neg (not_hash_head (head_ne_hash (not_mem_dropWhile uncommented)) _),
    beforeHash_append (not_mem_dropWhile uncommented) _ (by decide),
    List.splitOn_append_cons_self_of_not_mem (not_mem_dropWhile keyEnds), ← remainder]
  rcases splitOn_equals (remainder rustSpace back) with
    ⟨absent, split⟩ | ⟨present, second, rest, split⟩
  · rw [if_neg absent, split]
    simp only [trim_dropWhile (fun _ => id)]
  · rw [if_pos present, split]

theorem Cpp.cString_append_equals (clean : nul ∉ front) (back : Text) :
    Cpp.cString (front ++ equals :: back) = front ++ equals :: Cpp.cString back := by
  have solid : ∀ s ∈ front, decide (s ≠ nul) = true :=
    fun s member => decide_eq_true (ne_of_mem_of_not_mem member clean)
  rw [Cpp.cString, List.takeWhile_append_of_pos solid, List.takeWhile_cons_of_pos (by decide),
    Cpp.cString]

theorem Cpp.trim_append_equals (front back : Text) :
    Cpp.trim (front ++ equals :: back) = front.dropWhile blank ++
      equals :: back.rdropWhile ending := by
  have solid : blank equals = false := by decide
  have inner : ending equals = false := by decide
  simp only [Cpp.trim]
  rw [Trim.dropWhile_append_cons solid]
  cases front.dropWhile blank with
  | nil => rfl
  | cons first rest =>
    simp only [List.cons_append]
    rw [Trim.rdropWhile_append_cons inner]

theorem Cpp.trim_dropWhile (str : Text) : Cpp.trim (str.dropWhile blank) = Cpp.trim str := by
  simp only [Cpp.trim, List.dropWhile_idempotent]

theorem Cpp.entry_append (keyEnds : equals ∉ front)
    (started : (front.dropWhile blank).head? ≠ some hash) (clean : nul ∉ front) (back : Text) :
    Cpp.entry (front ++ equals :: back) =
      if Cpp.trim front = [] ∨ Cpp.trim ((Cpp.cString back).rdropWhile ending) = [] then none
      else (Cpp.unquote (Cpp.trim ((Cpp.cString back).rdropWhile ending))).map fun value =>
        (Cpp.trim front, value) := by
  simp only [Cpp.entry]
  rw [Cpp.cString_append_equals clean, Cpp.trim_append_equals,
    if_neg (not_hash_head started _),
    if_neg (not_not.mpr (List.mem_append_right _ (List.mem_cons_self ..))),
    beforeEquals_append (not_mem_dropWhile keyEnds), afterEquals_append (not_mem_dropWhile keyEnds),
    Cpp.trim_dropWhile]

end Gearsdk.ServerInfoReader
