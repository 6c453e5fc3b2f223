import Gearsdk.Qlogfile.Steps

/-! The files of one session, put together in the order in which it opened them. -/
namespace Gearsdk
open Std Qstring OrderedMap

/-- What an operation adds to the text that the files make up. -/
def Io.text : Io → Qstring
  | .opened _ previous => previous
  | .written record => record
  | .renamed _ _ _ => []

def Io.record : Io → Option Qstring
  | .written record => some record
  | _ => none

/-- The names and the content of a file that is finalised. -/
def Io.finalised : Io → Option (Qstring × Qstring × Qstring)
  | .renamed old new content => some (old, new, content)
  | _ => none

namespace Qlogfile
variable {cfg : Config} {directory : Directory cfg}

def text (history : List Io) : Qstring := (history.map Io.text).flatten

def flushedRecords (history : List Io) : List Qstring := history.filterMap Io.record

def finalisedNames (history : List Io) : List (Qstring × Qstring) :=
  (history.filterMap Io.finalised).map fun file => (file.1, file.2.1)

def finalisedText (history : List Io) : Qstring :=
  ((history.filterMap Io.finalised).map fun file => file.2.2).flatten

/-- A finalised file stays as it is until the crawler takes it away. -/
def KeepsLogs (s t : State) : Prop :=
  ∀ path file, literal ".log" <:+ path → s.disk.files[path]? = some file →
    t.disk.files[path]? = some file ∨
      ∃ archive, t.moved = s.moved ++ [⟨archive, Fs.filename path, file⟩]

theorem fopen_other {path : Qstring} (d : Disk) (n : Nat) (extension : literal ".log" <:+ path) :
    (d.fopen (tmpPath cfg n)).files[path]? = d.files[path]? := by
  rw [fopen_files, store_lookup, if_neg]
  rintro rfl
  exact tmpPath_not_log cfg n extension

theorem fprintf_other {path : Qstring} (d : Disk) (c : Nat) (records : List Qstring)
    (extension : literal ".log" <:+ path) :
    (d.fprintf (tmpPath cfg c) records).files[path]? = d.files[path]? := by
  rw [fprintf_files, store_lookup, if_neg]
  rintro rfl
  exact tmpPath_not_log cfg c extension

theorem rotated_other {path : Qstring} (q : Qlogfile) (exclusive : Exclusive cfg d.files)
    (present : tmpPath cfg c ∈ d.files) (extension : literal ".log" <:+ path)
    (found : d.files[path]? = some file) :
    (rotated cfg d q c).files[path]? = some file := by
  have target : logPath cfg c ≠ path := by
    rintro rfl
    exact exclusive c present (mem_of_lookup found)
  have source : tmpPath cfg c ≠ path := by
    rintro rfl
    exact tmpPath_not_log cfg c extension
  rw [rotated_lookup, if_neg target, if_neg source, found]

theorem keepsLogs_crawlNext (s : State) (result : Archive) : KeepsLogs s (s.crawlNext result) := by
  intro path file extension found
  rcases crawlNext_cases s result with
    ⟨-, same⟩ | ⟨name, rest, -, ⟨-, same⟩ | ⟨file', found', disk, -, -, moved, -⟩⟩
  · rw [same]
    exact .inl found
  · rw [same]
    exact .inl found
  · by_cases taken : name = path
    · subst taken
      cases Option.some.inj (found'.symm.trans found)
      exact .inr ⟨result, moved⟩
    · refine .inl ?_
      rw [disk]
      exact (lookup_erase_ne s.disk.files taken).trans found

theorem Effect.keepsLogs (exclusive : Exclusive cfg s.disk.files) (effect : Effect cfg s e t) :
    KeepsLogs s t := by
  cases effect with
  | crawled result => exact keepsLogs_crawlNext s result
  | start n idle usable =>
    exact fun path file extension found => .inl ((fopen_other _ n extension).trans found)
  | kept q c check running writes small =>
    exact fun path file extension found => .inl ((fprintf_other _ c _ extension).trans found)
  | closed q c running writes =>
    exact fun path file extension found => .inl ((fprintf_other _ c _ extension).trans found)
  | rotated q c n running writes large usable =>
    intro path file extension found
    exact .inl ((fopen_other _ n extension).trans
      (rotated_other q exclusive writes.present extension found))
  | append | missed | lost | listed => exact fun path file extension found => .inl found

/-- What a session has done since it was started in `s`. -/
structure Segments (cfg : Config) (s : State) (es : List Event) (t : State) (q : Qlogfile) (c : Nat)
    (new : List Io) : Prop where
  running : t.session = some q
  writes : Writes cfg t.disk q c
  history : t.disk.history = s.disk.history ++ new
  versions : ∃ versions : List Nat, versions.Pairwise (· < ·) ∧ (∀ n ∈ versions, n < c) ∧
    finalisedNames new = versions.map fun n => (tmpPath cfg n, logPath cfg n)
  content : finalisedText new ++ t.disk.contentOf (tmpPath cfg c) = text new
  records : flushedRecords new ++ q.records ++ q.recordsWaiting = es.filterMap Event.record

theorem text_append (history later : List Io) :
    text (history ++ later) = text history ++ text later := by
  simp only [text, List.map_append, List.flatten_append]

theorem text_written (records : List Qstring) : text (records.map .written) = records.flatten := by
  simp only [text, List.map_map]
  exact congrArg List.flatten (List.map_id records)

theorem finalised_written (records : List Qstring) :
    (records.map Io.written).filterMap Io.finalised = [] := by
  simp only [List.filterMap_map, List.filterMap_eq_nil_iff]
  exact fun _ _ => rfl

theorem flushedRecords_written (records : List Qstring) :
    flushedRecords (records.map .written) = records := by
  simp only [flushedRecords, List.filterMap_map]
  exact List.filterMap_some

theorem Segments.start (n : Nat) (usable : Usable cfg s.disk.files 0 n) :
    Segments cfg s [] { s with
      disk := Disk.fopen { s.disk with sessions := s.disk.sessions + 1 } (tmpPath cfg n),
      session := some (opened cfg s.disk n {}) } (opened cfg s.disk n {}) n
      [.opened (tmpPath cfg n) (s.disk.contentOf (tmpPath cfg n))] where
  running := rfl
  writes := Writes.fresh (d := { s.disk with sessions := s.disk.sessions + 1 }) usable {}
    fun k low => absurd low (Nat.not_lt_zero k)
  history := rfl
  versions := ⟨[], List.Pairwise.nil, fun _ member => absurd member List.not_mem_nil, rfl⟩
  content := by
    rw [contentOf_fopen]
    exact (List.append_nil _).symm
  records := rfl

/-- The operations of a flush that goes from version `c` to version `n`. -/
def rotation (cfg : Config) (d : Disk) (q : Qlogfile) (c n : Nat) : List Io :=
  q.records.map .written ++
    [.renamed (tmpPath cfg c) (logPath cfg c) (d.contentOf (tmpPath cfg c) ++ q.records.flatten),
      .opened (tmpPath cfg n) ((rotated cfg d q c).contentOf (tmpPath cfg n))]

theorem rotated_history (d : Disk) (q : Qlogfile) (c n : Nat) :
    ((rotated cfg d q c).fopen (tmpPath cfg n)).history = d.history ++ rotation cfg d q c n := by
  simp only [fopen_history, rotated, finalised, fprintf_history, rotation, List.append_assoc,
    List.cons_append, List.nil_append]

theorem finalisedNames_append (history later : List Io) :
    finalisedNames (history ++ later) = finalisedNames history ++ finalisedNames later := by
  simp only [finalisedNames, List.filterMap_append, List.map_append]

theorem finalisedNames_written (records : List Qstring) :
    finalisedNames (records.map .written) = [] := by
  rw [finalisedNames, finalised_written, List.map_nil]

theorem finalisedNames_rotation (d : Disk) (q : Qlogfile) (c n : Nat) :
    finalisedNames (rotation cfg d q c n) = [(tmpPath cfg c, logPath cfg c)] := by
  rw [rotation, finalisedNames_append, finalisedNames_written]
  rfl

theorem finalisedText_append (history later : List Io) :
    finalisedText (history ++ later) = finalisedText history ++ finalisedText later := by
  simp only [finalisedText, List.filterMap_append, List.map_append, List.flatten_append]

theorem finalisedText_written (records : List Qstring) :
    finalisedText (records.map .written) = [] := by
  rw [finalisedText, finalised_written, List.map_nil, List.flatten_nil]

theorem flushedRecords_append (history later : List Io) :
    flushedRecords (history ++ later) = flushedRecords history ++ flushedRecords later :=
  List.filterMap_append

/-- The file that is finalised has its former content and the records; the text goes
on with what the next file held before. -/
theorem text_rotation (d : Disk) (q : Qlogfile) (c n : Nat) :
    finalisedText (rotation cfg d q c n) = d.contentOf (tmpPath cfg c) ++ q.records.flatten ∧
      text (rotation cfg d q c n) = q.records.flatten ++
        (rotated cfg d q c).contentOf (tmpPath cfg n) := by
  rw [rotation, finalisedText_append, finalisedText_written, text_append, text_written]
  refine ⟨?_, ?_⟩
  · exact List.append_nil _
  · exact congrArg (_ ++ ·) (List.append_nil _)

theorem flushedRecords_rotation (d : Disk) (q : Qlogfile) (c n : Nat) :
    flushedRecords (rotation cfg d q c n) = q.records := by
  rw [rotation, flushedRecords_append, flushedRecords_written]
  exact List.append_nil _

theorem Segments.written (segments : Segments cfg s es t q c new) :
    Segments cfg s es { t with
      disk := t.disk.fprintf (tmpPath cfg c) q.records, session := some (flushed q) } (flushed q) c
      (new ++ q.records.map .written) where
  running := rfl
  writes := segments.writes.written
  history := by rw [fprintf_history, segments.history, List.append_assoc]
  versions := by
    rw [finalisedNames_append, finalisedNames_written, List.append_nil]
    exact segments.versions
  content := by
    rw [contentOf_fprintf, text_append, text_written, ← segments.content, finalisedText_append,
      finalisedText_written, List.append_nil, List.append_assoc]
  records := by
    rw [flushedRecords_append, flushedRecords_written, ← segments.records]
    exact congrArg (· ++ q.recordsWaiting) (List.append_nil _)

theorem Segments.rotated (segments : Segments cfg s es t q c new)
    (usable : Usable cfg (rotated cfg t.disk q c).files (c + 1) n) :
    Segments cfg s es { t with
      disk := (Qlogfile.rotated cfg t.disk q c).fopen (tmpPath cfg n),
      session := some (opened cfg (Qlogfile.rotated cfg t.disk q c) n (flushed q)) }
      (opened cfg (Qlogfile.rotated cfg t.disk q c) n (flushed q)) n (new ++
        rotation cfg t.disk q c n) := by
  obtain ⟨-, writes, history, ⟨versions, increasing, below, names⟩, content, records⟩ := segments
  refine ⟨rfl, Writes.fresh usable (flushed q) writes.behind_rotated, ?_,
    ⟨versions ++ [c], ?_, ?_, ?_⟩, ?_, ?_⟩
  · rw [rotated_history, history, List.append_assoc]
  · refine List.pairwise_append.mpr ⟨increasing, List.pairwise_singleton _ _, ?_⟩
    intro k member k' last
    obtain rfl := List.mem_singleton.mp last
    exact below k member
  · intro k member
    rcases List.mem_append.mp member with earlier | last
    · exact Nat.lt_trans (below k earlier) usable.later
    · obtain rfl := List.mem_singleton.mp last
      exact usable.later
  · rw [finalisedNames_append, finalisedNames_rotation, names, List.map_append, List.map_singleton]
  · obtain ⟨closed, whole⟩ :=
      (text_rotation t.disk q c n : finalisedText (rotation cfg t.disk q c n) = _ ∧ _)
    rw [contentOf_fopen, finalisedText_append, text_append, closed, whole, ← content]
    simp only [List.append_assoc]
  · rw [flushedRecords_append, flushedRecords_rotation, ← records]
    exact congrArg (· ++ q.recordsWaiting) (List.append_nil _)

theorem Segments.append (segments : Segments cfg s es t q c new)
    (logged : e.logged = some (record, locked)) :
    Segments cfg s (es ++ [e]) { t with
      session := some (q.append record locked) } (q.append record locked) c new where
  running := rfl
  writes := segments.writes.append record locked
  history := segments.history
  versions := segments.versions
  content := segments.content
  records := by
    rw [List.filterMap_append, ← segments.records]
    cases locked <;> simp [Qlogfile.append, Event.record, logged]

/-- Events that log nothing leave the records to be flushed as they are. -/
theorem Segments.silent (segments : Segments cfg s es t q c new) (silent : e.record = none) :
    Segments cfg s (es ++ [e]) t q c new := by
  obtain ⟨running, writes, history, versions, content, records⟩ := segments
  refine ⟨running, writes, history, versions, content, ?_⟩
  rw [records, List.filterMap_append, List.filterMap_cons, silent, List.filterMap_nil,
    List.append_nil]

theorem Segments.crawlNext (segments : Segments cfg s es t q c new) (sound : Sound cfg t)
    (result : Archive) :
    Segments cfg s es (t.crawlNext result) q c new := by
  obtain ⟨running, writes, history, versions, content, records⟩ := segments
  have session := (crawlNext_session t result).trans running
  obtain ⟨c', writes'⟩ := (sound.crawlNext result).writing q session
  cases tmpPath_inj (writes.path.symm.trans writes'.path)
  refine ⟨session, writes', (crawlNext_history t result).trans history, versions, ?_, records⟩
  rw [← content, Disk.contentOf, Disk.contentOf, crawlNext_lookup sound.pending]

theorem Segments.step (segments : Segments cfg s es t q c new) (sound : Sound cfg t)
    (effect : Effect cfg t e u) (session : ∀ locked, e ≠ .shutdown locked) :
    ∃ q c new, Segments cfg s (es ++ [e]) u q c new := by
  have running := segments.running
  have writes := segments.writes
  cases effect with
  | start n idle usable => exact absurd (running.symm.trans idle) (by simp)
  | append q' e record locked running' logged =>
    cases Option.some.inj (running.symm.trans running')
    exact ⟨_, c, new, segments.append logged⟩
  | missed check => exact ⟨q, c, new, segments.silent rfl⟩
  | kept q' c' check running' writes' small =>
    cases Option.some.inj (running.symm.trans running')
    cases writes.unique writes'
    exact ⟨_, c, _, segments.written.silent rfl⟩
  | rotated q' c' n running' writes' large usable =>
    cases Option.some.inj (running.symm.trans running')
    cases writes.unique writes'
    exact ⟨_, n, _, (segments.rotated usable).silent rfl⟩
  | lost q' running' => exact absurd rfl (session false)
  | closed q' c' running' writes' => exact absurd rfl (session true)
  | listed files found =>
    obtain ⟨running, writes, history, versions, content, records⟩ :=
      segments.silent (e := .tryCrawl files) rfl
    exact ⟨q, c, new, running, writes, history, versions, content, records⟩
  | crawled result => exact ⟨q, c, new, (segments.crawlNext sound result).silent rfl⟩

theorem Segments.run (before : (sessions cfg directory).Run fs s)
    (started : (sessions cfg directory).Step s .start t)
    (path : (sessions cfg directory).Reaches t es u) (session : ∀ locked, .shutdown locked ∉ es) :
    ∃ q c new, Segments cfg s es u q c new := by
  have begin := sound_of_run before
  have initial : ∃ q c new, Segments cfg s [] t q c new := by
    cases begin.effect started with
    | start n idle usable => exact ⟨_, n, _, Segments.start n usable⟩
    | append _ _ _ _ _ logged => contradiction
  have running := before.step started
  induction path with
  | refl => exact initial
  | @step es t' e u path last ih =>
    simp only [List.mem_append, List.mem_singleton, not_or] at session
    obtain ⟨q, c, new, segments⟩ := ih fun locked => (session locked).1
    have sound := sound_of_run (running.trans path)
    exact segments.step sound (sound.effect last) fun locked same => (session locked).2 same.symm

end Qlogfile

open Transition.Machine Qlogfile in
/-- In a session, no finalised file is written over, each version is finalised at
most once, under its own name, and the files make up the text that each of them
had when it was opened, each followed by the records flushed to it, which are the
first of the records in the order in which they were logged. -/
theorem session_segments (cfg : Config) (directory : Directory cfg)
    (before : (sessions cfg directory).Run fs s)
    (started : (sessions cfg directory).Step s .start t)
    (path : (sessions cfg directory).Reaches t es u) (session : ∀ locked, .shutdown locked ∉ es) :
    (∀ gs e v w, (sessions cfg directory).Run gs v → (sessions cfg directory).Step v e w →
      KeepsLogs v w) ∧
    ∃ q new, u.session = some q ∧ u.disk.history = s.disk.history ++ new ∧
      (∃ versions : List Nat, versions.Pairwise (· < ·) ∧
        finalisedNames new = versions.map fun n => (tmpPath cfg n, logPath cfg n)) ∧
      finalisedText new ++ u.disk.contentOf q.currentLogfilePath = text new ∧
      flushedRecords new ++ q.records ++ q.recordsWaiting = es.filterMap Event.record := by
  refine ⟨?_, ?_⟩
  · intro gs e v w run last
    have sound := sound_of_run run
    exact (sound.effect last).keepsLogs sound.exclusive
  · obtain ⟨q, c, new, running, writes, history, ⟨versions, increasing, -, names⟩, content,
      records⟩ :=
      Segments.run before started path session
    exact ⟨q, new, running, history, ⟨versions, increasing, names⟩, writes.path ▸ content, records⟩

namespace Qlogfile

/-- The logs of one port, from an empty directory, in files of at most five bytes. -/
abbrev fiveBytes : Transition.Machine State Event Fault := sessions (statfile 5) (.empty _)

/-- A file that is finalised and taken away, and a small one that is left over. -/
def leavesOver : List Event :=
  [.start, .logBuffer (literal "aaaaa") true, .flush true true, .logBuffer (literal "b") true,
    .shutdown true, .tryCrawl [logPath (statfile 5) 0], .parsed .crawled]

def rotatesOnce : List Event :=
  [.logBuffer (literal "ccccc") true, .flush true true, .logBuffer (literal "d") false]

end Qlogfile

open Transition.Machine Qlogfile in
theorem session_segments_rotated : ∃ s t u, fiveBytes.Run leavesOver s ∧ fiveBytes.Step s .start t ∧
    fiveBytes.Reaches t rotatesOnce u ∧
    ∃ q new, u.session = some q ∧ u.disk.history = s.disk.history ++ new ∧
      finalisedText new ++ u.disk.contentOf q.currentLogfilePath = text new ∧
      flushedRecords new ++ q.records ++ q.recordsWaiting = [bufferRecord (literal "ccccc"),
        bufferRecord (literal "d")] := by
  have first : ((fiveBytes.exec fiveBytes.init leavesOver).bind fun s =>
      (fiveBytes.exec s (.start :: rotatesOnce)).map fun _ => ()) = some () := by decide +kernel
  obtain ⟨s, u, before, path, -⟩ := exec_observe_both first
  rw [← List.singleton_append] at path
  obtain ⟨t, begin, path⟩ := path.split
  obtain ⟨-, q, new, running, history, -, content, records⟩ :=
    session_segments (statfile 5) (.empty _) before begin.single_inv path (by simp [rotatesOnce])
  exact ⟨s, t, u, before, begin.single_inv, path, q, new, running, history, content, records⟩

open Transition.Machine Qlogfile in
/-- A leftover of an earlier session is opened for a later file, whose text begins
with it. -/
theorem leftover_between_records : ∃ s u, fiveBytes.Run leavesOver s ∧
    fiveBytes.Reaches s (.start :: rotatesOnce ++ [.flush true true]) u ∧
    ∃ q new previous, u.session = some q ∧ u.disk.history = s.disk.history ++ new ∧
      new.head? = some (.opened (tmpPath (statfile 5) 0) previous) ∧
      finalisedText new ++ u.disk.contentOf q.currentLogfilePath ≠ previous ++
        (flushedRecords new).flatten := by
  let new (s u : State) : List Io := u.disk.history.drop s.disk.history.length
  have shown : ((fiveBytes.exec fiveBytes.init leavesOver).bind fun s =>
      (fiveBytes.exec s (.start :: rotatesOnce ++ [.flush true true])).map fun u =>
        (u.session.map fun q => u.disk.contentOf q.currentLogfilePath,
          decide (u.disk.history = s.disk.history ++ new s u),
          (new s u).head?, finalisedText (new s u), (flushedRecords (new s u)).flatten)) =
      some (some (literal "b\n"), true, some (.opened (tmpPath (statfile 5) 0) []),
        literal "ccccc\n", literal "ccccc\n") := by
    decide +kernel
  obtain ⟨s, u, first, second, same⟩ := exec_observe_both shown
  simp only [Prod.mk.injEq, decide_eq_true_eq, Option.map_eq_some_iff] at same
  obtain ⟨⟨q, running, content⟩, history, opening, closed, records⟩ := same
  refine ⟨s, u, first, second, q, new s u, [], running, history, opening, ?_⟩
  rw [closed, content, records]
  decide +kernel

end Gearsdk
