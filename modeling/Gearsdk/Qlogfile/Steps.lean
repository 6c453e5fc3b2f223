import Gearsdk.Qlogfile.Sessions
import Mathlib.Data.List.Perm.Subperm

/-! What the calls of the logger do to the directory, in terms of the numbers of
the versions. -/
namespace Gearsdk.Qlogfile
open Std Qstring OrderedMap

variable {cfg : Config} {files : TreeMap Qstring LogFile} {q q' : Qlogfile}

/-- A version that the search from `start` on stops at. -/
structure Usable (cfg : Config) (files : TreeMap Qstring LogFile) (start n : Nat) : Prop where
  later : start ≤ n
  stops : (∃ file, files[tmpPath cfg n]? = some file ∧ file.content.length < cfg.maxSizeOfFile) ∨
    tmpPath cfg n ∉ files ∧ logPath cfg n ∉ files
  full : ∀ k, start ≤ k → k < n → ∀ file, files[tmpPath cfg k]? = some file →
    cfg.maxSizeOfFile ≤ file.content.length

/-- The logger after the search has stopped at version `n`. -/
def positioned (cfg : Config) (n : Nat) (q : Qlogfile) : Qlogfile :=
  { q with
    nextMinorCounter := (n + 1) % minorVersionResetAt, nextMajorVersion :=
      (n + 1) / minorVersionResetAt,
    currentLogfilePath := tmpPath cfg n }

@[simp] theorem positioned_records (n : Nat) : (positioned cfg n q).records = q.records := rfl

@[simp] theorem positioned_recordsWaiting (n : Nat) :
    (positioned cfg n q).recordsWaiting = q.recordsWaiting := rfl

@[simp] theorem positioned_path (n : Nat) :
    (positioned cfg n q).currentLogfilePath = tmpPath cfg n := rfl

theorem positioned_bounded (n : Nat) :
    (positioned cfg n q).nextMinorCounter < minorVersionResetAt :=
  Nat.mod_lt _ (by decide)

@[simp] theorem positioned_next (n : Nat) : (positioned cfg n q).next = n + 1 := by
  simp only [next, positioned, minorVersionResetAt]
  omega

theorem nextVersion_positioned (bounded : q.nextMinorCounter < minorVersionResetAt) :
    { q.nextVersion with currentLogfilePath := tmpPath cfg q.next } = positioned cfg q.next q := by
  by_cases last : q.nextMinorCounter + 1 ≥ minorVersionResetAt
  · have major : (q.next + 1) / minorVersionResetAt = q.nextMajorVersion + 1 := by
      simp only [next, minorVersionResetAt] at bounded last ⊢
      omega
    have minor : (q.next + 1) % minorVersionResetAt = 0 := by
      simp only [next, minorVersionResetAt] at bounded last ⊢
      omega
    rw [nextVersion, if_pos last, positioned, major, minor]
  · have major : (q.next + 1) / minorVersionResetAt = q.nextMajorVersion := by
      simp only [next, minorVersionResetAt] at bounded last ⊢
      omega
    have minor : (q.next + 1) % minorVersionResetAt = q.nextMinorCounter + 1 := by
      simp only [next, minorVersionResetAt] at bounded last ⊢
      omega
    rw [nextVersion, if_neg last, positioned, major, minor]

theorem logPath_next (bounded : q.nextMinorCounter < minorVersionResetAt) :
    versionPath cfg q.nextMajorVersion q.nextMinorCounter (literal ".log") =
      logPath cfg q.next := by
  simp only [logPath, next, minorVersionResetAt] at bounded ⊢
  congr 1 <;> omega

theorem probe_succ (bounded : q.nextMinorCounter < minorVersionResetAt) (rounds : Nat) :
    probe cfg files (rounds + 1) q =
      if (files[tmpPath cfg q.next]?).any (·.content.length < cfg.maxSizeOfFile) then
        .ok (positioned cfg q.next q)
      else if files.contains (tmpPath cfg q.next) || files.contains (logPath cfg q.next) then
        probe cfg files rounds (positioned cfg q.next q)
      else .ok (positioned cfg q.next q) := by
  rw [← nextVersion_positioned bounded, ← tmpPath_next bounded, ← logPath_next bounded]
  rfl

theorem probe_usable (bounded : q.nextMinorCounter < minorVersionResetAt)
    (found : probe cfg files rounds q = .ok q') :
    ∃ n, Usable cfg files q.next n ∧ q' = positioned cfg n q := by
  induction rounds generalizing q with
  | zero => contradiction
  | succ rounds ih =>
    rw [probe_succ bounded] at found
    split at found
    · rename_i small
      obtain ⟨file, present, below⟩ := (Option.any_eq_true _ _).mp small
      refine ⟨q.next, ⟨Nat.le_refl _, .inl ⟨file, present, of_decide_eq_true below⟩, ?_⟩,
        (Except.ok.inj found).symm⟩
      intro k low high
      omega
    · rename_i large
      have full : ∀ file, files[tmpPath cfg q.next]? = some file →
          cfg.maxSizeOfFile ≤ file.content.length := by
        intro file present
        simpa [present] using large
      split at found
      · obtain ⟨n, usable, rfl⟩ := ih (positioned_bounded _) found
        rw [positioned_next] at usable
        refine ⟨n, ⟨Nat.le_of_succ_le usable.later, usable.stops, ?_⟩, rfl⟩
        intro k low high file present
        rcases Nat.eq_or_lt_of_le low with rfl | beyond
        · exact full file present
        · exact usable.full k beyond high file present
      · rename_i absent
        simp only [Bool.or_eq_true, TreeMap.contains_iff_mem, not_or] at absent
        refine ⟨q.next, ⟨Nat.le_refl _, .inr absent, ?_⟩, (Except.ok.inj found).symm⟩
        intro k low high
        omega

/-- The search goes on only while it meets files. -/
theorem probe_taken (bounded : q.nextMinorCounter < minorVersionResetAt)
    (endless : probe cfg files rounds q = .error fault) :
    ∀ k, q.next ≤ k → k < q.next + rounds → tmpPath cfg k ∈ files ∨ logPath cfg k ∈ files := by
  induction rounds generalizing q with
  | zero =>
    intro k low high
    omega
  | succ rounds ih =>
    rw [probe_succ bounded] at endless
    split at endless
    · contradiction
    · split at endless
      · rename_i taken
        simp only [Bool.or_eq_true, TreeMap.contains_iff_mem] at taken
        have later := ih (positioned_bounded _) endless
        intro k low high
        rw [positioned_next] at later
        rcases Nat.eq_or_lt_of_le low with rfl | beyond
        · exact taken
        · exact later k beyond (by omega)
      · contradiction

theorem probe_ends (bounded : q.nextMinorCounter < minorVersionResetAt) :
    ∃ q', probe cfg files (files.size + 1) q = .ok q' := by
  cases result : probe cfg files (files.size + 1) q with
  | ok q' => exact ⟨q', rfl⟩
  | error fault =>
    have taken := probe_taken bounded result
    let present (k : Nat) : Qstring := if tmpPath cfg k ∈ files then tmpPath cfg k
      else logPath cfg k
    have injective : ∀ k l, present k = present l → k = l := by
      intro k l same
      simp only [present] at same
      split at same <;> split at same
      · exact tmpPath_inj same
      · exact absurd same (tmpPath_ne_logPath cfg k l)
      · exact absurd same.symm (tmpPath_ne_logPath cfg l k)
      · exact logPath_inj same
    have names : ((List.range' q.next (files.size + 1)).map present).Nodup :=
      (List.nodup_range' _).map injective
    have within : (List.range' q.next (files.size + 1)).map present ⊆ files.keys := by
      intro path member
      obtain ⟨k, inside, rfl⟩ := List.mem_map.mp member
      have bounds := List.mem_range'_1.mp inside
      simp only [present, TreeMap.mem_keys]
      rcases taken k bounds.1 bounds.2 with tmp | log
      · rw [if_pos tmp]
        exact tmp
      · split
        · assumption
        · exact log
    have few := (List.subperm_of_subset names within).length_le
    rw [List.length_map, List.length_range', TreeMap.length_keys] at few
    omega

/-! ### Files -/

variable {d : Disk}

@[simp] theorem store_lookup (d : Disk) (path content other : Qstring) :
    (d.store path content).files[other]? =
      if path = other then some { content, session := d.sessions } else d.files[other]? :=
  lookup_insert d.files path other _

@[simp] theorem fopen_files (d : Disk) (path : Qstring) :
    (d.fopen path).files = (d.store path (d.contentOf path)).files := rfl

@[simp] theorem fopen_sessions (d : Disk) (path : Qstring) : (d.fopen path).sessions = d.sessions :=
  rfl

@[simp] theorem fopen_history (d : Disk) (path : Qstring) :
    (d.fopen path).history = d.history ++ [.opened path (d.contentOf path)] := rfl

@[simp] theorem fprintf_files (d : Disk) (path : Qstring) (records : List Qstring) :
    (d.fprintf path records).files = (d.store path (d.contentOf path ++ records.flatten)).files :=
  rfl

@[simp] theorem fprintf_sessions (d : Disk) (path : Qstring) (records : List Qstring) :
    (d.fprintf path records).sessions = d.sessions := rfl

@[simp] theorem fprintf_history (d : Disk) (path : Qstring) (records : List Qstring) :
    (d.fprintf path records).history = d.history ++ records.map .written := rfl

theorem contentOf_lookup (found : d.files[path]? = some file) :
    d.contentOf path = file.content := by
  simp only [Disk.contentOf, found, Option.map_some, Option.getD_some]

theorem contentOf_store (d : Disk) (path content : Qstring) :
    (d.store path content).contentOf path = content := by
  simp only [Disk.contentOf, store_lookup, if_true, Option.map_some, Option.getD_some]

@[simp] theorem contentOf_fprintf (d : Disk) (path : Qstring) (records : List Qstring) :
    (d.fprintf path records).contentOf path = d.contentOf path ++ records.flatten :=
  contentOf_store d path _

@[simp] theorem contentOf_fopen (d : Disk) (path : Qstring) :
    (d.fopen path).contentOf path = d.contentOf path :=
  contentOf_store d path _

/-- The open file becomes the finalised file of its version. -/
def finalised (cfg : Config) (d : Disk) (c : Nat) (file : LogFile) : Disk :=
  { d with
    files := (d.files.erase (tmpPath cfg c)).insert (logPath cfg c) file,
    history := d.history ++ [.renamed (tmpPath cfg c) (logPath cfg c) file.content] }

theorem finaliseLogfile_eq (path : q.currentLogfilePath = tmpPath cfg c)
    (found : d.files[tmpPath cfg c]? = some file) :
    finaliseLogfile d q = finalised cfg d c file := by
  simp only [finaliseLogfile, path, replace_tmpPath, Disk.rename, found, finalised]

theorem finalised_lookup (d : Disk) (c : Nat) (file : LogFile) (other : Qstring) :
    (finalised cfg d c file).files[other]? =
      if logPath cfg c = other then some file else if tmpPath cfg c = other then none
        else d.files[other]? := by
  simp only [finalised, lookup_insert, lookup_erase]

/-! ### Calls -/

/-- The logger with the file of version `n` open. -/
def opened (cfg : Config) (d : Disk) (n : Nat) (q : Qlogfile) : Qlogfile :=
  { positioned cfg n q with logfileSize := (d.contentOf (tmpPath cfg n)).length }

theorem createNewLogfile_eq (bounded : q.nextMinorCounter < minorVersionResetAt)
    (finalizePrevFile : Bool)
    (before : (if finalizePrevFile then finaliseLogfile d q else d) = d') :
    ∃ n, Usable cfg d'.files q.next n ∧
      createNewLogfile cfg d q finalizePrevFile =
        .ok (d'.fopen (tmpPath cfg n), opened cfg d' n q) := by
  obtain ⟨q', found⟩ :=
    (probe_ends bounded : ∃ q', probe cfg d'.files (d'.files.size + 1) q = .ok q')
  obtain ⟨n, usable, rfl⟩ := probe_usable bounded found
  refine ⟨n, usable, ?_⟩
  simp only [createNewLogfile, before, found]
  rfl

theorem construct_eq (cfg : Config) (d : Disk) :
    ∃ n, Usable cfg d.files 0 n ∧
      construct cfg d =
        .ok (Disk.fopen { d with sessions := d.sessions + 1 } (tmpPath cfg n),
          opened cfg d n {}) :=
  createNewLogfile_eq (q := {}) (d := { d with
    sessions := d.sessions + 1 }) (by decide) false (if_neg Bool.false_ne_true)

/-- The logger after its records have been written. -/
def flushed (q : Qlogfile) : Qlogfile :=
  { q with logfileSize := q.logfileSize + q.records.flatten.length, records := [] }

/-- The directory after the open file has been written and finalised. -/
def rotated (cfg : Config) (d : Disk) (q : Qlogfile) (c : Nat) : Disk :=
  finalised cfg (d.fprintf (tmpPath cfg c) q.records) c
    { content := d.contentOf (tmpPath cfg c) ++ q.records.flatten, session := d.sessions }

/-- A session that writes to the file of version `c`. Leftovers of earlier versions
have reached the limit. -/
structure Writes (cfg : Config) (d : Disk) (q : Qlogfile) (c : Nat) : Prop where
  path : q.currentLogfilePath = tmpPath cfg c
  bounded : q.nextMinorCounter < minorVersionResetAt
  next : q.next = c + 1
  opened : ∃ file, d.files[tmpPath cfg c]? = some file ∧ file.session = d.sessions ∧
    file.content.length = q.logfileSize
  behind : ∀ k < c, ∀ file, d.files[tmpPath cfg k]? = some file →
    cfg.maxSizeOfFile ≤ file.content.length

theorem flush_locked (writes : Writes cfg d q c) (check : Bool) :
    (¬ (check = true ∧ (flushed q).logfileSize > cfg.maxSizeOfFile) ∧
      flush cfg d q check true = .ok (d.fprintf (tmpPath cfg c) q.records, flushed q)) ∨
    (check = true ∧ (flushed q).logfileSize > cfg.maxSizeOfFile ∧
      ∃ n, Usable cfg (rotated cfg d q c).files (c + 1) n ∧
        flush cfg d q check true =
          .ok ((rotated cfg d q c).fopen (tmpPath cfg n),
            Qlogfile.opened cfg (rotated cfg d q c) n (flushed q))) := by
  have unfolded : flush cfg d q check true =
      if check && (flushed q).logfileSize > cfg.maxSizeOfFile then
        createNewLogfile cfg (d.fprintf (tmpPath cfg c) q.records) (flushed q) true
      else .ok (d.fprintf (tmpPath cfg c) q.records, flushed q) := by
    rw [← writes.path]
    rfl
  rw [unfolded]
  by_cases large : check = true ∧ (flushed q).logfileSize > cfg.maxSizeOfFile
  · right
    have next : (flushed q).next = c + 1 := writes.next
    have closed : (if true = true then finaliseLogfile (d.fprintf (tmpPath cfg c) q.records) (flushed q)
        else d.fprintf (tmpPath cfg c) q.records) = rotated cfg d q c :=
      (if_pos rfl).trans (finaliseLogfile_eq writes.path (by simp))
    obtain ⟨n, usable, created⟩ := createNewLogfile_eq (q := flushed q) writes.bounded true closed
    rw [next] at usable
    refine ⟨large.1, large.2, n, usable, ?_⟩
    rw [if_pos (by simpa using large), created]
  · left
    refine ⟨large, ?_⟩
    rw [if_neg (by simpa using large)]

theorem tmpPath_not_log (cfg : Config) (n : Nat) : ¬ literal ".log" <:+ tmpPath cfg n := by
  rw [tmpPath_stem, extension_bytes.1, extension_bytes.2]
  intro suffix
  have same := List.IsSuffix.eq_of_length
    (List.suffix_of_suffix_length_le suffix (List.suffix_append _ _) (by decide)) (by decide)
  exact absurd same (by decide)

theorem logPath_log (cfg : Config) (n : Nat) : literal ".log" <:+ logPath cfg n :=
  logPath_stem cfg n ▸ List.suffix_append _ _

theorem separator_suffix {name : Qstring} {c : UInt8} (filled : name.rdropWhile (· ≠ c) ≠ []) :
    c :: name.rtakeWhile (· ≠ c) <:+ name := by
  have last : (name.rdropWhile (· ≠ c)).getLast filled = c := by
    simpa using List.rdropWhile_last_not _ _ filled
  have parts := List.dropLast_append_getLast filled
  rw [last] at parts
  refine ⟨(name.rdropWhile (· ≠ c)).dropLast, ?_⟩
  rw [← List.singleton_append, ← List.append_assoc, parts, List.rdropWhile_append_rtakeWhile]

theorem suffix_of_extension {path : Qstring} (extension : Fs.extension path = literal ".log") :
    literal ".log" <:+ path := by
  rw [← extension, Fs.extension]
  split
  · exact List.nil_suffix
  · rename_i dotted
    simp only [not_or, Nat.not_le] at dotted
    have filled : (Fs.filename path).rdropWhile (· ≠ 46) ≠ [] :=
      List.ne_nil_of_length_pos (by omega)
    exact (separator_suffix filled).trans (List.rtakeWhile_suffix _ _)

/-! ### Runs -/

theorem crawlNext_cases (s : State) (result : Archive) :
    (s.pending = [] ∧ s.crawlNext result = s) ∨
    ∃ path pending, s.pending = path :: pending ∧
      ((s.disk.files[path]? = none ∧ s.crawlNext result = { s with pending }) ∨
        ∃ file, s.disk.files[path]? = some file ∧
          (s.crawlNext result).disk = { s.disk with files := s.disk.files.erase path } ∧
          (s.crawlNext result).session = s.session ∧ (s.crawlNext result).pending = pending ∧
          (s.crawlNext result).moved = s.moved ++ [⟨result, Fs.filename path, file⟩] ∧
          ∀ archive, (s.crawlNext result).archive archive =
            if archive = result then (s.archive result).insert (Fs.filename path) file
              else s.archive archive) := by
  cases pending : s.pending with
  | nil => exact .inl ⟨rfl, by simp only [State.crawlNext, pending]⟩
  | cons path rest =>
    refine .inr ⟨path, rest, rfl, ?_⟩
    cases found : s.disk.files[path]? with
    | none => exact .inl ⟨rfl, by simp only [State.crawlNext, pending, found]⟩
    | some file =>
      refine .inr ⟨file, rfl, ?_⟩
      simp only [State.crawlNext, pending, found]
      cases result
      all_goals
        refine ⟨rfl, rfl, rfl, rfl, ?_⟩
        intro archive
        cases archive <;> rfl

/-! The crawler leaves the logger and the files that are not finalised alone. -/

theorem crawlNext_session (s : State) (result : Archive) :
    (s.crawlNext result).session = s.session := by
  rcases crawlNext_cases s result with ⟨-, same⟩ | ⟨_, _, -, ⟨-, same⟩ | ⟨_, -, -, session, -⟩⟩
  · rw [same]
  · rw [same]
  · exact session

theorem crawlNext_history (s : State) (result : Archive) :
    (s.crawlNext result).disk.history = s.disk.history := by
  rcases crawlNext_cases s result with ⟨-, same⟩ | ⟨_, _, -, ⟨-, same⟩ | ⟨_, -, disk, -⟩⟩
  · rw [same]
  · rw [same]
  · rw [disk]

theorem crawlNext_lookup {s : State} (listed : ∀ path ∈ s.pending, literal ".log" <:+ path)
    (result : Archive) (n : Nat) :
    (s.crawlNext result).disk.files[tmpPath cfg n]? = s.disk.files[tmpPath cfg n]? := by
  rcases crawlNext_cases s result with ⟨-, same⟩ | ⟨path, _, pending, ⟨-, same⟩ | ⟨_, -, disk, -⟩⟩
  · rw [same]
  · rw [same]
  · have other : path ≠ tmpPath cfg n := by
      rintro rfl
      exact tmpPath_not_log cfg n (listed _ (pending ▸ List.mem_cons_self))
    rw [disk]
    exact lookup_erase_ne s.disk.files other

/-- No version has both a file that is open and a finalised one. -/
def Exclusive (cfg : Config) (files : TreeMap Qstring LogFile) : Prop :=
  ∀ n, tmpPath cfg n ∈ files → logPath cfg n ∉ files

/-- What every state of a run has. -/
structure Sound (cfg : Config) (s : State) : Prop where
  exclusive : Exclusive cfg s.disk.files
  pending : ∀ path ∈ s.pending, literal ".log" <:+ path
  writing : ∀ q, s.session = some q → ∃ c, Writes cfg s.disk q c

theorem Exclusive.fopen (exclusive : Exclusive cfg files) (usable : Usable cfg files start n)
    (file : LogFile) :
    Exclusive cfg (files.insert (tmpPath cfg n) file) := by
  intro k tmp log
  rw [mem_insert_iff] at tmp log
  have log := log.resolve_left (tmpPath_ne_logPath cfg n k)
  rcases tmp with same | present
  · obtain rfl := tmpPath_inj same
    rcases usable.stops with ⟨leftover, found, -⟩ | ⟨-, absent⟩
    · exact exclusive n (mem_of_lookup found) log
    · exact absent log
  · exact exclusive k present log

theorem Exclusive.write (exclusive : Exclusive cfg files) (present : tmpPath cfg c ∈ files)
    (file : LogFile) :
    Exclusive cfg (files.insert (tmpPath cfg c) file) := by
  intro k tmp log
  rw [mem_insert_iff] at tmp log
  have log := log.resolve_left (tmpPath_ne_logPath cfg c k)
  rcases tmp with same | present'
  · obtain rfl := tmpPath_inj same
    exact exclusive c present log
  · exact exclusive k present' log

theorem Exclusive.finalise (exclusive : Exclusive cfg files) (file : LogFile) :
    Exclusive cfg ((files.erase (tmpPath cfg c)).insert (logPath cfg c) file) := by
  intro k tmp log
  simp only [mem_insert_iff, mem_erase_iff] at tmp log
  obtain ⟨other, tmp⟩ := tmp.resolve_left fun same => tmpPath_ne_logPath cfg k c same.symm
  rcases log with same | ⟨-, log⟩
  · exact other (congrArg (tmpPath cfg) (logPath_inj same))
  · exact exclusive k tmp log

theorem Exclusive.erase (exclusive : Exclusive cfg files) (path : Qstring) :
    Exclusive cfg (files.erase path) := by
  intro k tmp log
  rw [mem_erase_iff] at tmp log
  exact exclusive k tmp.2 log.2

theorem rotated_lookup (d : Disk) (q : Qlogfile) (c : Nat) (other : Qstring) :
    (rotated cfg d q c).files[other]? =
      if logPath cfg c = other then
        some { content := d.contentOf (tmpPath cfg c) ++ q.records.flatten, session := d.sessions }
      else if tmpPath cfg c = other then none else d.files[other]? := by
  rw [rotated, finalised_lookup]
  split
  · rfl
  · split
    · rfl
    · rename_i other
      rw [fprintf_files, store_lookup, if_neg other]

theorem rotated_tmpPath (d : Disk) (q : Qlogfile) (c k : Nat) :
    (rotated cfg d q c).files[tmpPath cfg k]? = if c = k then none
      else d.files[tmpPath cfg k]? := by
  rw [rotated_lookup, if_neg fun same => tmpPath_ne_logPath cfg k c same.symm]
  by_cases same : c = k
  · subst same
    rw [if_pos rfl, if_pos rfl]
  · rw [if_neg same, if_neg fun eq => same (tmpPath_inj eq)]

theorem fopen_tmpPath (d : Disk) (n k : Nat) :
    (d.fopen (tmpPath cfg n)).files[tmpPath cfg k]? =
      if n = k then some { content := d.contentOf (tmpPath cfg n), session := d.sessions }
        else d.files[tmpPath cfg k]? := by
  rw [fopen_files, store_lookup]
  by_cases same : n = k
  · subst same
    rw [if_pos rfl, if_pos rfl]
  · rw [if_neg same, if_neg fun eq => same (tmpPath_inj eq)]

theorem fprintf_tmpPath (d : Disk) (c k : Nat) (records : List Qstring) :
    (d.fprintf (tmpPath cfg c) records).files[tmpPath cfg k]? =
      if c = k then some { content := d.contentOf (tmpPath cfg c) ++ records.flatten,
                           session := d.sessions }
      else d.files[tmpPath cfg k]? := by
  rw [fprintf_files, store_lookup]
  by_cases same : c = k
  · subst same
    rw [if_pos rfl, if_pos rfl]
  · rw [if_neg same, if_neg fun eq => same (tmpPath_inj eq)]

namespace Writes

theorem size (writes : Writes cfg d q c) :
    q.logfileSize = (d.contentOf (tmpPath cfg c)).length := by
  obtain ⟨file, found, -, length⟩ := writes.opened
  rw [contentOf_lookup found, length]

theorem present (writes : Writes cfg d q c) : tmpPath cfg c ∈ d.files := by
  obtain ⟨file, found, -⟩ := writes.opened
  exact mem_of_lookup found

theorem unique (writes : Writes cfg d q c) (writes' : Writes cfg d q n) : c = n :=
  tmpPath_inj (writes.path.symm.trans writes'.path)

theorem append (writes : Writes cfg d q c) (record : Qstring) (locked : Bool) :
    Writes cfg d (q.append record locked) c := by
  obtain ⟨path, bounded, next, opened, behind⟩ := writes
  cases locked <;> exact ⟨path, bounded, next, opened, behind⟩

theorem fresh (usable : Usable cfg d.files start n) (q : Qlogfile)
    (behind : ∀ k < start, ∀ file, d.files[tmpPath cfg k]? = some file →
    cfg.maxSizeOfFile ≤ file.content.length) :
    Writes cfg (d.fopen (tmpPath cfg n)) (Qlogfile.opened cfg d n q) n where
  path := rfl
  bounded := (positioned_bounded n : (positioned cfg n q).nextMinorCounter < minorVersionResetAt)
  next := (positioned_next n : (positioned cfg n q).next = n + 1)
  opened := ⟨{ content := d.contentOf (tmpPath cfg n), session := d.sessions },
    by rw [fopen_tmpPath, if_pos rfl], rfl, rfl⟩
  behind := by
    intro k low file found
    rw [fopen_tmpPath, if_neg (Nat.ne_of_gt low)] at found
    rcases Nat.lt_or_ge k start with passed | searched
    · exact behind k passed file found
    · exact usable.full k searched low file found

theorem written (writes : Writes cfg d q c) :
    Writes cfg (d.fprintf (tmpPath cfg c) q.records) (flushed q) c where
  path := writes.path
  bounded := writes.bounded
  next := writes.next
  opened := by
    refine ⟨_, (fprintf_tmpPath d c c q.records).trans (if_pos rfl), rfl, ?_⟩
    rw [List.length_append, flushed, writes.size]
  behind := by
    intro k low file found
    rw [fprintf_tmpPath, if_neg (Nat.ne_of_gt low)] at found
    exact writes.behind k low file found

/-- The finalised file is behind as well, under its other name. -/
theorem behind_rotated (writes : Writes cfg d q c) :
    ∀ k < c + 1, ∀ file, (rotated cfg d q c).files[tmpPath cfg k]? = some file →
      cfg.maxSizeOfFile ≤ file.content.length := by
  intro k low file found
  rw [rotated_tmpPath] at found
  split at found
  · contradiction
  · rename_i other
    exact writes.behind k (by omega) file found

theorem erase {name : Qstring} (writes : Writes cfg d q c) (extension : literal ".log" <:+ name) :
    Writes cfg { d with files := d.files.erase name } q c := by
  have other : ∀ k, name ≠ tmpPath cfg k := by
    rintro k rfl
    exact tmpPath_not_log cfg k extension
  obtain ⟨path, bounded, next, ⟨file, found, stamped⟩, behind⟩ := writes
  refine ⟨path, bounded, next, ⟨file, ?_, stamped⟩, ?_⟩
  · exact (lookup_erase_ne d.files (other c)).trans found
  · intro k low file found
    exact behind k low file ((lookup_erase_ne d.files (other k)).symm.trans found)

end Writes

/-- The running session writes to this version. -/
def Current (cfg : Config) (s : State) (n : Nat) : Prop :=
  ∃ q, s.session = some q ∧ q.currentLogfilePath = tmpPath cfg n

theorem current_iff (running : s.session = some q) (writes : Writes cfg s.disk q c) :
    Current cfg s n ↔ n = c := by
  constructor
  · rintro ⟨q', running', path⟩
    cases Option.some.inj (running.symm.trans running')
    exact (tmpPath_inj (writes.path.symm.trans path)).symm
  · rintro rfl
    exact ⟨q, running, writes.path⟩

theorem current_congr {s t : State} (same : t.session = s.session) :
    Current cfg t n ↔ Current cfg s n := by
  rw [Current, Current, same]

theorem not_current (idle : s.session = none) (n : Nat) : ¬ Current cfg s n := by
  rintro ⟨q, running, -⟩
  exact absurd (idle.symm.trans running) (by simp)

theorem current_opened (d d' : Disk) (q : Qlogfile) (k n : Nat) (s : State) :
    Current cfg { s with disk := d, session := some (opened cfg d' k q) } n ↔ n = k := by
  constructor
  · rintro ⟨q', running, path⟩
    cases Option.some.inj running
    exact (tmpPath_inj path).symm
  · rintro rfl
    exact ⟨_, rfl, rfl⟩

/-- The record that an event logs, and whether it finds the mutex free. -/
def Event.logged : Event → Option (Qstring × Bool)
  | .log utcTimeReadable tag buffer locked => some (logRecord utcTimeReadable tag buffer, locked)
  | .logBuffer buffer locked => some (bufferRecord buffer, locked)
  | _ => none

def Event.record (e : Event) : Option Qstring := e.logged.map Prod.fst

/-- What a step does in a state of a run. -/
inductive Effect (cfg : Config) (s : State) : Event → State → Prop where
  | start (n : Nat) (idle : s.session = none) (usable : Usable cfg s.disk.files 0 n) :
      Effect cfg s .start { s with
        disk := Disk.fopen { s.disk with sessions := s.disk.sessions + 1 } (tmpPath cfg n),
        session := some (opened cfg s.disk n {}) }
  | append (q : Qlogfile) (e : Event) (record : Qstring) (locked : Bool)
      (writing : s.session = some q)
      (logged : e.logged = some (record, locked)) : Effect cfg s e { s with
        session := some (q.append record locked) }
  | missed (check : Bool) : Effect cfg s (.flush check false) s
  | kept (q : Qlogfile) (c : Nat) (check : Bool) (writing : s.session = some q)
      (writes : Writes cfg s.disk q c)
      (small : ¬ (check = true ∧ (flushed q).logfileSize > cfg.maxSizeOfFile)) :
      Effect cfg s (.flush check true) { s with
        disk := s.disk.fprintf (tmpPath cfg c) q.records, session := some (flushed q) }
  | rotated (q : Qlogfile) (c n : Nat) (writing : s.session = some q)
      (writes : Writes cfg s.disk q c)
      (large : (flushed q).logfileSize > cfg.maxSizeOfFile)
      (usable : Usable cfg (rotated cfg s.disk q c).files (c + 1) n) :
      Effect cfg s (.flush true true) { s with
        disk := (Qlogfile.rotated cfg s.disk q c).fopen (tmpPath cfg n),
        session := some (opened cfg (Qlogfile.rotated cfg s.disk q c) n (flushed q)) }
  | lost (q : Qlogfile) (writing : s.session = some q) :
      Effect cfg s (.shutdown false) { s with session := none }
  | closed (q : Qlogfile) (c : Nat) (writing : s.session = some q)
      (writes : Writes cfg s.disk q c) :
      Effect cfg s (.shutdown true) { s with
        disk := s.disk.fprintf (tmpPath cfg c) (q.records ++ q.recordsWaiting), session := none }
  | listed (files : List Qstring) (found : files.Perm (getAllLogFiles cfg s.disk.files)) :
      Effect cfg s (.tryCrawl files) { s with pending := files }
  | crawled (result : Archive) : Effect cfg s (.parsed result) (s.crawlNext result)

theorem Sound.effect {directory : Directory cfg} (sound : Sound cfg s)
    (stepped : (sessions cfg directory).Step s e t) :
    Effect cfg s e t := by
  obtain ⟨possible, ok⟩ := stepped
  cases e with
  | start =>
    obtain ⟨n, usable, constructed⟩ := construct_eq cfg s.disk
    simp only [sessions, step, constructed] at ok
    cases Except.ok.inj ok
    exact .start n possible usable
  | log utcTimeReadable tag buffer locked =>
    obtain ⟨q, writing⟩ := Option.ne_none_iff_exists'.mp possible
    simp only [sessions, step, writing] at ok
    cases Except.ok.inj ok
    exact .append q _ _ locked writing rfl
  | logBuffer buffer locked =>
    obtain ⟨q, writing⟩ := Option.ne_none_iff_exists'.mp possible
    simp only [sessions, step, writing] at ok
    cases Except.ok.inj ok
    exact .append q _ _ locked writing rfl
  | flush check locked =>
    obtain ⟨q, writing⟩ := Option.ne_none_iff_exists'.mp possible
    obtain ⟨c, writes⟩ := sound.writing q writing
    cases locked with
    | false =>
      have same : t = s := by
        simp only [sessions, step, writing] at ok
        cases Except.ok.inj ok
        simp only [State.withLogfile, ← writing]
      exact same ▸ .missed check
    | true =>
      rcases flush_locked writes check with ⟨small, result⟩ | ⟨checked, large, n, usable, result⟩
      · simp only [sessions, step, writing, result] at ok
        cases Except.ok.inj ok
        exact .kept q c check writing writes small
      · simp only [sessions, step, writing, result] at ok
        cases Except.ok.inj ok
        exact checked ▸ .rotated q c n writing writes large usable
  | shutdown locked =>
    obtain ⟨q, writing⟩ := Option.ne_none_iff_exists'.mp possible
    obtain ⟨c, writes⟩ := sound.writing q writing
    simp only [sessions, step, writing] at ok
    cases locked with
    | false =>
      cases Except.ok.inj ok
      exact .lost q writing
    | true =>
      cases Except.ok.inj ok
      exact writes.path ▸ .closed q c writing writes
  | tryCrawl files =>
    cases Except.ok.inj ok
    exact .listed files possible.2
  | parsed result =>
    cases Except.ok.inj ok
    exact .crawled result

theorem mem_getAllLogFiles (listed : path ∈ getAllLogFiles cfg files) :
    path ∈ files ∧ Fs.parentPath path = Fs.parentPath (cString cfg.logfilePath) ∧
      literal ".log" <:+ path := by
  simp only [getAllLogFiles] at listed
  split at listed
  · exact absurd listed List.not_mem_nil
  · simp only [List.mem_filter, TreeMap.mem_keys, Bool.and_eq_true, decide_eq_true_eq] at listed
    exact ⟨listed.1, listed.2.1, suffix_of_extension listed.2.2⟩

theorem Sound.init (directory : Directory cfg) : Sound cfg (sessions cfg directory).init where
  exclusive := directory.exclusive
  pending := fun _ member => absurd member List.not_mem_nil
  writing := fun _ writing => absurd writing (by simp [sessions])

theorem Sound.crawlNext (sound : Sound cfg s) (result : Archive) :
    Sound cfg (s.crawlNext result) := by
  obtain ⟨exclusive, listed, writing⟩ := sound
  rcases crawlNext_cases s result with ⟨-, same⟩ | ⟨path, rest, pending, found⟩
  · rw [same]
    exact ⟨exclusive, listed, writing⟩
  · rw [pending] at listed
    have later : ∀ name ∈ rest, literal ".log" <:+ name :=
      fun name member => listed name (List.mem_cons_of_mem _ member)
    rcases found with ⟨-, same⟩ | ⟨file, -, disk, session, remaining, -⟩
    · rw [same]
      exact ⟨exclusive, later, writing⟩
    · refine ⟨disk ▸ exclusive.erase path, remaining ▸ later, ?_⟩
      intro q running
      obtain ⟨c, writes⟩ := writing q (session.symm.trans running)
      exact ⟨c, disk ▸ writes.erase (listed path List.mem_cons_self)⟩

theorem Sound.step (sound : Sound cfg s) (effect : Effect cfg s e t) : Sound cfg t := by
  obtain ⟨exclusive, listed, writing⟩ := sound
  cases effect with
  | start n idle usable =>
    refine ⟨exclusive.fopen usable _, listed, ?_⟩
    intro q running
    cases Option.some.inj running
    exact ⟨n, Writes.fresh (d := { s.disk with sessions := s.disk.sessions + 1 }) usable {}
      fun k low => absurd low (Nat.not_lt_zero k)⟩
  | append q e record locked running =>
    obtain ⟨c, writes⟩ := writing q running
    refine ⟨exclusive, listed, ?_⟩
    intro q' running'
    cases Option.some.inj running'
    exact ⟨c, writes.append record locked⟩
  | missed check => exact ⟨exclusive, listed, writing⟩
  | kept q c check running writes small =>
    refine ⟨exclusive.write writes.present _, listed, ?_⟩
    intro q' running'
    cases Option.some.inj running'
    exact ⟨c, writes.written⟩
  | rotated q c n running writes large usable =>
    refine ⟨((exclusive.write writes.present _).finalise _).fopen usable _, listed, ?_⟩
    intro q' running'
    cases Option.some.inj running'
    exact ⟨n, Writes.fresh usable (flushed q) writes.behind_rotated⟩
  | lost q running => exact ⟨exclusive, listed, fun q' none => absurd none (by simp)⟩
  | closed q c running writes =>
    exact ⟨exclusive.write writes.present _, listed, fun q' none => absurd none (by simp)⟩
  | listed files found =>
    refine ⟨exclusive, ?_, writing⟩
    intro path member
    exact (mem_getAllLogFiles (found.mem_iff.mp member)).2.2
  | crawled result => exact Sound.crawlNext ⟨exclusive, listed, writing⟩ result

theorem sound_of_run {directory : Directory cfg} (run : (sessions cfg directory).Run es s) :
    Sound cfg s :=
  run.invariant (fun sound stepped => sound.step (sound.effect stepped)) (Sound.init directory)

end Gearsdk.Qlogfile
