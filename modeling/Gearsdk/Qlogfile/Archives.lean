import Gearsdk.Qlogfile.Segments

/-! The directories that the crawler moves finalised files to. -/
namespace Gearsdk
open Std Qstring OrderedMap Transition.Machine

namespace Fs

theorem parentPath_append_filename (path : Qstring) : parentPath path ++ filename path = path :=
  List.rdropWhile_append_rtakeWhile

theorem filename_append {suffix : Qstring} (path : Qstring) (plain : 47 ∉ suffix) :
    filename (path ++ suffix) = filename path ++ suffix := by
  have within : ∀ byte ∈ suffix.reverse, decide (byte ≠ 47) = true := by
    intro byte member
    refine decide_eq_true fun same => plain ?_
    exact same ▸ List.mem_reverse.mp member
  rw [filename, filename, List.rtakeWhile, List.reverse_append, List.takeWhile_append_of_pos within,
    List.reverse_append, List.reverse_reverse, List.rtakeWhile]

theorem parentPath_append {suffix : Qstring} (path : Qstring) (plain : 47 ∉ suffix) :
    parentPath (path ++ suffix) = parentPath path := by
  have whole := parentPath_append_filename (path ++ suffix)
  rw [filename_append path plain, ← List.append_assoc] at whole
  exact List.append_cancel_right
    ((List.append_cancel_right whole).trans (parentPath_append_filename path).symm)

theorem path_ext (parents : parentPath a = parentPath b) (names : filename a = filename b) :
    a = b := by
  rw [← parentPath_append_filename a, ← parentPath_append_filename b, parents, names]

end Fs

namespace Qlogfile
variable {cfg : Config} {directory : Directory cfg}

/-- The part of a version's path behind the configured path has no separator. -/
theorem version_plain (n : Nat) (plain : 47 ∉ extension) :
    47 ∉ 45 :: (unsigned (n / minorVersionResetAt) ++
      45 :: (unsigned (n % minorVersionResetAt) ++ extension)) := by
  have digits : ∀ k, 47 ∉ unsigned k := not_mem_unsigned rfl
  simp only [List.mem_cons, List.mem_append, digits, plain, or_false]
  decide

theorem extension_plain : 47 ∉ literal ".tmp" ∧ 47 ∉ literal ".log" := by decide +kernel

theorem parentPath_logPath (cfg : Config) (n : Nat) :
    Fs.parentPath (logPath cfg n) = Fs.parentPath (cString cfg.logfilePath) :=
  Fs.parentPath_append _ (version_plain n extension_plain.2)

theorem filename_log {path : Qstring} (extension : literal ".log" <:+ path) :
    literal ".log" <:+ Fs.filename path := by
  obtain ⟨front, rfl⟩ := extension
  rw [Fs.filename_append front extension_plain.2]
  exact List.suffix_append _ _

theorem filename_tmpPath (cfg : Config) (n : Nat) :
    ¬ literal ".log" <:+ Fs.filename (tmpPath cfg n) := fun extension =>
  tmpPath_not_log cfg n (extension.trans (List.rtakeWhile_suffix _ _))

/-- Every file that the crawler has moved is still where it was moved to, and no two
were moved to one place. -/
structure Kept (s : State) : Prop where
  present : ∀ m ∈ s.moved, (s.archive m.archive)[m.name]? = some m.file
  apart : (s.moved.map fun m => (m.archive, m.name)).Nodup

/-- No file of the name that the crawler moves next has been moved to the same
directory after another session had finalised it. -/
def Unshared (s : State) (e : Event) : Prop :=
  ∀ result path pending, e = .parsed result → s.pending = path :: pending →
    ∀ file : LogFile, s.disk.files[path]? = some file →
    ∀ m ∈ s.moved, m.archive = result → m.name = Fs.filename path → m.file.session = file.session

/-- The running session has finalised a file of this version. -/
def Finalised (cfg : Config) (s : State) (k : Nat) : Prop :=
  (∃ m ∈ s.moved, m.file.session = s.disk.sessions ∧ m.name = Fs.filename (logPath cfg k)) ∨
    ∃ file : LogFile, s.disk.files[logPath cfg k]? = some file ∧ file.session = s.disk.sessions

/-- The files of a directory and those moved from it share no name and session. -/
def Distinct (cfg : Config) (moved : List Moved) (files : TreeMap Qstring LogFile) : Prop :=
  ∀ m ∈ moved, ∀ (path : Qstring) (file : LogFile), files[path]? = some file →
    Fs.parentPath path = Fs.parentPath (cString cfg.logfilePath) → m.name = Fs.filename path →
      m.file.session ≠ file.session

def Bounded (files : TreeMap Qstring LogFile) (count : Nat) : Prop :=
  ∀ (path : Qstring) (file : LogFile), files[path]? = some file → file.session ≤ count

/-- What keeps the names of one session apart, whether the files have been moved or not. -/
structure Stamped (cfg : Config) (s : State) : Prop where
  pending : ∀ path ∈ s.pending, Fs.parentPath path = Fs.parentPath (cString cfg.logfilePath)
  names : ∀ m ∈ s.moved, literal ".log" <:+ m.name
  moved : ∀ m ∈ s.moved, m.file.session ≤ s.disk.sessions
  files : Bounded s.disk.files s.disk.sessions
  distinct : Distinct cfg s.moved s.disk.files
  behind : ∀ c, Current cfg s c → ∀ k, Finalised cfg s k → k < c

theorem Distinct.insert {path : Qstring} {file : LogFile} (distinct : Distinct cfg moved files)
    (new : ∀ m ∈ moved, m.name = Fs.filename path → m.file.session ≠ file.session) :
    Distinct cfg moved (files.insert path file) := by
  intro m member path' file' found parent name
  rw [lookup_insert] at found
  split at found
  · rename_i same
    subst same
    cases Option.some.inj found
    exact new m member name
  · exact distinct m member path' file' found parent name

theorem Distinct.erase (distinct : Distinct cfg moved files) (path : Qstring) :
    Distinct cfg moved (files.erase path) := by
  intro m member path' file' found parent name
  rw [lookup_erase] at found
  split at found
  · contradiction
  · exact distinct m member path' file' found parent name

theorem Bounded.insert {path : Qstring} {file : LogFile} (bounded : Bounded files count)
    (new : file.session ≤ count) :
    Bounded (files.insert path file) count := by
  intro path' file' found
  rw [lookup_insert] at found
  split at found
  · cases Option.some.inj found
    exact new
  · exact bounded path' file' found

theorem Bounded.erase (bounded : Bounded files count) (path : Qstring) :
    Bounded (files.erase path) count := by
  intro path' file' found
  rw [lookup_erase] at found
  split at found
  · contradiction
  · exact bounded path' file' found

/-- An open file has no name that has been moved. -/
theorem Stamped.opening (stamped : Stamped cfg s) (n : Nat) (file : LogFile) :
    ∀ m ∈ s.moved, m.name = Fs.filename (tmpPath cfg n) → m.file.session ≠ file.session :=
  fun m member name =>
  absurd (name ▸ stamped.names m member) (filename_tmpPath cfg n)

theorem Finalised.congr {s t : State} (finalised : Finalised cfg t k) (moved : t.moved = s.moved)
    (count : t.disk.sessions = s.disk.sessions)
    (files : t.disk.files[logPath cfg k]? = s.disk.files[logPath cfg k]?) :
    Finalised cfg s k := by
  rwa [Finalised, moved, count, files] at finalised

/-- A crawled file goes to the archives under the name that it had. -/
theorem Stamped.archived {s t : State} (sound : Sound cfg s) (stamped : Stamped cfg s)
    (pending : s.pending = path :: rest) (found : s.disk.files[path]? = some file)
    (disk : t.disk = { s.disk with files := s.disk.files.erase path })
    (session : t.session = s.session) (remaining : t.pending = rest)
    (moved : t.moved = s.moved ++ [⟨result, Fs.filename path, file⟩]) : Stamped cfg t := by
  have parent := stamped.pending path (pending ▸ List.mem_cons_self)
  have erased : ∀ name kept, (s.disk.files.erase path)[name]? = some kept → path ≠ name ∧
      s.disk.files[name]? = some kept := by
    intro name kept present
    rw [lookup_erase] at present
    split at present
    · contradiction
    · exact ⟨‹_›, present⟩
  refine ⟨?_, ?_, ?_, ?_, ?_, ?_⟩
  · rw [remaining]
    exact fun name member => stamped.pending name (pending ▸ List.mem_cons_of_mem _ member)
  · rw [moved]
    intro m member
    rcases List.mem_append.mp member with earlier | last
    · exact stamped.names m earlier
    · obtain rfl := List.mem_singleton.mp last
      exact filename_log (sound.pending path (pending ▸ List.mem_cons_self))
  · rw [moved, disk]
    intro m member
    rcases List.mem_append.mp member with earlier | last
    · exact stamped.moved m earlier
    · obtain rfl := List.mem_singleton.mp last
      exact stamped.files path file found
  · rw [disk]
    exact stamped.files.erase path
  · rw [moved, disk]
    intro m member name kept present parents names
    obtain ⟨other, present⟩ := erased name kept present
    rcases List.mem_append.mp member with earlier | last
    · exact stamped.distinct m earlier name kept present parents names
    · obtain rfl := List.mem_singleton.mp last
      exact absurd (Fs.path_ext (parent.trans parents.symm) names) other
  · intro c now k finalised
    refine stamped.behind c ((current_congr session).mp now) k ?_
    rw [Finalised, moved, disk] at finalised
    rcases finalised with ⟨m, member, session, name⟩ | ⟨kept, present, session⟩
    · rcases List.mem_append.mp member with earlier | last
      · exact .inl ⟨m, earlier, session, name⟩
      · obtain rfl := List.mem_singleton.mp last
        obtain rfl := Fs.path_ext (parent.trans (parentPath_logPath cfg k).symm) name
        exact .inr ⟨file, found, session⟩
    · exact .inr ⟨kept, (erased _ kept present).2, session⟩

theorem Stamped.step (sound : Sound cfg s) (stamped : Stamped cfg s) (effect : Effect cfg s e t) :
    Stamped cfg t := by
  cases effect with
  | start n idle usable =>
    refine ⟨stamped.pending, stamped.names, fun m member =>
      Nat.le_succ_of_le (stamped.moved m member), ?_, ?_, ?_⟩
    · exact Bounded.insert (fun path file found =>
        Nat.le_succ_of_le (stamped.files path file found)) (Nat.le_refl _)
    · exact stamped.distinct.insert (stamped.opening n _)
    · rintro c - k (⟨m, member, session, -⟩ | ⟨file, found, session⟩)
      · exact absurd (stamped.moved m member) (by rw [session]; exact Nat.not_succ_le_self _)
      · rw [fopen_other _ n (logPath_log cfg k)] at found
        exact absurd (stamped.files _ file found) (by rw [session]; exact Nat.not_succ_le_self _)
  | append q e record locked running logged =>
    refine ⟨stamped.pending, stamped.names, stamped.moved, stamped.files, stamped.distinct, ?_⟩
    rintro c ⟨q', running', path⟩ k finalised
    cases Option.some.inj running'
    refine stamped.behind c ⟨q, running, ?_⟩ k finalised
    cases locked <;> exact path
  | missed check => exact stamped
  | kept q c check running writes small =>
    refine ⟨stamped.pending, stamped.names, stamped.moved, stamped.files.insert (Nat.le_refl _),
      stamped.distinct.insert (stamped.opening c _), ?_⟩
    rintro c' ⟨q', running', path⟩ k finalised
    cases Option.some.inj running'
    exact stamped.behind c' ⟨q, running,
      path⟩ k (finalised.congr rfl rfl (fprintf_other _ c _ (logPath_log cfg k)))
  | rotated q c n running writes large usable =>
    have current : Current cfg s c := ⟨q, running, writes.path⟩
    have new : ∀ m ∈ s.moved, m.name = Fs.filename (logPath cfg c) →
      m.file.session ≠ s.disk.sessions :=
      fun m member name session =>
        Nat.lt_irrefl c (stamped.behind c current c (.inl ⟨m, member, session, name⟩))
    refine ⟨stamped.pending, stamped.names, stamped.moved, ?_, ?_, ?_⟩
    · exact (((stamped.files.insert (Nat.le_refl _)).erase _).insert (Nat.le_refl _)).insert
        (Nat.le_refl _)
    · exact (((stamped.distinct.insert (stamped.opening c _)).erase _).insert new).insert
        (stamped.opening n _)
    · intro c' now k finalised
      rw [current_opened] at now
      subst now
      have before : k = c ∨ Finalised cfg s k := by
        by_cases same : k = c
        · exact .inl same
        · have files : ((Qlogfile.rotated cfg s.disk q c).fopen (tmpPath cfg c')).files[logPath cfg k]? =
              s.disk.files[logPath cfg k]? := by
            rw [fopen_other _ c' (logPath_log cfg k), rotated_lookup,
              if_neg fun eq => same (logPath_inj eq).symm, if_neg (tmpPath_ne_logPath cfg c k)]
          exact .inr (finalised.congr rfl rfl files)
      rcases before with rfl | before
      · exact usable.later
      · exact Nat.lt_trans (stamped.behind c current k before) usable.later
  | lost q running =>
    exact ⟨stamped.pending, stamped.names, stamped.moved, stamped.files, stamped.distinct,
      fun c now => absurd now (not_current rfl c)⟩
  | closed q c running writes =>
    exact ⟨stamped.pending, stamped.names, stamped.moved, stamped.files.insert (Nat.le_refl _),
      stamped.distinct.insert (stamped.opening c _), fun c now => absurd now (not_current rfl c)⟩
  | listed files found =>
    refine ⟨?_, stamped.names, stamped.moved, stamped.files, stamped.distinct, stamped.behind⟩
    intro path member
    exact (mem_getAllLogFiles (found.mem_iff.mp member)).2.1
  | crawled result =>
    rcases crawlNext_cases s result with ⟨-, same⟩ | ⟨path, rest, pending,
      ⟨-, same⟩ | ⟨file, found, disk, session, remaining, moved, -⟩⟩
    · rw [same]
      exact stamped
    · rw [same]
      exact ⟨fun name member => stamped.pending name (pending ▸ List.mem_cons_of_mem _ member),
        stamped.names, stamped.moved,
        stamped.files, stamped.distinct, stamped.behind⟩
    · exact Stamped.archived sound stamped pending found disk session remaining moved

theorem Stamped.init (directory : Directory cfg) : Stamped cfg (sessions cfg directory).init where
  pending := fun _ member => absurd member List.not_mem_nil
  names := fun _ member => absurd member List.not_mem_nil
  moved := fun _ member => absurd member List.not_mem_nil
  files := fun path file found => Nat.le_of_eq (directory.original path file found)
  distinct := fun _ member => absurd member List.not_mem_nil
  behind := fun c now => absurd now (not_current rfl c)

theorem stamped_of_run (run : (sessions cfg directory).Run es s) : Stamped cfg s :=
  (run.invariant (P := fun s => Sound cfg s ∧ Stamped cfg s)
    (fun both stepped => ⟨both.1.step (both.1.effect stepped),
      both.2.step both.1 (both.1.effect stepped)⟩)
    ⟨Sound.init directory, Stamped.init directory⟩).2

/-- Only the crawler touches what has been moved. -/
theorem Effect.archives (effect : Effect cfg s e t) :
    ((∀ result, e ≠ .parsed result) ∧ t.moved = s.moved ∧ t.archive = s.archive) ∨
      ∃ result, e = .parsed result ∧ t = s.crawlNext result := by
  cases effect with
  | crawled result => exact .inr ⟨result, rfl, rfl⟩
  | append q e record locked running logged =>
    refine .inl ⟨?_, rfl, rfl⟩
    rintro result rfl
    contradiction
  | start | missed | kept | rotated | lost | closed | listed =>
    exact .inl ⟨fun _ => Event.noConfusion, rfl, rfl⟩

theorem Kept.congr (kept : Kept s) (moved : t.moved = s.moved) (archive : t.archive = s.archive) :
    Kept t := by
  refine ⟨?_, ?_⟩
  · rw [moved, archive]
    exact kept.present
  · rw [moved]
    exact kept.apart

/-- A file that is moved replaces another one where its name has been moved before. -/
theorem kept_crawled {path : Qstring} {file : LogFile} (kept : Kept s)
    (moved : t.moved = s.moved ++ [⟨result, Fs.filename path, file⟩])
    (archives : ∀ archive, t.archive archive =
      if archive = result then (s.archive result).insert (Fs.filename path) file
        else s.archive archive) :
    Kept t ↔ ∀ m ∈ s.moved, m.archive = result → m.name ≠ Fs.filename path := by
  constructor
  · rintro ⟨-, apart⟩ m member archive name
    rw [moved, List.map_append, List.nodup_append] at apart
    refine apart.2.2 (result, Fs.filename path) ?_ (result,
      Fs.filename path) (List.mem_singleton_self _) rfl
    exact List.mem_map.mpr ⟨m, member, by rw [archive, name]⟩
  · intro free
    refine ⟨?_, ?_⟩
    · rw [moved]
      intro m member
      rw [archives]
      rcases List.mem_append.mp member with earlier | last
      · split
        · rename_i same
          rw [lookup_insert_ne _ _ (Ne.symm (free m earlier same)), ← same]
          exact kept.present m earlier
        · exact kept.present m earlier
      · obtain rfl := List.mem_singleton.mp last
        rw [if_pos rfl, lookup_insert, if_pos rfl]
    · rw [moved, List.map_append, List.nodup_append]
      refine ⟨kept.apart, List.pairwise_singleton _ _, ?_⟩
      intro a earlier b last same
      obtain rfl := List.mem_singleton.mp last
      obtain ⟨m, member, rfl⟩ := List.mem_map.mp earlier
      obtain ⟨archive, name⟩ := Prod.mk.inj same
      exact free m member archive name

theorem kept_step (stamped : Stamped cfg s) (effect : Effect cfg s e t) (kept : Kept s) :
    Kept t ↔ Unshared s e := by
  rcases effect.archives with ⟨other, moved, archive⟩ | ⟨result, rfl, rfl⟩
  · exact iff_of_true (kept.congr moved archive) fun result _ _ same => absurd same (other result)
  · rcases crawlNext_cases s result with ⟨pending, same⟩ | ⟨path, rest, pending,
      ⟨gone, same⟩ | ⟨file, found, -, -, -, moved, archives⟩⟩
    · refine iff_of_true (same.symm ▸ kept) ?_
      intro _ path rest _ pending'
      exact absurd (pending.symm.trans pending') (by simp)
    · refine iff_of_true (same ▸ kept.congr rfl rfl) ?_
      intro _ path' rest' _ pending' file found
      obtain ⟨rfl, -⟩ := List.cons.inj (pending.symm.trans pending')
      exact absurd (gone.symm.trans found) (by simp)
    · rw [kept_crawled kept moved archives]
      have parent := stamped.pending path (pending ▸ List.mem_cons_self)
      constructor
      · intro free result' path' rest' same pending' file' found' m member archive name
        cases same
        obtain ⟨rfl, -⟩ := List.cons.inj (pending.symm.trans pending')
        exact absurd name (free m member archive)
      · intro unshared m member archive name
        exact stamped.distinct m member path file found parent name
          (unshared result path rest rfl pending file found m member archive name)

/-- The second session finalises a file under the name of one that has been moved. -/
def reusesName : List Event :=
  leavesOver ++ [.start, .logBuffer (literal "ccccc") true, .flush true true,
    .tryCrawl [logPath (statfile 5) 0], .parsed .crawled]

def unsharedTest (s : State) (e : Event) : Bool :=
  match e, s.pending with
  | .parsed result, path :: _ =>
      (s.disk.files[path]?).all fun file =>
        s.moved.all fun m => m.archive ≠ result || m.name ≠ Fs.filename path ||
          m.file.session = file.session
  | _, _ => true

theorem unshared_of_test (passed : unsharedTest s e = true) : Unshared s e := by
  rintro result path rest rfl pending file found m member archive name
  simp only [unsharedTest, pending, found, Option.all_some, List.all_eq_true] at passed
  simpa [archive, name] using passed m member

end Qlogfile

open Qlogfile in
/-- In a run that starts with empty archives, every file that the crawler has moved
keeps its place if and only if it never moves two files of one name, finalised by
different sessions, to the same directory. -/
theorem archives_kept_iff {cfg : Config} {directory : Directory cfg}
    (run : (sessions cfg directory).Run es s) :
    (sessions cfg directory).Always Kept es ↔ (sessions cfg directory).Meets Unshared es := by
  refine always_iff_meets ⟨fun _ member => absurd member List.not_mem_nil, List.nodup_nil⟩ ?_ run
  intro es s e t before kept last
  exact kept_step (stamped_of_run before) ((sound_of_run before).effect last) kept

open Qlogfile in
theorem archives_kept_iff_leavesOver :
    ∃ s, fiveBytes.Run leavesOver s ∧ fiveBytes.Always Kept leavesOver := by
  have shown : (fiveBytes.exec fiveBytes.init leavesOver).map (fun _ => ()) = some () := by
    decide +kernel
  have passed : fiveBytes.checks unsharedTest fiveBytes.init leavesOver = true := by decide +kernel
  obtain ⟨s, run, -⟩ := exec_observe shown
  have meets : fiveBytes.Meets Unshared leavesOver :=
    fun fs e t inside path => meets_of_checks (fun _ _ => unshared_of_test) passed inside path
  exact ⟨s, run, (archives_kept_iff run).mpr meets⟩

open Qlogfile in
/-- The first file is gone from the directory of crawled files. -/
theorem archived_file_replaced : ∃ s, fiveBytes.Run reusesName s ∧
    s.moved = [⟨.crawled, literal "q_statfile-0-0.log", { content := literal "aaaaa\n", session := 1 }⟩,
      ⟨.crawled, literal "q_statfile-0-0.log", { content := literal "ccccc\n", session := 2 }⟩] ∧
    s.crawled.toList = [(literal "q_statfile-0-0.log",
      { content := literal "ccccc\n", session := 2 })] ∧ ¬ Kept s := by
  have shown : (fiveBytes.exec fiveBytes.init reusesName).map (fun s => (s.moved, s.crawled.toList)) =
      some ([⟨.crawled, literal "q_statfile-0-0.log", { content := literal "aaaaa\n", session := 1 }⟩,
        ⟨.crawled, literal "q_statfile-0-0.log", { content := literal "ccccc\n", session := 2 }⟩],
        [(literal "q_statfile-0-0.log", { content := literal "ccccc\n", session := 2 })]) := by
          decide +kernel
  obtain ⟨s, run, same⟩ := exec_observe shown
  obtain ⟨moved, crawled⟩ := Prod.mk.inj same
  refine ⟨s, run, moved, crawled, fun kept => ?_⟩
  have apart := kept.apart
  rw [moved] at apart
  exact absurd apart (by simp)

end Gearsdk
