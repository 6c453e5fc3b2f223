import Gearsdk.Qlogfile.Segments

/-! What becomes of the files that a session leaves open. -/
namespace Gearsdk
open Std Qstring OrderedMap Transition.Machine

namespace Qlogfile
variable {cfg : Config} {directory : Directory cfg}

/-- The search for a file always ends, so that no call fails. -/
theorem Sound.progress (directory : Directory cfg) (sound : Sound cfg s)
    (possible : enabled cfg s e) : ∃ t, (sessions cfg directory).Step s e t := by
  cases e with
  | start =>
    obtain ⟨n, -, constructed⟩ := construct_eq cfg s.disk
    exact ⟨_, possible, by simp only [sessions, Qlogfile.step, constructed]; rfl⟩
  | log => exact ⟨_, possible, rfl⟩
  | logBuffer => exact ⟨_, possible, rfl⟩
  | flush check locked =>
    obtain ⟨q, running⟩ := Option.ne_none_iff_exists'.mp possible
    obtain ⟨c, writes⟩ := sound.writing q running
    cases locked with
    | false => exact ⟨_, possible, by simp only [sessions, Qlogfile.step, running]; rfl⟩
    | true =>
      rcases flush_locked writes check with ⟨-, result⟩ | ⟨-, -, n, -, result⟩
      · exact ⟨_, possible, by simp only [sessions, Qlogfile.step, running, result]; rfl⟩
      · exact ⟨_, possible, by simp only [sessions, Qlogfile.step, running, result]; rfl⟩
  | shutdown locked =>
    obtain ⟨q, running⟩ := Option.ne_none_iff_exists'.mp possible
    cases locked <;> exact ⟨_, possible, by simp only [sessions, Qlogfile.step, running]; rfl⟩
  | tryCrawl files => exact ⟨_, possible, rfl⟩
  | parsed result => exact ⟨_, possible, rfl⟩

/-- The file of this version is finalised by any session, the running or else the
next one, that rotates often enough. -/
def Due (cfg : Config) (directory : Directory cfg) (s : State) (n : Nat) : Prop :=
  ∃ enough, ∀ es t new, (sessions cfg directory).Reaches s es t →
    (∀ locked, .shutdown locked ∉ es) →
    t.disk.history = s.disk.history ++ new → enough ≤ (finalisedNames new).length →
    (tmpPath cfg n, logPath cfg n) ∈ finalisedNames new

/-- Every open file that holds records is written to, or will be finalised. -/
def NoneStranded (cfg : Config) (directory : Directory cfg) (s : State) : Prop :=
  ∀ n file, s.disk.files[tmpPath cfg n]? = some file → file.content ≠ [] → Current cfg s n ∨
    Due cfg directory s n

/-- What the search at start-up, and at a rotation, stops at. -/
def Below (cfg : Config) (s : State) : Prop :=
  ∀ n file, s.disk.files[tmpPath cfg n]? = some file → file.content ≠ [] →
    Current cfg s n ∨ file.content.length < cfg.maxSizeOfFile

theorem Usable.below (usable : Usable cfg files start n)
    (found : files[tmpPath cfg n]? = some file) :
    file.content.length < cfg.maxSizeOfFile := by
  rcases usable.stops with ⟨leftover, present, small⟩ | ⟨absent, -⟩
  · cases Option.some.inj (found.symm.trans present)
    exact small
  · exact absurd (mem_of_lookup found) absent

/-- A file that no session writes to, before or after, is left alone. -/
theorem Effect.frame (sound : Sound cfg s) (effect : Effect cfg s e t) (before : ¬ Current cfg s n)
    (after : ¬ Current cfg t n) :
    t.disk.files[tmpPath cfg n]? = s.disk.files[tmpPath cfg n]? := by
  have away : ∀ {q c}, s.session = some q → Writes cfg s.disk q c → c ≠ n :=
    fun running writes same =>
    before ((current_iff running writes).mpr same.symm)
  cases effect with
  | start k idle usable =>
    rw [current_opened] at after
    rw [fopen_tmpPath, if_neg (Ne.symm after)]
  | append | missed | listed | lost => rfl
  | kept q c check running writes small => rw [fprintf_tmpPath, if_neg (away running writes)]
  | rotated q c k running writes large usable =>
    rw [current_opened] at after
    rw [fopen_tmpPath, if_neg (Ne.symm after), rotated_tmpPath, if_neg (away running writes)]
  | closed q c running writes => rw [fprintf_tmpPath, if_neg (away running writes)]
  | crawled result => exact crawlNext_lookup sound.pending result n

/-- Which file a session writes to changes only where one is opened. -/
theorem Effect.current (effect : Effect cfg s e t) (before : ¬ Current cfg s n)
    (after : Current cfg t n) :
    ∃ files start, Usable cfg files start n ∧
      files[tmpPath cfg n]? = s.disk.files[tmpPath cfg n]? := by
  cases effect with
  | start k idle usable =>
    rw [current_opened] at after
    subst after
    exact ⟨_, _, usable, rfl⟩
  | rotated q c k running writes large usable =>
    rw [current_opened] at after
    subst after
    have other : c ≠ n := fun same => before ((current_iff running writes).mpr same.symm)
    exact ⟨_, _, usable, by rw [rotated_tmpPath, if_neg other]⟩
  | append q e record locked running logged =>
    obtain ⟨q', running', path⟩ := after
    cases Option.some.inj running'
    refine absurd ⟨q, running, ?_⟩ before
    cases locked <;> exact path
  | missed | listed => exact absurd after before
  | kept q c check running writes small =>
    obtain ⟨q', running', path⟩ := after
    cases Option.some.inj running'
    exact absurd ⟨q, running, path⟩ before
  | lost q running => exact absurd after (not_current rfl n)
  | closed q c running writes => exact absurd after (not_current rfl n)
  | crawled result => exact absurd ((current_congr (crawlNext_session s result)).mp after) before

theorem Effect.opens (effect : Effect cfg s e t) (before : ¬ Current cfg s n)
    (after : Current cfg t n) (found : s.disk.files[tmpPath cfg n]? = some file) :
    file.content.length < cfg.maxSizeOfFile := by
  obtain ⟨files, start, usable, same⟩ := effect.current before after
  exact usable.below (same.trans found)

/-- Where a session leaves its file without shutting down, the file is finalised. -/
theorem Effect.leaves (effect : Effect cfg s e t) (session : ∀ locked, e ≠ .shutdown locked)
    (before : Current cfg s n) (after : ¬ Current cfg t n) :
    t.disk.files[tmpPath cfg n]? = none := by
  obtain ⟨q, running, path⟩ := before
  cases effect with
  | start k idle usable => exact absurd (idle.symm.trans running) (by simp)
  | rotated q' c k running' writes large usable =>
    cases Option.some.inj (running.symm.trans running')
    obtain rfl := tmpPath_inj (writes.path.symm.trans path)
    rw [current_opened] at after
    rw [fopen_tmpPath, if_neg (Ne.symm after), rotated_tmpPath, if_pos rfl]
  | append q' e record locked running' logged =>
    cases Option.some.inj (running.symm.trans running')
    refine absurd ⟨_, rfl, ?_⟩ after
    cases locked <;> exact path
  | missed | listed => exact absurd ⟨q, running, path⟩ after
  | kept q' c check running' writes small =>
    cases Option.some.inj (running.symm.trans running')
    exact absurd ⟨_, rfl, path⟩ after
  | lost => exact absurd rfl (session false)
  | closed => exact absurd rfl (session true)
  | crawled result => exact absurd ⟨q, (crawlNext_session s result).trans running, path⟩ after

/-- What the open file holds after a shutdown. -/
def closingSize (q : Qlogfile) (locked : Bool) : Nat :=
  q.logfileSize + if locked then (q.records ++ q.recordsWaiting).flatten.length else 0

/-- A clean shutdown leaves a file that is empty or below the limit. -/
def ClosesBelow (cfg : Config) (s : State) (e : Event) : Prop :=
  ∀ locked q, e = .shutdown locked → s.session = some q → closingSize q locked = 0 ∨
    closingSize q locked < cfg.maxSizeOfFile

theorem Effect.closing (sound : Sound cfg s) (effect : Effect cfg s (.shutdown locked) t)
    (running : s.session = some q) :
    t.session = none ∧ ∃ c file, Writes cfg s.disk q c ∧ t.disk.files[tmpPath cfg c]? = some file ∧
      file.content.length = closingSize q locked := by
  cases effect with
  | append _ _ _ _ _ logged => contradiction
  | lost q' running' =>
    cases Option.some.inj (running.symm.trans running')
    obtain ⟨c, writes⟩ := sound.writing q running
    obtain ⟨file, found, -, size⟩ := writes.opened
    exact ⟨rfl, c, file, writes, found, size⟩
  | closed q' c running' writes =>
    cases Option.some.inj (running.symm.trans running')
    refine ⟨rfl, c, _, writes, (fprintf_tmpPath _ c c _).trans (if_pos rfl), ?_⟩
    rw [List.length_append, ← writes.size]
    rfl

/-- Among the steps only a shutdown can leave a large file behind. -/
theorem Below.step (sound : Sound cfg s) (effect : Effect cfg s e t) (below : Below cfg s) :
    Below cfg t ↔ ClosesBelow cfg s e := by
  have others : ∀ n file, t.disk.files[tmpPath cfg n]? = some file → file.content ≠ [] →
    ¬ Current cfg s n →
      Current cfg t n ∨ file.content.length < cfg.maxSizeOfFile := by
    intro n file found filled before
    by_cases after : Current cfg t n
    · exact .inl after
    · rw [effect.frame sound before after] at found
      exact .inr ((below n file found filled).resolve_left before)
  by_cases session : ∀ locked, e ≠ .shutdown locked
  · refine iff_of_true ?_ fun locked q same => absurd same (session locked)
    intro n file found filled
    by_cases before : Current cfg s n
    · by_cases after : Current cfg t n
      · exact .inl after
      · exact absurd (found.symm.trans (effect.leaves session before after)) (by simp)
    · exact others n file found filled before
  · simp only [ne_eq, not_forall, not_not] at session
    obtain ⟨locked, rfl⟩ := session
    obtain ⟨q, running⟩ : ∃ q, s.session = some q := by
      cases effect with
      | append q _ _ _ running | lost q running | closed q _ running => exact ⟨q, running⟩
    obtain ⟨idle, c, closed, writes, found, size⟩ := effect.closing sound running
    constructor
    · intro after locked' q' same running'
      cases same
      cases Option.some.inj (running.symm.trans running')
      by_cases empty : closed.content = []
      · exact .inl (size.symm.trans (List.length_eq_zero_iff.mpr empty))
      · exact .inr (size ▸ (after c closed found empty).resolve_left (not_current idle c))
    · intro closes n file found' filled
      right
      by_cases before : Current cfg s n
      · obtain rfl := (current_iff running writes).mp before
        cases Option.some.inj (found.symm.trans found')
        rcases closes locked q rfl running with empty | small
        · exact absurd (List.length_eq_zero_iff.mp (size.trans empty)) filled
        · exact size ▸ small
      · exact (others n file found' filled before).resolve_left (not_current idle n)

/-- How far the running session has come. -/
def position (s : State) : Nat := (s.session.map next).getD 0

/-- A step within a session finalises the file that it leaves and no other, and
comes to a later version for each file that it finalises. -/
theorem Effect.advance (effect : Effect cfg s e t) (session : ∀ locked, e ≠ .shutdown locked) :
    ∃ new, t.disk.history = s.disk.history ++ new ∧
      position s + (finalisedNames new).length ≤ position t ∧
      (∀ n, Current cfg s n → ¬ Current cfg t n → (tmpPath cfg n, logPath cfg n) ∈ finalisedNames new) ∧
      ∀ n, (tmpPath cfg n, logPath cfg n) ∈ finalisedNames new → Current cfg s n := by
  have quiet : ∀ new, finalisedNames new = [] → t.disk.history = s.disk.history ++ new →
    position s ≤ position t →
      (∀ n, Current cfg s n → Current cfg t n) →
      ∃ new, t.disk.history = s.disk.history ++ new ∧
        position s + (finalisedNames new).length ≤ position t ∧
        (∀ n, Current cfg s n → ¬ Current cfg t n → (tmpPath cfg n, logPath cfg n) ∈ finalisedNames new) ∧
        ∀ n, (tmpPath cfg n, logPath cfg n) ∈ finalisedNames new → Current cfg s n := by
    intro new none history position current
    refine ⟨new, history, by rwa [none], fun n before after => absurd (current n before) after, ?_⟩
    intro n renamed
    rw [none] at renamed
    exact absurd renamed List.not_mem_nil
  cases effect with
  | start k idle usable =>
    refine quiet _ rfl rfl ?_ fun n before => absurd before (not_current idle n)
    simp only [position, idle, Option.map_none, Option.getD_none, Nat.zero_le]
  | append q e record locked running logged =>
    refine quiet [] rfl (List.append_nil _).symm ?_ ?_
    · simp only [position, running]
      cases locked <;> exact Nat.le_refl _
    · rintro n ⟨q', running', path⟩
      cases Option.some.inj (running.symm.trans running')
      refine ⟨_, rfl, ?_⟩
      cases locked <;> exact path
  | missed | listed =>
    exact quiet [] rfl (List.append_nil _).symm (Nat.le_refl _) fun n before => before
  | kept q c check running writes small =>
    refine quiet _ (finalisedNames_written q.records) rfl ?_ ?_
    · simp only [position, running]
      exact Nat.le_refl _
    · rintro n ⟨q', running', path⟩
      cases Option.some.inj (running.symm.trans running')
      exact ⟨_, rfl, path⟩
  | rotated q c k running writes large usable =>
    refine ⟨rotation cfg s.disk q c k, rotated_history s.disk q c k, ?_, ?_, ?_⟩
    · simp only [finalisedNames_rotation, position, running, Option.map_some, Option.getD_some,
        writes.next, List.length_singleton]
      exact Nat.le_trans (Nat.succ_le_succ usable.later)
        (Nat.le_of_eq (positioned_next k : (positioned cfg k q).next = k + 1).symm)
    · intro n before after
      rw [(current_iff running writes).mp before, finalisedNames_rotation]
      exact List.mem_singleton_self _
    · intro n renamed
      rw [finalisedNames_rotation, List.mem_singleton, Prod.mk.injEq] at renamed
      exact (current_iff running writes).mpr (tmpPath_inj renamed.1)
  | lost => exact absurd rfl (session false)
  | closed => exact absurd rfl (session true)
  | crawled result =>
    have session := crawlNext_session s result
    refine quiet [] rfl ?_ (by rw [position, position, session]) fun n =>
      (current_congr session).mpr
    rw [crawlNext_history, List.append_nil]

/-- Along a session, a file below the limit is left alone until it is opened, and is
then written to until it is finalised. -/
theorem followed (sound : Sound cfg s) (path : (sessions cfg directory).Reaches s es t)
    (session : ∀ locked, .shutdown locked ∉ es) (found : s.disk.files[tmpPath cfg n]? = some file) :
    Sound cfg t ∧ ∃ new, t.disk.history = s.disk.history ++ new ∧
      position s + (finalisedNames new).length ≤ position t ∧
      ((tmpPath cfg n, logPath cfg n) ∈ finalisedNames new ∨ Current cfg t n ∨
        t.disk.files[tmpPath cfg n]? = some file) := by
  induction path with
  | refl =>
    exact ⟨sound, [], (List.append_nil _).symm, Nat.le_refl _, .inr (.inr found)⟩
  | @step es t e u path last ih =>
    simp only [List.mem_append, List.mem_singleton, not_or] at session
    obtain ⟨sound, new, history, positions, state⟩ := ih fun locked => (session locked).1
    have effect := sound.effect last
    have inSession : ∀ locked, e ≠ .shutdown locked :=
      fun locked same => (session locked).2 same.symm
    obtain ⟨later, history', positions', leaves, -⟩ := effect.advance inSession
    refine ⟨sound.step effect, new ++ later, ?_, ?_, ?_⟩
    · rw [history', history, List.append_assoc]
    · rw [finalisedNames_append, List.length_append]
      omega
    · rw [finalisedNames_append, List.mem_append]
      by_cases after : Current cfg u n
      · exact .inr (.inl after)
      · by_cases before : Current cfg t n
        · exact .inl (.inr (leaves n before after))
        · rcases state with renamed | current | kept
          · exact .inl (.inl renamed)
          · exact absurd current before
          · exact .inr (.inr ((effect.frame sound before after).trans kept))

theorem due_of_below (sound : Sound cfg s) (found : s.disk.files[tmpPath cfg n]? = some file)
    (small : file.content.length < cfg.maxSizeOfFile) : Due cfg directory s n := by
  refine ⟨n + 2, ?_⟩
  intro es t new path session history enough
  obtain ⟨sound', new', history', positions, state⟩ := followed sound path session found
  obtain rfl := List.append_cancel_left (history'.symm.trans history)
  have far : n + 2 ≤ position t := by omega
  cases running : t.session with
  | none =>
    rw [position, running] at far
    exact absurd far (by simp)
  | some q =>
    obtain ⟨c, writes⟩ := sound'.writing q running
    rw [position, running, Option.map_some, Option.getD_some, writes.next] at far
    rcases state with renamed | current | kept
    · exact renamed
    · have same := (current_iff running writes).mp current
      omega
    · have large := writes.behind n (by omega) file kept
      omega

/-- A file that has reached the limit is never opened again. -/
theorem stuck (sound : Sound cfg s) (path : (sessions cfg directory).Reaches s es t)
    (session : ∀ locked, .shutdown locked ∉ es) (found : s.disk.files[tmpPath cfg n]? = some file)
    (large : cfg.maxSizeOfFile ≤ file.content.length) (other : ¬ Current cfg s n) :
    Sound cfg t ∧ ¬ Current cfg t n ∧ t.disk.files[tmpPath cfg n]? = some file ∧
      ∃ new, t.disk.history = s.disk.history ++ new ∧
        (tmpPath cfg n, logPath cfg n) ∉ finalisedNames new := by
  induction path with
  | refl => exact ⟨sound, other, found, [], (List.append_nil _).symm, List.not_mem_nil⟩
  | @step es t e u path last ih =>
    simp only [List.mem_append, List.mem_singleton, not_or] at session
    obtain ⟨sound, before, kept, new, history, absent⟩ := ih fun locked => (session locked).1
    have effect := sound.effect last
    obtain ⟨later, history', -, -, only⟩ :=
      effect.advance fun locked same => (session locked).2 same.symm
    have after : ¬ Current cfg u n :=
      fun after => Nat.not_lt.mpr large (effect.opens before after kept)
    refine ⟨sound.step effect, after, (effect.frame sound before after).trans kept,
      new ++ later, ?_, ?_⟩
    · rw [history', history, List.append_assoc]
    · rw [finalisedNames_append, List.mem_append, not_or]
      exact ⟨absent, fun renamed => before (only n renamed)⟩

/-- A record that no file has room for. -/
def longBuffer (cfg : Config) : Qstring := List.replicate cfg.maxSizeOfFile 97

theorem longBuffer_record (cfg : Config) :
    (bufferRecord (longBuffer cfg)).length = cfg.maxSizeOfFile + 1 := by
  have clean : cString (longBuffer cfg) = longBuffer cfg := by
    apply cString_of_nul_free
    intro byte member
    obtain ⟨-, rfl⟩ := List.mem_replicate.mp member
    decide
  rw [bufferRecord, clean, List.length_append, longBuffer, List.length_replicate,
    List.length_singleton]

/-- A running session can always be made to rotate. -/
theorem Sound.rotates (directory : Directory cfg) (sound : Sound cfg s)
    (running : s.session ≠ none) :
    ∃ es t new, (sessions cfg directory).Reaches s es t ∧ (∀ locked, .shutdown locked ∉ es) ∧
      t.session ≠ none ∧
      t.disk.history = s.disk.history ++ new ∧ 1 ≤ (finalisedNames new).length := by
  obtain ⟨t, logs⟩ := sound.progress directory (e := .logBuffer (longBuffer cfg) true) running
  have sound' := sound.step (sound.effect logs)
  obtain ⟨q, session, history, large⟩ : ∃ q, t.session = some q ∧ t.disk.history = s.disk.history ∧
      (flushed q).logfileSize > cfg.maxSizeOfFile := by
    cases sound.effect logs with
    | append q e record locked running' logged =>
      cases Option.some.inj logged
      refine ⟨_, rfl, rfl, ?_⟩
      simp only [flushed, Qlogfile.append, if_true, List.flatten_append, List.length_append,
        List.flatten_singleton, longBuffer_record]
      omega
  obtain ⟨u, flushes⟩ := sound'.progress directory (e := .flush true true)
    (fun none => Option.some_ne_none q (session.symm.trans none))
  have path := (Reaches.single logs).step flushes
  cases sound'.effect flushes with
  | append _ _ _ _ _ logged => contradiction
  | kept q' c check running' writes small =>
    cases Option.some.inj (session.symm.trans running')
    exact absurd ⟨rfl, large⟩ small
  | rotated q' c n running' writes large' usable =>
    refine ⟨_, _, rotation cfg t.disk q' c n, path, by simp, Option.some_ne_none _, ?_, ?_⟩
    · rw [rotated_history, history]
    · rw [finalisedNames_rotation]
      exact Nat.le_refl 1

theorem Sound.rotatesOften (directory : Directory cfg) (sound : Sound cfg s)
    (running : s.session ≠ none) (enough : Nat) :
    ∃ es t new, (sessions cfg directory).Reaches s es t ∧ (∀ locked, .shutdown locked ∉ es) ∧
      t.session ≠ none ∧
      t.disk.history = s.disk.history ++ new ∧ enough ≤ (finalisedNames new).length := by
  induction enough with
  | zero =>
    exact ⟨[], s, [], .refl s, fun _ => List.not_mem_nil, running, (List.append_nil _).symm,
      Nat.zero_le _⟩
  | succ enough ih =>
    obtain ⟨es, t, new, path, session, running, history, count⟩ := ih
    have sound' := path.invariant (fun sound stepped => sound.step (sound.effect stepped)) sound
    obtain ⟨fs, u, later, path', session', running', history', one⟩ :=
      sound'.rotates directory running
    refine ⟨es ++ fs, u, new ++ later, path.trans path', ?_, running', ?_, ?_⟩
    · intro locked member
      exact (List.mem_append.mp member).elim (session locked) (session' locked)
    · rw [history', history, List.append_assoc]
    · rw [finalisedNames_append, List.length_append]
      omega

theorem not_due (sound : Sound cfg s) (found : s.disk.files[tmpPath cfg n]? = some file)
    (large : cfg.maxSizeOfFile ≤ file.content.length) (other : ¬ Current cfg s n) :
    ¬ Due cfg directory s n := by
  rintro ⟨enough, due⟩
  have running : ∃ es t new, (sessions cfg directory).Reaches s es t ∧
    (∀ locked, .shutdown locked ∉ es) ∧ t.session ≠ none ∧
      t.disk.history = s.disk.history ++ new := by
    by_cases idle : s.session = none
    · obtain ⟨t, started⟩ := sound.progress directory (e := .start) idle
      obtain ⟨new, history, -⟩ := (sound.effect started).advance fun _ => Event.noConfusion
      refine ⟨_, t, new, .single started, by simp, ?_, history⟩
      cases sound.effect started with
      | append _ _ _ _ _ logged => contradiction
      | start k idle usable => exact Option.some_ne_none _
    · exact ⟨[], s, [], .refl s, fun _ => List.not_mem_nil, idle, (List.append_nil _).symm⟩
  obtain ⟨es, t, new, path, session, running, history⟩ := running
  have sound' := path.invariant (fun sound stepped => sound.step (sound.effect stepped)) sound
  obtain ⟨fs, u, later, path', session', -, history', count⟩ :=
    sound'.rotatesOften directory running enough
  have inSession : ∀ locked, .shutdown locked ∉ es ++ fs := fun locked member =>
    (List.mem_append.mp member).elim (session locked) (session' locked)
  have whole : u.disk.history = s.disk.history ++ (new ++ later) := by
    rw [history', history, List.append_assoc]
  obtain ⟨-, -, -, new', history'', absent⟩ :=
    stuck sound (path.trans path') inSession found large other
  obtain rfl := List.append_cancel_left (history''.symm.trans whole)
  refine absent (due _ u _ (path.trans path') inSession whole ?_)
  rw [finalisedNames_append, List.length_append]
  omega

theorem noneStranded_iff (sound : Sound cfg s) : NoneStranded cfg directory s ↔ Below cfg s := by
  constructor
  · intro none n file found filled
    by_cases other : Current cfg s n
    · exact .inl other
    · refine .inr (Nat.lt_of_not_le fun large => ?_)
      exact not_due sound found large other ((none n file found filled).resolve_left other)
  · intro below n file found filled
    exact (below n file found filled).imp_right (due_of_below sound found)

end Qlogfile

open Qlogfile in
/-- In a run that starts without large leftovers, no open file with records is ever
stranded if and only if each shutdown leaves a file that is empty or below the
limit. -/
theorem none_stranded_iff {cfg : Config} {directory : Directory cfg}
    (small : ∀ n file, directory.files[tmpPath cfg n]? = some file → file.content ≠ [] →
      file.content.length < cfg.maxSizeOfFile)
    (run : (sessions cfg directory).Run es s) :
    (sessions cfg directory).Always (NoneStranded cfg directory) es ↔
      (sessions cfg directory).Meets (ClosesBelow cfg) es := by
  refine always_iff_meets ?_ ?_ run
  · rw [noneStranded_iff (Sound.init directory)]
    exact fun n file found filled => .inr (small n file found filled)
  · intro es s e t before none last
    have sound := sound_of_run before
    have effect := sound.effect last
    rw [noneStranded_iff (sound.step effect)]
    exact Below.step sound effect ((noneStranded_iff sound).mp none)

namespace Qlogfile

def closesBelowTest (cfg : Config) (s : State) (e : Event) : Bool :=
  match e, s.session with
  | .shutdown locked, some q => closingSize q locked = 0 || closingSize q locked < cfg.maxSizeOfFile
  | _, _ => true

theorem closesBelow_of_test (passed : closesBelowTest cfg s e = true) : ClosesBelow cfg s e := by
  rintro locked q rfl running
  simpa [closesBelowTest, running] using passed

/-- A file that has just reached the limit when the session ends. -/
def reachesLimit : List Event :=
  [.start, .logBuffer (literal "aaaa") true, .flush true true, .shutdown true, .start]

end Qlogfile

open Qlogfile in
theorem none_stranded_iff_leavesOver :
    ∃ s, fiveBytes.Run leavesOver s ∧
      fiveBytes.Always (NoneStranded (statfile 5) (.empty _)) leavesOver := by
  have shown : (fiveBytes.exec fiveBytes.init leavesOver).map (fun _ => ()) = some () := by
    decide +kernel
  have passed : fiveBytes.checks (closesBelowTest (statfile 5)) fiveBytes.init leavesOver =
    true := by decide +kernel
  obtain ⟨s, run, -⟩ := exec_observe shown
  have meets : fiveBytes.Meets (ClosesBelow (statfile 5)) leavesOver :=
    fun fs e t inside path => meets_of_checks (fun _ _ => closesBelow_of_test) passed inside path
  refine ⟨s, run, (none_stranded_iff ?_ run).mpr meets⟩
  intro n file found
  exact absurd (found.symm.trans (lookup_empty _)) (by simp)

open Qlogfile in
/-- The file is left as it is by the next session, which writes to another one. -/
theorem stranded_at_limit :
    ∃ s, fiveBytes.Run reachesLimit s ∧
      (s.disk.contentOf (tmpPath (statfile 5) 0) = literal "aaaa\n") ∧
    Current (statfile 5) s 1 ∧ ¬ NoneStranded (statfile 5) (.empty _) s := by
  have shown : (fiveBytes.exec fiveBytes.init reachesLimit).map
      (fun s => (s.disk.files[tmpPath (statfile 5) 0]?, s.session.map Qlogfile.currentLogfilePath)) =
      some (some { content := literal "aaaa\n", session := 1 }, some (tmpPath (statfile 5) 1)) := by
        decide +kernel
  obtain ⟨s, run, same⟩ := exec_observe shown
  obtain ⟨found, writing⟩ := Prod.mk.inj same
  obtain ⟨q, running, path⟩ := Option.map_eq_some_iff.mp writing
  refine ⟨s, run, contentOf_lookup found, ⟨q, running, path⟩, ?_⟩
  rw [noneStranded_iff (sound_of_run run)]
  intro below
  rcases below 0 _ found (by decide +kernel) with ⟨q', running', path'⟩ | small
  · cases Option.some.inj (running.symm.trans running')
    exact absurd (tmpPath_inj (path.symm.trans path')) (by decide)
  · exact absurd small (by decide +kernel)

end Gearsdk
