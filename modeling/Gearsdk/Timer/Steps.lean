import Gearsdk.Timer.Loop

/-! What a step of the loop does, and that no step comes to use a timer that has been
destroyed. -/
namespace Gearsdk
namespace TimerLoop

@[simp] theorem State.put_self (s : State) (ptr : Nat) (cell : Cell) :
    (s.put ptr cell).cells ptr = cell := if_pos rfl

theorem State.put_other (s : State) (cell : Cell) (different : other ≠ ptr) :
    (s.put ptr cell).cells other = s.cells other :=
  if_neg different

@[simp] theorem State.put_timers (s : State) (ptr : Nat) (cell : Cell) :
    (s.put ptr cell).timers = s.timers := rfl

@[simp] theorem State.put_put (s : State) (ptr : Nat) (first second : Cell) :
    (s.put ptr first).put ptr second = s.put ptr second := by
  simp only [State.put, State.mk.injEq, and_self, and_true]
  funext other
  split <;> rfl

def Cell.stopped (cell : Cell) (timer : Qtimer) : Cell :=
  { cell with object := some { timer with finished := true }, armed := false }

def Cell.dead (cell : Cell) : Cell :=
  { cell with object := none, armed := false, destroyed := cell.destroyed + 1 }

def Cell.called (cell : Cell) (timer : Qtimer) : Cell :=
  { cell with
    object := some timer.evtimerCb
    calls := cell.calls ++ [timer.evtimerCb.count]
    armed := decide (timer.count = -1 ∨ 1 < timer.count) && decide (timer.delay ≠ 0) }

inductive Effect (s : State) : Event → State → Prop where
  | scheduled (delay : Nat) (count : Int) :
      Effect s (.schedule delay count) (s.scheduleCountTimer delay count)
  | unlisted (timer : Option Nat) : Effect s (.cancelTimer timer) s
  | unfound (timer : Option Nat) : Effect s (.cancelAndDestroyTimer timer) s
  | cancelled (listed : ptr ∈ s.timers) (found : (s.cells ptr).object = some timer) :
      Effect s (.cancelTimer (some ptr)) (s.put ptr ((s.cells ptr).cancelled.stopped timer))
  | removed (listed : ptr ∈ s.timers) (other : s.firing ≠ some ptr) :
      Effect s (.cancelAndDestroyTimer (some ptr))
        { s.put ptr (s.cells ptr).cancelled.dead with timers := s.timers.filter (· ≠ ptr) }
  | fired (idle : s.firing = none) (armed : (s.cells ptr).armed = true)
      (found : (s.cells ptr).object = some timer) :
      Effect s (.expire ptr) { s.put ptr ((s.cells ptr).called timer) with firing := some ptr }
  | returned (firing : s.firing = some ptr) (found : (s.cells ptr).object = some timer)
      (unfinished : timer.finished = false) :
      Effect s .callbackReturns { s with firing := none }
  | finished (firing : s.firing = some ptr) (found : (s.cells ptr).object = some timer)
      (finished : timer.finished = true) :
      Effect s .callbackReturns
        { s.put ptr (s.cells ptr).freed with timers := s.timers.filter (· ≠ ptr), firing := none }
  | destroyed (idle : s.firing = none) :
      Effect s .destroyScheduler
        { s with cells := fun ptr => if ptr ∈ s.timers then (s.cells ptr).dead else s.cells ptr,
                 gone := true }

variable {s t : State} {ptr : Nat} {timer : Qtimer}

theorem State.deref_some (found : (s.cells ptr).object = some timer) : s.deref ptr = .ok timer := by
  simp only [State.deref, found]

/-- A pointer is not used yet, or it is of a timer that is listed, or of one that has
been destroyed. -/
inductive Phase (cell : Cell) (listed firing gone : Prop) : Prop where
  | unborn (blank : cell = {}) (unlisted : ¬ listed) (silent : ¬ firing)
  | live (timer : Qtimer) (n : Int) (found : cell.object = some timer) (listed : listed)
      (here : ¬ gone)
      (scheduled : cell.scheduled = some n) (undestroyed : cell.destroyed = 0)
      (stopped : timer.finished = true → cell.armed = false)
      (counted : Exact n → ∃ k : Nat, k ≤ n ∧ cell.calls = countsDown n k ∧ timer.count = n - k ∧
        (cell.cancelledAfter = none → (timer.finished = true ↔ k = n)))
      (last : timer.finished = true → cell.cancelledAfter = none → firing)
      (silent : ∀ k, cell.cancelledAfter = some k → timer.finished = true ∧ cell.calls.length = k)
  | dead (n : Int) (lost : cell.object = none) (unlisted : listed → gone) (quiet : ¬ firing)
      (disarmed : cell.armed = false)
      (scheduled : cell.scheduled = some n) (destroyed : cell.destroyed = 1)
      (counted : Exact n → ∃ k : Nat, k ≤ n ∧ cell.calls = countsDown n k ∧
        (¬ gone → cell.cancelledAfter = none → k = n))
      (silent : ∀ k, cell.cancelledAfter = some k → cell.calls.length = k)

structure Sound (s : State) : Prop where
  nodup : s.timers.Nodup
  fresh : ∀ ptr, s.allocated ≤ ptr → s.cells ptr = {}
  phase : ∀ ptr, Phase (s.cells ptr) (ptr ∈ s.timers) (s.firing = some ptr) (s.gone = true)

theorem Sound.init : Sound {} :=
  ⟨List.nodup_nil, fun _ _ => rfl, fun _ => .unborn rfl List.not_mem_nil (by simp)⟩

theorem Sound.found_listed (sound : Sound s) (here : s.gone = false) (listed : ptr ∈ s.timers) :
    ∃ timer, (s.cells ptr).object = some timer := by
  cases sound.phase ptr with
  | unborn _ unlisted _ => exact absurd listed unlisted
  | live timer _ found => exact ⟨timer, found⟩
  | dead _ _ unlisted =>
    rw [here] at unlisted
    exact absurd (unlisted listed) Bool.false_ne_true

theorem Sound.found_firing (sound : Sound s) (firing : s.firing = some ptr) :
    ptr ∈ s.timers ∧ ∃ timer, (s.cells ptr).object = some timer := by
  cases sound.phase ptr with
  | unborn _ _ silent => exact absurd firing silent
  | live timer _ found listed => exact ⟨listed, timer, found⟩
  | dead _ _ _ quiet => exact absurd firing quiet

theorem Sound.found_armed (sound : Sound s) (armed : (s.cells ptr).armed = true) :
    ptr ∈ s.timers ∧ ∃ timer, (s.cells ptr).object = some timer := by
  cases sound.phase ptr with
  | unborn blank =>
    rw [blank] at armed
    contradiction
  | live timer _ found listed => exact ⟨listed, timer, found⟩
  | dead _ _ _ _ disarmed =>
    rw [disarmed] at armed
    contradiction

theorem State.stop_found (found : (s.cells ptr).object = some timer) :
    s.stop ptr = .ok (s.put ptr ((s.cells ptr).stopped timer)) := by
  simp only [State.stop, State.deref_some found]
  rfl

/-- A finished timer that is listed is destroyed. -/
theorem State.destroyTimer_found (found : (s.cells ptr).object = some timer)
    (finished : timer.finished = true) (listed : ptr ∈ s.timers) :
    s.destroyTimer ptr = .ok ({ s.put ptr (s.cells ptr).freed with
      timers := s.timers.filter (· ≠ ptr) }, true) := by
  have shorter : (s.timers.filter (· ≠ ptr)).length ≠ s.timers.length := by
    refine Nat.ne_of_lt (List.length_filter_lt_length_iff_exists.mpr ⟨ptr, listed, ?_⟩)
    simp
  have kept : ({ s with timers := s.timers.filter (· ≠ ptr) } : State).deref ptr = .ok timer :=
    State.deref_some (s := { s with timers := s.timers.filter (· ≠ ptr) }) found
  simp only [State.destroyTimer, State.deref_some found, State.delete, kept]
  simp only [bind, Except.bind, finished, Bool.not_true, Bool.false_eq_true, if_false,
    if_pos shorter]
  rfl

theorem State.destroyEach_listed (timers : List Nat) (nodup : timers.Nodup)
    (found : ∀ ptr ∈ timers, ∃ timer, (s.cells ptr).object = some timer) :
    s.destroyEach timers =
      .ok { s with cells := fun ptr => if ptr ∈ timers then (s.cells ptr).dead else s.cells ptr } := by
  induction timers generalizing s with
  | nil => simp [State.destroyEach]
  | cons ptr rest ih =>
    obtain ⟨timer, here⟩ := found ptr List.mem_cons_self
    obtain ⟨absent, rest_nodup⟩ := List.nodup_cons.mp nodup
    have deleted : (s.put ptr ((s.cells ptr).stopped timer)).delete ptr =
        .ok (s.put ptr (s.cells ptr).dead) := by
      have live : (s.put ptr ((s.cells ptr).stopped timer)).deref ptr =
          .ok { timer with finished := true } :=
        State.deref_some (by simp [Cell.stopped])
      simp only [State.delete, live, State.put_self, State.put_put]
      rfl
    have later : ∀ other ∈ rest, ∃ timer, ((s.put ptr (s.cells ptr).dead).cells other).object =
        some timer := by
      intro other member
      have different : other ≠ ptr := by
        rintro rfl
        exact absent member
      rw [State.put_other s _ different]
      exact found other (List.mem_cons_of_mem _ member)
    simp only [State.destroyEach, State.stop_found here]
    simp only [bind, Except.bind, deleted, ih rest_nodup later]
    refine congrArg Except.ok ?_
    simp only [State.put, State.mk.injEq, and_self, and_true]
    funext other
    by_cases same : other = ptr
    · subst same
      simp [absent]
    · simp [same]

/-- A cancelled timer is still there. -/
theorem State.cancelled_found (found : (s.cells ptr).object = some timer) :
    ((s.put ptr (s.cells ptr).cancelled).cells ptr).object = some timer := by
  simpa [Cell.cancelled] using found

/-- Whatever the program may do, no destroyed timer is used, and the step has one of the effects. -/
theorem Sound.effect (sound : Sound s) (possible : ready s e = true) :
    ∃ t, next s e = .ok t ∧ Effect s e t := by
  cases e with
  | schedule delay count => exact ⟨_, rfl, .scheduled delay count⟩
  | cancelTimer timer =>
    cases timer with
    | none => exact ⟨s, rfl, .unlisted none⟩
    | some ptr =>
      simp only [ready, Bool.not_eq_true'] at possible
      simp only [next, State.cancelTimer, State.isTimerPresentInList, decide_eq_true_eq]
      split
      · rename_i listed
        obtain ⟨timer, found⟩ := sound.found_listed possible listed
        rw [State.stop_found (State.cancelled_found found), State.put_self, State.put_put]
        exact ⟨_, rfl, .cancelled listed found⟩
      · exact ⟨s, rfl, .unlisted _⟩
  | cancelAndDestroyTimer timer =>
    cases timer with
    | none => exact ⟨s, rfl, .unfound none⟩
    | some ptr =>
      simp only [ready, Bool.and_eq_true, Bool.not_eq_true', reduceCtorEq, decide_false,
        Bool.false_or, decide_eq_true_eq] at possible
      simp only [next, State.cancelAndDestroyTimer, State.isTimerPresentInList, decide_eq_true_eq]
      split
      · rename_i listed
        obtain ⟨timer, found⟩ := sound.found_listed possible.1 listed
        have stopped : ((s.put ptr ((s.cells ptr).cancelled.stopped timer)).cells ptr).object =
            some { timer with finished := true } := by simp [Cell.stopped]
        refine ⟨_, ?_, .removed listed (Ne.symm possible.2)⟩
        simp only [State.stop_found (State.cancelled_found found), State.put_self, State.put_put]
        simp only [bind, Except.bind, State.destroyTimer_found stopped rfl listed, State.put_self,
          State.put_put]
        rfl
      · exact ⟨s, rfl, .unfound _⟩
  | expire ptr =>
    simp only [ready, Bool.and_eq_true, Bool.not_eq_true', decide_eq_true_eq] at possible
    obtain ⟨⟨_, idle⟩, armed⟩ := possible
    obtain ⟨_, timer, found⟩ := sound.found_armed armed
    refine ⟨_, ?_, .fired idle armed found⟩
    simp only [next, State.evtimerCb, State.deref_some found]
    simp only [bind, Except.bind]
    split
    · rename_i repeats
      simp [Cell.called, Cell.evTimerAgain, repeats]
    · split
      · rename_i repeats last
        have done : ¬ 1 < timer.count := by omega
        simp [Cell.called, Cell.evTimerStop, repeats, done]
      · rename_i repeats more
        have left : 1 < timer.count := by omega
        simp [Cell.called, Cell.evTimerAgain, left]
  | callbackReturns =>
    simp only [ready, Bool.and_eq_true, Bool.not_eq_true', decide_eq_true_eq] at possible
    obtain ⟨ptr, firing⟩ := Option.ne_none_iff_exists'.mp possible.2
    obtain ⟨listed, timer, found⟩ := sound.found_firing firing
    simp only [next, State.evtimerSchedulerCb, firing, State.deref_some found]
    simp only [bind, Except.bind]
    cases flag : timer.finished with
    | false => exact ⟨_, rfl, .returned firing found flag⟩
    | true =>
      simp only [if_true, State.destroyTimer_found found flag listed]
      exact ⟨_, rfl, .finished firing found flag⟩
  | destroyScheduler =>
    simp only [ready, Bool.and_eq_true, Bool.not_eq_true', decide_eq_true_eq] at possible
    obtain ⟨here, idle⟩ := possible
    have all := State.destroyEach_listed s.timers sound.nodup fun ptr listed =>
      sound.found_listed here listed
    refine ⟨_, ?_, .destroyed idle⟩
    simp only [next, State.destroyAll, all]
    rfl

/-! ### What every step keeps -/

theorem floatBits_exact (positive : 0 < n) (small : n ≤ 2 ^ 24) : floatBits n = n := by
  rcases Nat.lt_or_eq_of_le small with below | rfl
  · have unit : n.log2 - 23 = 0 := by
      have digits := (Nat.log2_lt (Nat.ne_of_gt positive)).mpr below
      omega
    simp only [floatBits, unit, Nat.pow_zero, Nat.mod_one, Nat.mul_zero, Nat.zero_lt_one, true_or,
      if_true, Nat.div_one, Nat.mul_one]
  · decide

theorem throughFloat_exact (exact : Exact n) : throughFloat n = n := by
  obtain ⟨positive, small⟩ := exact
  have kept : floatBits n.natAbs = n.natAbs := floatBits_exact (by omega) (by omega)
  rw [throughFloat, kept, Int.sign_eq_one_of_pos (by omega), Int.one_mul,
    Int.natAbs_of_nonneg (by omega)]

@[simp] theorem countsDown_length (n : Int) (k : Nat) : (countsDown n k).length = k := by
  rw [countsDown, List.length_map, List.length_range]

theorem countsDown_succ (n : Int) (k : Nat) :
    countsDown n (k + 1) = countsDown n k ++ [n - 1 - k] := by
  simp only [countsDown, List.range_succ, List.map_append, List.map_cons, List.map_nil]

theorem Phase.congr {cell : Cell} {listed firing gone listed' firing' gone' : Prop}
    (phase : Phase cell listed firing gone) (sameListed : listed' ↔ listed)
    (sameFiring : firing' ↔ firing) (sameGone : gone' ↔ gone) :
    Phase cell listed' firing' gone' := by
  rw [propext sameListed, propext sameFiring, propext sameGone]
  exact phase

theorem Sound.unlisted (sound : Sound s) (unused : s.allocated ≤ ptr) :
    ptr ∉ s.timers ∧ s.firing ≠ some ptr := by
  have blank := sound.fresh ptr unused
  cases sound.phase ptr with
  | unborn _ unlisted silent => exact ⟨unlisted, silent⟩
  | live timer n found =>
    rw [blank] at found
    contradiction
  | dead n _ _ _ _ scheduled =>
    rw [blank] at scheduled
    contradiction

theorem Sound.allocated (sound : Sound s) (found : (s.cells ptr).object = some timer) :
    ptr < s.allocated := by
  refine Nat.not_le.mp fun unused => ?_
  rw [sound.fresh ptr unused] at found
  contradiction

theorem Cell.cancelled_silent {cell : Cell}
    (silent : ∀ k, cell.cancelledAfter = some k → cell.calls.length = k) :
    ∀ k, cell.cancelled.cancelledAfter = some k → cell.cancelled.calls.length = k := by
  intro k after
  cases before : cell.cancelledAfter with
  | none =>
    simp only [Cell.cancelled, before, Option.none_or, Option.some.injEq] at after
    exact after
  | some j =>
    simp only [Cell.cancelled, before, Option.some_or] at after
    exact silent k (before.trans after)

theorem Cell.cancelled_ne_none (cell : Cell) : cell.cancelled.cancelledAfter ≠ none := by
  simp [Cell.cancelled]

/-- A step on one timer leaves the phases of the others. -/
theorem Sound.put (sound : Sound s) (found : (s.cells ptr).object = some timer) (cell : Cell)
    (timers : List Nat) (firing : Option Nat) (nodup : timers.Nodup)
    (same : ∀ other, other ≠ ptr → (other ∈ timers ↔ other ∈ s.timers))
    (quiet : ∀ other, other ≠ ptr → (firing = some other ↔ s.firing = some other))
    (phase : Phase cell (ptr ∈ timers) (firing = some ptr) (s.gone = true)) :
    Sound { s.put ptr cell with timers, firing } := by
  refine ⟨nodup, fun other unused => ?_, fun other => ?_⟩
  · have different : other ≠ ptr := by
      rintro rfl
      exact absurd (sound.allocated found) (Nat.not_lt.mpr unused)
    exact (State.put_other s cell different).trans (sound.fresh other unused)
  · by_cases here : other = ptr
    · subst here
      have own : (s.put other cell).cells other = cell := State.put_self s other cell
      rw [show ({ s.put other cell with timers, firing } : State).cells other = cell from own]
      exact phase
    · rw [show ({ s.put ptr cell with timers, firing } : State).cells other = s.cells other from
        State.put_other s cell here]
      exact (sound.phase other).congr (same other here) (quiet other here) Iff.rfl

theorem filter_same (timers : List Nat) (other : Nat) (different : other ≠ ptr) :
    other ∈ timers.filter (· ≠ ptr) ↔ other ∈ timers := by
  simp [different]

theorem Sound.schedule (sound : Sound s) (here : s.gone = false) (delay : Nat) (count : Int) :
    Sound (s.scheduleCountTimer delay count) := by
  have blank := sound.fresh s.allocated (Nat.le_refl _)
  have unlisted := (sound.unlisted (Nat.le_refl s.allocated)).1
  refine ⟨?_, fun other unused => ?_, fun other => ?_⟩
  · refine List.nodup_append.mpr ⟨sound.nodup, List.nodup_cons.mpr ⟨List.not_mem_nil, List.nodup_nil⟩, ?_⟩
    rintro a listed b new rfl
    exact unlisted (List.mem_singleton.mp new ▸ listed)
  · have different : other ≠ s.allocated := by
      rintro rfl
      exact absurd unused (Nat.not_succ_le_self _)
    exact (State.put_other s _ different).trans (sound.fresh other (Nat.le_of_succ_le unused))
  · by_cases own : other = s.allocated
    · subst own
      refine .live { ptr := s.allocated, count := throughFloat count,
                     delay } count ?_ ?_ ?_ ?_ ?_ ?_ ?_ ?_ ?_
      · simp [State.scheduleCountTimer]
      · exact List.mem_append_right _ List.mem_cons_self
      · simpa [State.scheduleCountTimer, State.put] using here
      · simp [State.scheduleCountTimer]
      · simp [State.scheduleCountTimer, blank]
      · intro finished
        contradiction
      · intro exact
        refine ⟨0, by have := exact.1; omega, ?_, ?_, ?_⟩
        · simp [State.scheduleCountTimer, blank, countsDown]
        · simp [throughFloat_exact exact]
        · intro _
          refine iff_of_false (by simp) ?_
          have := exact.1
          omega
      · intro finished
        contradiction
      · intro k after
        simp [State.scheduleCountTimer, blank] at after
    · rw [show (s.scheduleCountTimer delay count).cells other =
        s.cells other from State.put_other s _ own]
      refine (sound.phase other).congr ?_ Iff.rfl Iff.rfl
      exact List.mem_append.trans (or_iff_left fun member => own (List.mem_singleton.mp member))

theorem Sound.cancel (sound : Sound s) (listed : ptr ∈ s.timers)
    (found : (s.cells ptr).object = some timer) :
    Sound (s.put ptr ((s.cells ptr).cancelled.stopped timer)) := by
  refine sound.put found _ s.timers s.firing sound.nodup (fun _ _ => Iff.rfl)
    (fun _ _ => Iff.rfl) ?_
  cases sound.phase ptr with
  | unborn _ unlisted _ => exact absurd listed unlisted
  | dead _ lost =>
    rw [lost] at found
    contradiction
  | live before n found' _ here scheduled undestroyed _ counted _ silent =>
    obtain rfl := Option.some.inj (found'.symm.trans found)
    have uncancelled := (s.cells ptr).cancelled_ne_none
    refine .live { before with finished := true } n rfl listed here scheduled undestroyed
      (fun _ => rfl) (fun exact => ?_)
      (fun _ none => absurd none uncancelled)
      fun k after => ⟨rfl, Cell.cancelled_silent (fun k before => (silent k before).2) k after⟩
    obtain ⟨k, within, calls, left, _⟩ := counted exact
    exact ⟨k, within, calls, left, fun none => absurd none uncancelled⟩

theorem Sound.remove (sound : Sound s) (here : s.gone = false) (listed : ptr ∈ s.timers)
    (other : s.firing ≠ some ptr) :
    Sound { s.put ptr (s.cells ptr).cancelled.dead with timers := s.timers.filter (· ≠ ptr) } := by
  obtain ⟨timer, found⟩ := sound.found_listed here listed
  refine sound.put found _ (s.timers.filter (· ≠ ptr)) s.firing (sound.nodup.filter _)
    (filter_same s.timers) (fun _ _ => Iff.rfl) ?_
  cases sound.phase ptr with
  | unborn _ unlisted _ => exact absurd listed unlisted
  | dead _ lost =>
    rw [lost] at found
    contradiction
  | live before n _ _ _ scheduled undestroyed _ counted _ silent =>
    refine .dead n rfl (by simp) other rfl scheduled (by simp [Cell.dead, Cell.cancelled,
      undestroyed]) (fun exact => ?_)
      (Cell.cancelled_silent fun k before => (silent k before).2)
    obtain ⟨k, within, calls, _, _⟩ := counted exact
    exact ⟨k, within, calls, fun _ none => absurd none (s.cells ptr).cancelled_ne_none⟩

/-- What a timer is that is about to be called. -/
theorem Sound.armed (sound : Sound s) (armed : (s.cells ptr).armed = true)
    (found : (s.cells ptr).object = some timer) :
    timer.finished = false ∧ (s.cells ptr).cancelledAfter = none ∧ s.gone = false ∧
      ptr ∈ s.timers := by
  cases sound.phase ptr with
  | unborn blank =>
    rw [blank] at armed
    contradiction
  | dead _ _ _ _ disarmed =>
    rw [disarmed] at armed
    contradiction
  | live before n found' listed here _ _ stopped _ _ silent =>
    obtain rfl := Option.some.inj (found'.symm.trans found)
    have unfinished : before.finished = false := by
      rw [← Bool.not_eq_true]
      intro finished
      rw [stopped finished] at armed
      contradiction
    refine ⟨unfinished, ?_, (Bool.not_eq_true _).mp here, listed⟩
    rw [Option.eq_none_iff_forall_not_mem]
    intro k after
    rw [(silent k after).1] at unfinished
    contradiction

theorem Sound.fire (sound : Sound s) (idle : s.firing = none) (armed : (s.cells ptr).armed = true)
    (found : (s.cells ptr).object = some timer) :
    Sound { s.put ptr ((s.cells ptr).called timer) with firing := some ptr } := by
  obtain ⟨unfinished, uncancelled, here, listed⟩ := sound.armed armed found
  refine sound.put found _ s.timers (some ptr) sound.nodup (fun _ _ =>
    Iff.rfl) (fun other different => ?_) ?_
  · rw [idle]
    simp [Ne.symm different]
  cases sound.phase ptr with
  | unborn _ unlisted _ => exact absurd listed unlisted
  | dead _ lost =>
    rw [lost] at found
    contradiction
  | live before n found' _ _ scheduled undestroyed _ counted _ _ =>
    obtain rfl := Option.some.inj (found'.symm.trans found)
    have last_count : before.evtimerCb.finished = true → before.count ≠ -1 ∧
        before.count - 1 ≤ 0 := by
      intro finished
      rw [Qtimer.evtimerCb] at finished
      split at finished
      · rw [unfinished] at finished
        contradiction
      · exact ⟨‹_›, by simpa [unfinished] using finished⟩
    refine .live before.evtimerCb n rfl listed (by simpa using here) scheduled undestroyed
      (fun finished => ?_) (fun exact => ?_)
      (fun _ _ => rfl) (fun k after => ?_)
    · obtain ⟨counts, done⟩ := last_count finished
      simp only [Cell.called, Bool.and_eq_false_iff, decide_eq_false_iff_not, not_or]
      exact .inl ⟨counts, by omega⟩
    · obtain ⟨k, within, calls, left, ends⟩ := counted exact
      have more : (k : Int) ≠ n := by
        intro all
        rw [(ends uncancelled).mpr all] at unfinished
        contradiction
      have counts : before.count ≠ -1 := by omega
      have count : before.evtimerCb.count = n - 1 - k := by
        simp only [Qtimer.evtimerCb, if_neg counts]
        omega
      refine ⟨k + 1, by omega, ?_, by omega, fun _ => ?_⟩
      · rw [countsDown_succ, ← calls, ← count]
        rfl
      · simp only [Qtimer.evtimerCb, if_neg counts, unfinished, Bool.false_or, decide_eq_true_eq]
        omega
    · rw [show ((s.cells ptr).called before).cancelledAfter = none from uncancelled] at after
      contradiction

theorem Sound.return (sound : Sound s) (firing : s.firing = some ptr)
    (found : (s.cells ptr).object = some timer) (unfinished : timer.finished = false) :
    Sound { s with firing := none } := by
  refine ⟨sound.nodup, sound.fresh, fun other => ?_⟩
  by_cases own : other = ptr
  · subst own
    cases sound.phase other with
    | unborn _ _ silent => exact absurd firing silent
    | dead _ lost =>
      rw [lost] at found
      contradiction
    | live before n found' listed here scheduled undestroyed stopped counted _ silent =>
      obtain rfl := Option.some.inj (found'.symm.trans found)
      refine .live before n found' listed here scheduled undestroyed stopped counted
        (fun finished => ?_) silent
      rw [unfinished] at finished
      contradiction
  · refine (sound.phase other).congr Iff.rfl ?_ Iff.rfl
    rw [firing]
    simp [Ne.symm own]

theorem Sound.finish (sound : Sound s) (firing : s.firing = some ptr)
    (found : (s.cells ptr).object = some timer) (finished : timer.finished = true) :
    Sound { s.put ptr (s.cells ptr).freed with
      timers := s.timers.filter (· ≠ ptr), firing := none } := by
  refine sound.put found _ (s.timers.filter (· ≠ ptr)) none (sound.nodup.filter _)
    (filter_same s.timers) (fun other different => ?_) ?_
  · rw [firing]
    simp [Ne.symm different]
  cases sound.phase ptr with
  | unborn _ _ silent => exact absurd firing silent
  | dead _ lost =>
    rw [lost] at found
    contradiction
  | live before n found' _ _ scheduled undestroyed stopped counted _ silent =>
    obtain rfl := Option.some.inj (found'.symm.trans found)
    refine .dead n rfl (by simp) (by simp) (stopped finished) scheduled (by simp [Cell.freed,
      undestroyed]) (fun exact => ?_)
      fun k after => (silent k after).2
    obtain ⟨k, within, calls, _, ends⟩ := counted exact
    exact ⟨k, within, calls, fun _ none => (ends none).mp finished⟩

theorem Sound.destroy (sound : Sound s) (here : s.gone = false) (idle : s.firing = none) :
    Sound { s with cells := fun ptr => if ptr ∈ s.timers then (s.cells ptr).dead else s.cells ptr,
                   gone := true } := by
  refine ⟨sound.nodup, fun other unused => ?_, fun other => ?_⟩
  · exact (if_neg (sound.unlisted unused).1).trans (sound.fresh other unused)
  · dsimp only
    cases sound.phase other with
    | unborn blank unlisted silent =>
      rw [if_neg unlisted]
      exact .unborn blank unlisted silent
    | live before n _ listed _ scheduled undestroyed _ counted _ silent =>
      rw [if_pos listed]
      refine .dead n rfl (fun _ => rfl) (by simp [idle]) rfl scheduled (by simp [Cell.dead,
        undestroyed]) (fun exact => ?_)
        fun k after => (silent k after).2
      obtain ⟨k, within, calls, _, _⟩ := counted exact
      exact ⟨k, within, calls, fun here => absurd rfl here⟩
    | dead n lost unlisted quiet disarmed scheduled destroyed counted silent =>
      have absent : other ∉ s.timers := fun listed => by
        have gone := unlisted listed
        rw [here] at gone
        contradiction
      rw [if_neg absent]
      refine .dead n lost (fun _ => rfl) quiet disarmed scheduled destroyed (fun exact => ?_) silent
      obtain ⟨k, within, calls, _⟩ := counted exact
      exact ⟨k, within, calls, fun here => absurd rfl here⟩

theorem here_of_ready (possible : ready s e = true) : s.gone = false := by
  cases e <;> simp_all [ready]

theorem Sound.step (sound : Sound s) (possible : ready s e = true) (effect : Effect s e t) :
    Sound t := by
  have here := here_of_ready possible
  cases effect with
  | scheduled delay count => exact sound.schedule here delay count
  | unlisted | unfound => exact sound
  | cancelled listed found => exact sound.cancel listed found
  | removed listed other => exact sound.remove here listed other
  | fired idle armed found => exact sound.fire idle armed found
  | returned firing found unfinished => exact sound.return firing found unfinished
  | finished firing found finished => exact sound.finish firing found finished
  | destroyed idle => exact sound.destroy here idle

end TimerLoop
end Gearsdk
