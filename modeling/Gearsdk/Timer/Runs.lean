import Gearsdk.Timer.Steps

/-! Which runs of the loop give every timer what it is promised. -/
namespace Gearsdk
namespace TimerLoop
open Transition

variable {s t : State} {ptr : Nat} {timer : Qtimer}

/-! ### Timers that are armed -/

/-- A timer that has calls left is armed. -/
def Armed (s : State) : Prop :=
  ∀ ptr timer n, (s.cells ptr).object = some timer → (s.cells ptr).scheduled = some n → Exact n →
    (s.cells ptr).cancelledAfter = none → timer.finished = false → (s.cells ptr).armed = true

theorem Sound.kept_iff (sound : Sound s) : (∀ ptr, Kept s ptr) ↔ Armed s := by
  constructor
  · intro kept ptr timer n found scheduled exact uncancelled unfinished
    obtain ⟨k, _, calls, promised⟩ := (kept ptr).counted n scheduled exact uncancelled
    cases sound.phase ptr with
    | unborn blank =>
      rw [blank] at found
      contradiction
    | dead _ lost =>
      rw [lost] at found
      contradiction
    | live before n' found' _ here scheduled' _ _ counted _ _ =>
      obtain rfl := Option.some.inj (found'.symm.trans found)
      obtain rfl := Option.some.inj (scheduled'.symm.trans scheduled)
      obtain ⟨j, within, calls', _, ends⟩ := counted exact
      obtain rfl : k = j := by
        have lengths := congrArg List.length (calls.symm.trans calls')
        simpa using lengths
      have more : (k : Int) ≠ n' := by
        intro all
        rw [(ends uncancelled).mpr all] at unfinished
        contradiction
      exact ((promised ((Bool.not_eq_true _).mp here)).1 (by omega)).1
  · intro armed ptr
    cases sound.phase ptr with
    | unborn blank unlisted silent =>
      refine ⟨fun n scheduled => ?_, fun k after => ?_, ?_, fun _ scheduled => ?_⟩
      · rw [blank] at scheduled
        contradiction
      · rw [blank] at after
        contradiction
      · rw [blank]
        exact Nat.zero_le 1
      · exact absurd (congrArg Cell.scheduled blank) scheduled
    | live timer n found listed here scheduled undestroyed stopped counted last silent =>
      refine ⟨fun n' scheduled' exact uncancelled => ?_, fun k after => (silent k after).2,
        by omega, fun gone => absurd gone here⟩
      obtain rfl := Option.some.inj (scheduled'.symm.trans scheduled)
      obtain ⟨k, within, calls, _, ends⟩ := counted exact
      refine ⟨k, within, calls, fun _ => ⟨fun more => ?_, fun all => ?_⟩⟩
      · have unfinished : timer.finished = false := by
          rw [← Bool.not_eq_true, ends uncancelled]
          omega
        exact ⟨armed ptr timer n' found scheduled' exact uncancelled unfinished, listed,
          undestroyed⟩
      · exact .inl (last ((ends uncancelled).mpr all) uncancelled)
    | dead n lost unlisted quiet disarmed scheduled destroyed counted silent =>
      refine ⟨fun n' scheduled' exact uncancelled => ?_, silent, by omega, fun _ _ => destroyed⟩
      obtain rfl := Option.some.inj (scheduled'.symm.trans scheduled)
      obtain ⟨k, within, calls, ends⟩ := counted exact
      refine ⟨k, within, calls, fun here => ?_⟩
      have gone : ¬ s.gone = true := by simpa using here
      have all := ends gone uncancelled
      exact ⟨fun more => by omega, fun _ => .inr ⟨fun listed => gone (unlisted listed), destroyed⟩⟩

/-- A step on one timer keeps the others armed. -/
theorem Armed.put (armed : Armed s) (cell : Cell)
    (own : ∀ timer n, cell.object = some timer → cell.scheduled = some n → Exact n →
    cell.cancelledAfter = none →
      timer.finished = false → cell.armed = true) : Armed (s.put ptr cell) := by
  intro other timer n found scheduled exact uncancelled unfinished
  by_cases here : other = ptr
  · subst here
    rw [State.put_self] at *
    exact own timer n found scheduled exact uncancelled unfinished
  · rw [State.put_other s cell here] at *
    exact armed other timer n found scheduled exact uncancelled unfinished

theorem Sound.armed_fire_iff (sound : Sound s) (armed : Armed s) (up : (s.cells ptr).armed = true)
    (found : (s.cells ptr).object = some timer) :
    Armed { s.put ptr ((s.cells ptr).called timer) with firing := some ptr } ↔
      Rearms s (.expire ptr) := by
  obtain ⟨unfinished, uncancelled, _, _⟩ := sound.armed up found
  constructor
  · intro after timer' n found' scheduled exact more
    obtain rfl := Option.some.inj (found.symm.trans found')
    have left : timer.evtimerCb.finished = false := by
      rw [Qtimer.evtimerCb, if_neg (by omega), unfinished]
      simp only [Bool.false_or, decide_eq_false_iff_not]
      omega
    have own := after ptr timer.evtimerCb n
    simp only [State.put_self, Cell.called] at own
    have repeats := own trivial scheduled exact uncancelled left
    simp only [Bool.and_eq_true, decide_eq_true_eq] at repeats
    exact repeats.2
  · intro rearms
    have put : Armed (s.put ptr ((s.cells ptr).called timer)) := by
      refine armed.put _ fun after n found' scheduled exact _ left => ?_
      obtain rfl := Option.some.inj found'
      have counted : 2 ≤ timer.count := by
        cases sound.phase ptr with
        | unborn blank =>
          rw [blank] at found
          contradiction
        | dead _ lost =>
          rw [lost] at found
          contradiction
        | live before n' found'' _ _ scheduled' _ _ counted _ _ =>
          obtain rfl := Option.some.inj (found''.symm.trans found)
          obtain rfl := Option.some.inj (scheduled'.symm.trans scheduled)
          obtain ⟨k, within, _, count, _⟩ := counted exact
          have counts : before.count ≠ -1 := by omega
          rw [Qtimer.evtimerCb, if_neg counts, unfinished] at left
          simp only [Bool.false_or, decide_eq_false_iff_not] at left
          omega
      have repeats := rearms timer n found scheduled exact counted
      simp only [Cell.called, Bool.and_eq_true, decide_eq_true_eq]
      exact ⟨.inr (by omega), repeats⟩
    exact put

theorem Sound.armed_step_iff (sound : Sound s) (armed : Armed s) (effect : Effect s e t) :
    Armed t ↔ Rearms s e := by
  cases effect with
  | fired idle up found => exact sound.armed_fire_iff armed up found
  | unlisted | unfound => exact iff_of_true armed trivial
  | returned => exact iff_of_true (fun ptr => armed ptr) trivial
  | scheduled delay count =>
    refine iff_of_true
      (fun other timer n found scheduled exact uncancelled unfinished => ?_) trivial
    by_cases own : other = s.allocated
    · subst own
      simp [State.scheduleCountTimer]
    · rw [show (s.scheduleCountTimer delay count).cells other =
        s.cells other from State.put_other s _ own] at *
      exact armed other timer n found scheduled exact uncancelled unfinished
  | cancelled listed found =>
    refine iff_of_true (armed.put _ fun timer n _ _ _ uncancelled => ?_) trivial
    exact absurd uncancelled (s.cells _).cancelled_ne_none
  | @removed ptr listed other =>
    have put : Armed (s.put ptr (s.cells ptr).cancelled.dead) :=
      armed.put _ fun timer n lost => by contradiction
    exact iff_of_true put trivial
  | @finished ptr timer firing found done =>
    have put : Armed (s.put ptr (s.cells ptr).freed) :=
      armed.put _ fun timer n lost => by contradiction
    exact iff_of_true put trivial
  | destroyed idle =>
    refine iff_of_true
      (fun other timer n found scheduled exact uncancelled unfinished => ?_) trivial
    dsimp only at *
    by_cases listed : other ∈ s.timers
    · rw [if_pos listed] at found
      contradiction
    · rw [if_neg listed] at *
      exact armed other timer n found scheduled exact uncancelled unfinished

/-! ### Runs -/

theorem faulting_step {outcome result : Except Freed State} (sound : Sound s)
    (here : outcome = .ok s) (step : machine.faulting.Step outcome e result) :
    ∃ t, result = .ok t ∧ ready s e = true ∧ Effect s e t := by
  subst here
  obtain ⟨⟨s', same, possible⟩, stepped⟩ := step
  cases Except.ok.inj same
  obtain ⟨t, ran, effect⟩ := sound.effect possible
  refine ⟨t, ?_, possible, effect⟩
  rw [← Except.ok.inj stepped, ← ran]
  rfl

/-- No run comes to use a timer that has been destroyed. -/
theorem never_freed (run : machine.faulting.Run es outcome) : ∃ s, outcome = .ok s ∧ Sound s := by
  refine run.invariant (P := fun outcome => ∃ s, outcome = .ok s ∧ Sound s) ?_ ⟨{}, rfl, Sound.init⟩
  rintro outcome e result ⟨s, here, sound⟩ step
  obtain ⟨t, reached, possible, effect⟩ := faulting_step sound here step
  exact ⟨t, reached, sound.step possible effect⟩

/-- No destroyed timer is used in a run and every timer always gets what it is promised,
just when no timer of delay 0 is fired that has more calls left. -/
theorem kept_iff_rearms (run : machine.faulting.Run es outcome) :
    machine.faulting.Always (fun outcome => ∃ s, outcome = .ok s ∧ ∀ ptr, Kept s ptr) es ↔
      machine.faulting.Meets (fun outcome e => ∀ s, outcome = .ok s → Rearms s e) es := by
  refine Machine.always_iff_meets ⟨{}, rfl, (Sound.init.kept_iff).mpr ?_⟩ ?_ run
  · intro ptr timer n found
    contradiction
  · rintro fs outcome e result before ⟨s, rfl, kept⟩ step
    obtain ⟨s', same, sound⟩ := never_freed before
    cases Except.ok.inj same
    obtain ⟨t, rfl, possible, effect⟩ := faulting_step sound rfl step
    have armed := (sound.kept_iff).mp kept
    have exactly := sound.armed_step_iff armed effect
    rw [← (sound.step possible effect).kept_iff] at exactly
    simpa only [Except.ok.injEq, exists_eq_left', forall_eq'] using exactly

def rearmsTest (s : State) : Event → Bool
  | .expire ptr =>
      match (s.cells ptr).object with
      | some timer => timer.count < 2 || timer.delay ≠ 0
      | none => true
  | _ => true

theorem rearms_of_test (s : State) (e : Event) (passed : rearmsTest s e = true) : Rearms s e := by
  cases e with
  | expire ptr =>
    intro timer n found _ _ more
    simp only [rearmsTest, found, Bool.or_eq_true, decide_eq_true_eq] at passed
    exact passed.resolve_left (Int.not_lt.mpr more)
  | schedule | cancelTimer | cancelAndDestroyTimer | callbackReturns | destroyScheduler => trivial

/-- The first timer is called twice; its first callback schedules a timer that cancels itself. -/
def twoTimers : List Event :=
  [.schedule 1000 2, .expire 0, .schedule 500 (-1), .callbackReturns, .expire 1,
    .cancelTimer (some 1), .callbackReturns, .expire 0, .callbackReturns,
    .cancelAndDestroyTimer (some 0), .schedule 0 1, .destroyScheduler]

theorem twoTimers_kept :
    ∃ s, machine.faulting.Run twoTimers (.ok s) ∧
      ((s.cells 0).calls, (s.cells 0).destroyed, (s.cells 1).calls, (s.cells 1).destroyed,
        (s.cells 2).destroyed) =
        ([1, 0], 1, [-1], 1, 1) ∧
      machine.faulting.Always (fun outcome => ∃ s, outcome = .ok s ∧
        ∀ ptr, Kept s ptr) twoTimers := by
  have shown : (machine.exec {} twoTimers).map (fun s =>
      ((s.cells 0).calls, (s.cells 0).destroyed, (s.cells 1).calls, (s.cells 1).destroyed,
        (s.cells 2).destroyed)) =
      some ([1, 0], 1, [-1], 1, 1) := by decide +kernel
  have passed : machine.checks rearmsTest {} twoTimers = true := by decide +kernel
  have rearms : machine.Meets Rearms twoTimers := fun _ _ _ inside path =>
    Machine.meets_of_checks rearms_of_test passed inside path
  obtain ⟨s, run, same⟩ := Machine.exec_observe shown
  have outcome : machine.faulting.Run twoTimers (.ok s) := Machine.Run.faulting run
  exact ⟨s, outcome, same, (kept_iff_rearms outcome).mpr rearms.faulting⟩

/-- A timer without a delay is called once instead of twice, and stays in the list. -/
theorem undelayed_stuck :
    ∃ s, machine.Run [.schedule 0 2, .expire 0, .callbackReturns] s ∧
      ((s.cells 0).calls, (s.cells 0).armed, s.timers) = ([1], false, [0]) ∧ ¬ Kept s 0 := by
  have shown : (machine.exec {} [.schedule 0 2, .expire 0, .callbackReturns]).map (fun s =>
      (((s.cells 0).calls, (s.cells 0).armed, s.timers), (s.cells 0).scheduled,
        (s.cells 0).cancelledAfter, s.gone)) =
      some (([1], false, [0]), some 2, none, false) := by decide +kernel
  obtain ⟨s, run, same⟩ := Machine.exec_observe shown
  simp only [Prod.mk.injEq] at same
  obtain ⟨⟨calls, unarmed, timers⟩, scheduled, uncancelled, here⟩ := same
  refine ⟨s, run, by rw [calls, unarmed, timers], fun kept => ?_⟩
  obtain ⟨k, _, counts, promised⟩ := kept.counted 2 scheduled ⟨by decide, by decide⟩ uncancelled
  obtain rfl : 1 = k := by simpa [calls] using congrArg List.length counts
  have armed := ((promised here).1 (by decide)).1
  rw [unarmed] at armed
  contradiction

end TimerLoop
end Gearsdk
