import Gearsdk.Timer
import Gearsdk.Transition
import Mathlib.Data.List.Nodup

/-! Timers that are cancelled from elsewhere. A request is resolved by the loop some time
later, when the timer may be gone. Closing a handle runs the loop again inside the callback. -/
namespace Gearsdk
namespace AsyncCancel
open Transition

/-- What `uvtimer_cb` does to the count is what `evtimer_cb` does. -/
def uvtimerCb (timer : Qtimer) : Qtimer := timer.evtimerCb

/-- A callback of a request that waits for the loop to come back: from the destructor of the
timer, or from closing its own handle. -/
inductive Frame where
  | destroying (request : Nat)
  | closing (request : Nat)
  deriving DecidableEq

def Frame.destroying? : Frame → Option Nat
  | .destroying request => some request
  | .closing _ => none

structure State where
  scheduler : QtimerScheduler := {}
  requests : Nat := 0
  timerOf : Nat → Nat := fun _ => 0
  /-- Handles that have been sent and not yet run. -/
  sent : List Nat := []
  frames : List Frame := []
  /-- What the callback of a request was invoked with. -/
  verdicts : Nat → List Bool := fun _ => []
  /-- Whether a request has taken its timer out of the list. -/
  destroyed : Nat → Bool := fun _ => false

def State.invoke (s : State) (request : Nat) (verdict : Bool) : State :=
  { s with verdicts := fun other => if other = request then s.verdicts other ++ [verdict]
    else s.verdicts other }

inductive Event where
  | schedule (delay : Nat) (count : Int)
  | cancelTimer (timer : Nat)
  | cancelAndDestroyTimer (timer : Nat)
  | asyncCancelAndDestroyTimer (timer : Option Nat)
  | expire (timer : Nat)
  | stopTimerAsyncCb (request : Nat)
  | resume

/-- Without a timer there is an error message and no request. -/
def asyncCancelAndDestroyTimer (s : State) : Option Nat → State
  | none => s
  | some timer =>
      { s with
        requests := s.requests + 1
        timerOf := fun other => if other = s.requests then timer else s.timerOf other
        sent := s.sent ++ [s.requests] }

def stopTimerAsyncCb (s : State) (request : Nat) : State :=
  let timer := some (s.timerOf request)
  let (scheduler, deleted) := s.scheduler.cancelAndDestroyTimer timer
  let s := { s with
    scheduler
    sent := s.sent.filter (· ≠ request)
    destroyed := fun other =>
      if other = request then s.scheduler.isTimerPresentInList timer &&
        !scheduler.isTimerPresentInList timer
      else s.destroyed other }
  if deleted then { s with frames := .destroying request :: s.frames }
  else { (s.invoke request false).invoke request true with frames := .closing request :: s.frames }

/-- The loop comes back to the callback that it was run from last. -/
def resume (s : State) : State :=
  match s.frames with
  | [] => s
  | .destroying request :: rest => { s.invoke request true with frames := .closing request :: rest }
  | .closing _ :: rest => { s with frames := rest }

def expire (scheduler : QtimerScheduler) (ptr : Nat) : QtimerScheduler :=
  match scheduler.find ptr with
  | none => scheduler
  | some timer =>
      let called := uvtimerCb timer
      let scheduler := scheduler.update called
      if called.finished then (scheduler.destroyTimer ptr).1 else scheduler

def next (s : State) : Event → State
  | .schedule delay count => { s with scheduler := (s.scheduler.scheduleCountTimer delay count).1 }
  | .cancelTimer timer =>
      if s.scheduler.isTimerPresentInList (some timer) then { s with
        scheduler := s.scheduler.stop timer } else s
  | .cancelAndDestroyTimer timer =>
    { s with scheduler := (s.scheduler.cancelAndDestroyTimer (some timer)).1 }
  | .asyncCancelAndDestroyTimer timer => asyncCancelAndDestroyTimer s timer
  | .expire timer => { s with scheduler := expire s.scheduler timer }
  | .stopTimerAsyncCb request => stopTimerAsyncCb s request
  | .resume => resume s

def ready (s : State) : Event → Bool
  | .expire timer => s.scheduler.isActive timer
  | .stopTimerAsyncCb request => request ∈ s.sent
  | .resume => s.frames ≠ []
  | _ => true

abbrev machine : Machine State Event Empty where
  init := {}
  enabled s e := ready s e = true
  next s e := .ok (next s e)

/-- The requests whose callback is still to be invoked. -/
def State.open (s : State) : List Nat := s.frames.filterMap Frame.destroying? ++ s.sent

/-- The callback of a request is invoked once, with whether the request destroyed the timer. -/
def Answered (s : State) : Prop :=
  ∀ request < s.requests, s.verdicts request = if request ∈ s.open then []
    else [s.destroyed request]

/-- A request that is resolved finds its timer. -/
def Finds (s : State) : Event → Prop
  | .stopTimerAsyncCb request => s.scheduler.isTimerPresentInList (some (s.timerOf request)) = true
  | _ => True

structure Sound (s : State) : Prop where
  nodup : s.open.Nodup
  made : ∀ request ∈ s.open, request < s.requests
  fresh : ∀ request, s.requests ≤ request → s.verdicts request = []
  destroys : ∀ request, .destroying request ∈ s.frames → s.destroyed request = true

variable {s t : State} {e : Event}

theorem mem_destroying (s : State) (request : Nat) :
    request ∈ s.frames.filterMap Frame.destroying? ↔ .destroying request ∈ s.frames := by
  rw [List.mem_filterMap]
  constructor
  · rintro ⟨frame, member, same⟩
    cases frame with
    | destroying other =>
      cases same
      exact member
    | closing other => contradiction
  · intro member
    exact ⟨.destroying request, member, rfl⟩

/-- A resolved request is done with the list: it destroys the timer that it finds. -/
theorem stopTimerAsyncCb_spec (s : State) (request : Nat) :
    ∃ scheduler, stopTimerAsyncCb s request =
      if s.scheduler.isTimerPresentInList (some (s.timerOf request)) then
        { s with
          scheduler
          sent := s.sent.filter (· ≠ request)
          destroyed := fun other => if other = request then true else s.destroyed other
          frames := .destroying request :: s.frames }
      else
        { s with
          scheduler
          sent := s.sent.filter (· ≠ request)
          destroyed := fun other => if other = request then false else s.destroyed other
          verdicts := fun other => if other = request then s.verdicts other ++ [false, true]
            else s.verdicts other
          frames := .closing request :: s.frames } := by
  refine ⟨(s.scheduler.cancelAndDestroyTimer (some (s.timerOf request))).1, ?_⟩
  simp only [stopTimerAsyncCb, QtimerScheduler.cancelAndDestroyTimer_eq]
  cases present : s.scheduler.isTimerPresentInList (some (s.timerOf request)) with
  | true =>
    simp only [if_true, Bool.true_and, State.mk.injEq, true_and]
    funext other
    by_cases own : other = request <;> simp [own, QtimerScheduler.isTimerPresentInList]
  | false =>
    simp only [Bool.false_eq_true, if_false, Bool.false_and, State.invoke, State.mk.injEq, true_and,
      and_true]
    funext other
    by_cases own : other = request <;> simp [own]

theorem Sound.init : Sound {} :=
  ⟨List.nodup_nil, fun _ member => absurd member List.not_mem_nil, fun _ _ => rfl, fun _ member =>
    absurd member List.not_mem_nil⟩

theorem Sound.asked (sound : Sound s) (timer : Nat) :
    Sound (asyncCancelAndDestroyTimer s (some timer)) := by
  have added : (asyncCancelAndDestroyTimer s (some timer)).open = s.open ++ [s.requests] := by
    simp only [State.open, asyncCancelAndDestroyTimer, List.append_assoc]
  refine ⟨?_, fun request member => ?_, fun request later =>
    sound.fresh request (Nat.le_of_succ_le later), sound.destroys⟩
  · rw [added]
    refine sound.nodup.append (List.nodup_singleton _) fun request member own => ?_
    exact absurd (sound.made request member)
      (Nat.not_lt.mpr (Nat.le_of_eq (List.mem_singleton.mp own).symm))
  · rw [added] at member
    rcases List.mem_append.mp member with before | own
    · exact Nat.lt_succ_of_lt (sound.made request before)
    · rw [List.mem_singleton.mp own]
      exact Nat.lt_succ_self _

/-- The handle that runs is no longer sent, and nothing else of it is open. -/
theorem Sound.sent (sound : Sound s) (sent : request ∈ s.sent) :
    request ∈ s.open ∧ .destroying request ∉ s.frames ∧ request < s.requests ∧
      s.sent.filter (· ≠ request) = s.sent.erase request := by
  have here : request ∈ s.open := List.mem_append_right _ sent
  refine ⟨here, fun framed => ?_, sound.made request here, ?_⟩
  · exact List.disjoint_of_nodup_append sound.nodup ((mem_destroying s request).mpr framed) sent
  · rw [(List.Nodup.of_append_right sound.nodup).erase_eq_filter]
    refine List.filter_congr fun other _ => ?_
    by_cases own : other = request <;> simp [own]

theorem Sound.stopTimer (sound : Sound s) (sent : request ∈ s.sent) :
    Sound (stopTimerAsyncCb s request) := by
  obtain ⟨here, unframed, made, erased⟩ := sound.sent sent
  obtain ⟨scheduler, spec⟩ := stopTimerAsyncCb_spec s request
  rw [spec]
  split
  · have moved : (request :: s.frames.filterMap Frame.destroying? ++
        s.sent.filter (· ≠ request)).Perm s.open := by
      rw [erased]
      refine List.Perm.trans ?_ (List.Perm.append_left _ (List.perm_cons_erase sent).symm)
      exact List.perm_middle.symm
    refine ⟨moved.nodup_iff.mpr sound.nodup, fun other member =>
      sound.made other (moved.mem_iff.mp member), sound.fresh, ?_⟩
    intro other framed
    rcases List.mem_cons.mp framed with own | before
    · cases own
      exact if_pos rfl
    · dsimp only
      split
      · rfl
      · exact sound.destroys other before
  · have fewer : (s.frames.filterMap Frame.destroying? ++ s.sent.filter (· ≠ request)).Sublist s.open :=
      List.Sublist.append_left List.filter_sublist _
    refine ⟨sound.nodup.sublist fewer, fun other member => sound.made other (fewer.subset member),
      fun other later => ?_, ?_⟩
    · have different : other ≠ request := by
        rintro rfl
        exact absurd made (Nat.not_lt.mpr later)
      exact (if_neg different).trans (sound.fresh other later)
    · intro other framed
      rcases List.mem_cons.mp framed with own | before
      · contradiction
      · have different : other ≠ request := by
          rintro rfl
          exact unframed before
        exact (if_neg different).trans (sound.destroys other before)

theorem Sound.resumed (sound : Sound s) : Sound (resume s) := by
  rw [resume]
  cases frames : s.frames with
  | nil => exact sound
  | cons frame rest =>
    have open_eq : s.open = (frame :: rest).filterMap Frame.destroying? ++ s.sent := by
      rw [State.open, frames]
    cases frame with
    | destroying request =>
      have open_cons : s.open = request :: (rest.filterMap Frame.destroying? ++ s.sent) := open_eq
      have nodup := sound.nodup
      rw [open_cons] at nodup
      have made : request < s.requests := sound.made request (open_cons ▸ List.mem_cons_self)
      refine ⟨(List.nodup_cons.mp nodup).2, fun other member =>
        sound.made other (open_cons ▸ List.mem_cons_of_mem _ member),
        fun other later => ?_, fun other framed => ?_⟩
      · have different : other ≠ request := by
          rintro rfl
          exact absurd made (Nat.not_lt.mpr later)
        exact (if_neg different).trans (sound.fresh other later)
      · rcases List.mem_cons.mp framed with own | before
        · contradiction
        · exact sound.destroys other (frames ▸ List.mem_cons_of_mem _ before)
    | closing request =>
      have same : s.open = rest.filterMap Frame.destroying? ++ s.sent := open_eq
      refine ⟨?_, fun other member => sound.made other ?_, sound.fresh,
        fun other framed => sound.destroys other (frames ▸ List.mem_cons_of_mem _ framed)⟩
      · exact Eq.mp (congrArg List.Nodup same) sound.nodup
      · rw [same]
        exact member

theorem Sound.step (sound : Sound s) (possible : ready s e = true) : Sound (next s e) := by
  cases e with
  | asyncCancelAndDestroyTimer timer =>
    cases timer with
    | none => exact sound
    | some timer => exact sound.asked timer
  | stopTimerAsyncCb request => exact sound.stopTimer (by simpa [ready] using possible)
  | resume => exact sound.resumed
  | cancelTimer timer =>
    simp only [next]
    split
    · exact ⟨sound.nodup, sound.made, sound.fresh, sound.destroys⟩
    · exact sound
  | schedule | cancelAndDestroyTimer | expire =>
    exact ⟨sound.nodup, sound.made, sound.fresh, sound.destroys⟩

theorem sound_of_run (run : machine.Run es s) : Sound s := by
  refine run.invariant (P := Sound) ?_ Sound.init
  intro s e t sound step
  cases Except.ok.inj step.2
  exact sound.step step.1

/-! ### Verdicts -/

theorem answered_asked (sound : Sound s) (answered : Answered s) (timer : Nat) :
    Answered (asyncCancelAndDestroyTimer s (some timer)) := by
  intro request made
  have added : (asyncCancelAndDestroyTimer s (some timer)).open = s.open ++ [s.requests] := by
    simp only [State.open, asyncCancelAndDestroyTimer, List.append_assoc]
  rw [added]
  by_cases own : request = s.requests
  · rw [own, if_pos (List.mem_append_right _ List.mem_cons_self)]
    exact sound.fresh s.requests (Nat.le_refl _)
  · have before : request < s.requests := Nat.lt_of_le_of_ne (Nat.le_of_lt_succ made) own
    have same : request ∈ s.open ++ [s.requests] ↔ request ∈ s.open :=
      List.mem_append.trans (or_iff_left fun new => own (List.mem_singleton.mp new))
    exact (answered request before).trans (if_congr same.symm rfl rfl)

theorem answered_stopTimer_iff (sound : Sound s) (answered : Answered s) (sent : request ∈ s.sent) :
    Answered (stopTimerAsyncCb s request) ↔ Finds s (.stopTimerAsyncCb request) := by
  obtain ⟨here, unframed, made, erased⟩ := sound.sent sent
  obtain ⟨scheduler, spec⟩ := stopTimerAsyncCb_spec s request
  have silent : s.verdicts request = [] := (answered request made).trans (if_pos here)
  cases found : s.scheduler.isTimerPresentInList (some (s.timerOf request)) with
  | true =>
    rw [spec, if_pos found]
    refine iff_of_true (fun other before => ?_) found
    have moved : (request :: s.frames.filterMap Frame.destroying? ++
        s.sent.filter (· ≠ request)).Perm s.open := by
      rw [erased]
      exact List.perm_middle.symm.trans (List.Perm.append_left _ (List.perm_cons_erase sent).symm)
    have same : other ∈ request :: s.frames.filterMap Frame.destroying? ++
      s.sent.filter (· ≠ request) ↔ other ∈ s.open :=
      moved.mem_iff
    refine (answered other before).trans ?_
    by_cases waiting : other ∈ s.open
    · exact (if_pos waiting).trans (if_pos (same.mpr waiting)).symm
    · have different : other ≠ request := by
        rintro rfl
        exact waiting here
      refine (if_neg waiting).trans (Eq.trans ?_ (if_neg fun member => waiting (same.mp member)).symm)
      exact congrArg (fun flag => [flag]) (if_neg different).symm
  | false =>
    have missing : ¬ s.scheduler.isTimerPresentInList (some (s.timerOf request)) = true := by
      rw [found]
      exact Bool.false_ne_true
    rw [spec, if_neg missing]
    refine iff_of_false (fun after => ?_) missing
    have twice := after request made
    have closed : request ∉ s.frames.filterMap Frame.destroying? ++
        s.sent.filter (· ≠ request) := by
      rw [List.mem_append, mem_destroying]
      rintro (framed | again)
      · exact unframed framed
      · simp at again
    have lengths := congrArg List.length (twice.trans (if_neg closed))
    simp [silent] at lengths

theorem answered_resumed (sound : Sound s) (answered : Answered s) : Answered (resume s) := by
  rw [resume]
  cases frames : s.frames with
  | nil => exact answered
  | cons frame rest =>
    cases frame with
    | destroying request =>
      have open_cons : s.open = request :: (rest.filterMap Frame.destroying? ++ s.sent) := by
        rw [State.open, frames]
        rfl
      have nodup := sound.nodup
      rw [open_cons] at nodup
      have gone := (List.nodup_cons.mp nodup).1
      intro other made
      by_cases own : other = request
      · subst own
        have silent : s.verdicts other = [] :=
          (answered other made).trans (if_pos (by rw [open_cons]; exact List.mem_cons_self))
        have destroyed := sound.destroys other (frames ▸ List.mem_cons_self)
        refine Eq.trans ?_ (if_neg gone).symm
        simp [State.invoke, silent, destroyed]
      · refine (if_neg own).trans ((answered other made).trans ?_)
        have same : other ∈ s.open ↔ other ∈ rest.filterMap Frame.destroying? ++ s.sent := by
          rw [open_cons]
          exact List.mem_cons.trans (or_iff_right own)
        exact if_congr same rfl rfl
    | closing request =>
      have same : s.open = rest.filterMap Frame.destroying? ++ s.sent := by
        rw [State.open, frames]
        rfl
      intro other made
      refine (answered other made).trans ?_
      rw [same]
      rfl

/-- Every request is always answered once and truly just when each request that is
resolved finds its timer. -/
theorem answered_iff_finds (run : machine.Run es s) :
    machine.Always Answered es ↔ machine.Meets Finds es := by
  refine Machine.always_iff_meets (fun request made => absurd made (Nat.not_lt_zero _)) ?_ run
  intro fs s e t before answered step
  have sound := sound_of_run before
  cases Except.ok.inj step.2
  cases e with
  | asyncCancelAndDestroyTimer timer =>
    cases timer with
    | none => exact iff_of_true answered trivial
    | some timer => exact iff_of_true (answered_asked sound answered timer) trivial
  | stopTimerAsyncCb request =>
    exact answered_stopTimer_iff sound answered (by simpa [ready] using step.1)
  | resume => exact iff_of_true (answered_resumed sound answered) trivial
  | cancelTimer timer =>
    refine iff_of_true ?_ trivial
    simp only [next]
    split
    · exact answered
    · exact answered
  | schedule | cancelAndDestroyTimer | expire => exact iff_of_true answered trivial

def findsTest (s : State) : Event → Bool
  | .stopTimerAsyncCb request => s.scheduler.isTimerPresentInList (some (s.timerOf request))
  | _ => true

theorem finds_of_test (s : State) (e : Event) (passed : findsTest s e = true) : Finds s e := by
  cases e with
  | stopTimerAsyncCb request => exact passed
  | schedule | cancelTimer | cancelAndDestroyTimer | asyncCancelAndDestroyTimer | expire | resume =>
    trivial

/-- Two timers are cancelled, the second while the loop runs inside the callback of the first. -/
def nestedCancels : List Event :=
  [.schedule 1000 (-1), .schedule 1000 2, .asyncCancelAndDestroyTimer (some 0),
    .asyncCancelAndDestroyTimer (some 1), .expire 1, .stopTimerAsyncCb 0, .stopTimerAsyncCb 1,
    .resume, .resume, .resume, .resume]

theorem nestedCancels_answered :
    ∃ s, machine.Run nestedCancels s ∧
      (s.verdicts 0, s.verdicts 1, s.frames.length) = ([true], [true], 0) ∧
      machine.Always Answered nestedCancels := by
  have shown : (machine.exec {} nestedCancels).map (fun s =>
    (s.verdicts 0, s.verdicts 1, s.frames.length)) =
      some ([true], [true], 0) := by decide +kernel
  have passed : machine.checks findsTest {} nestedCancels = true := by decide +kernel
  have finds : machine.Meets Finds nestedCancels := fun _ _ _ inside path =>
    Machine.meets_of_checks finds_of_test passed inside path
  obtain ⟨s, run, same⟩ := Machine.exec_observe shown
  exact ⟨s, run, same, (answered_iff_finds run).mpr finds⟩

/-- The second request for a timer is told that it failed and then that it succeeded. -/
theorem cancelled_twice :
    ∃ s, machine.Run [.schedule 1000 (-1), .asyncCancelAndDestroyTimer (some 0),
      .asyncCancelAndDestroyTimer (some 0),
        .stopTimerAsyncCb 0, .resume, .stopTimerAsyncCb 1] s ∧
      (s.verdicts 0, s.verdicts 1, s.destroyed 1) = ([true], [false, true], false) ∧
        ¬ Answered s := by
  have shown : (machine.exec {} [.schedule 1000 (-1), .asyncCancelAndDestroyTimer (some 0),
      .asyncCancelAndDestroyTimer (some 0), .stopTimerAsyncCb 0, .resume, .stopTimerAsyncCb 1]).map
      (fun s => ((s.verdicts 0, s.verdicts 1, s.destroyed 1), s.requests, s.open)) =
      some (([true], [false, true], false), 2, []) := by decide +kernel
  obtain ⟨s, run, same⟩ := Machine.exec_observe shown
  obtain ⟨verdicts, made, closed⟩ := by simpa only [Prod.mk.injEq] using same
  refine ⟨s, run, Prod.ext verdicts.1 (Prod.ext verdicts.2.1 verdicts.2.2), fun answered => ?_⟩
  have once := answered 1 (by rw [made]; decide)
  rw [closed, verdicts.2.1] at once
  simp at once

end AsyncCancel
end Gearsdk
