import Mathlib.Data.List.Basic

/-! Timers of the event loop and the scheduler that owns them. A timer object is
named by the number of its allocation, so a pointer to a destroyed timer never
names a later one. The callback of a timer runs in its owner. -/
namespace Gearsdk

structure Qtimer where
  ptr : Nat
  count : Int
  finished : Bool := false
  /-- In milliseconds. -/
  delay : Nat

/-- The count and the finished flag as `qtimer::evtimer_cb` leaves them before
it runs the callback. A count of -1 repeats forever. -/
def Qtimer.evtimerCb (timer : Qtimer) : Qtimer :=
  if timer.count = -1 then timer
  else { timer with
    count := timer.count - 1
    finished := timer.finished || decide (timer.count - 1 ≤ 0) }

@[simp] theorem Qtimer.evtimerCb_ptr (timer : Qtimer) : timer.evtimerCb.ptr = timer.ptr := by
  simp only [evtimerCb]
  split <;> rfl

structure QtimerScheduler where
  timers : List Qtimer := []
  allocated : Nat := 0

namespace QtimerScheduler

/-- Membership of a possibly null pointer in the list of live timers. -/
def isTimerPresentInList (scheduler : QtimerScheduler) : Option Nat → Bool
  | none => false
  | some ptr => scheduler.timers.any (·.ptr = ptr)

/-- The event loop fires timers that are listed and have not been stopped. -/
def isActive (scheduler : QtimerScheduler) (ptr : Nat) : Bool :=
  scheduler.timers.any fun timer => timer.ptr = ptr && !timer.finished

def find (scheduler : QtimerScheduler) (ptr : Nat) : Option Qtimer :=
  scheduler.timers.find? (·.ptr = ptr)

def update (scheduler : QtimerScheduler) (timer : Qtimer) : QtimerScheduler :=
  { scheduler with
    timers := scheduler.timers.map fun other => if other.ptr = timer.ptr then timer else other }

/-- Only a finished timer is destroyed. -/
def destroyTimer (scheduler : QtimerScheduler) (ptr : Nat) : QtimerScheduler × Bool :=
  match scheduler.find ptr with
  | none => (scheduler, false)
  | some timer =>
      if timer.finished then
        ({ scheduler with timers := scheduler.timers.filter (·.ptr ≠ ptr) }, true)
      else (scheduler, false)

/-- Sets the finished flag and stops the watcher. -/
def stop (scheduler : QtimerScheduler) (ptr : Nat) : QtimerScheduler :=
  { scheduler with
    timers := scheduler.timers.map fun other =>
      if other.ptr = ptr then { other with finished := true } else other }

def cancelAndDestroyTimer (scheduler : QtimerScheduler) (timer : Option Nat) :
    QtimerScheduler × Bool :=
  match timer with
  | none => (scheduler, false)
  | some ptr =>
      if scheduler.isTimerPresentInList (some ptr) then (scheduler.stop ptr).destroyTimer ptr
      else (scheduler, false)

def scheduleCountTimer (scheduler : QtimerScheduler) (delay : Nat) (count : Int) :
    QtimerScheduler × Nat :=
  let timer : Qtimer := { ptr := scheduler.allocated, count, delay }
  ({ timers := scheduler.timers ++ [timer], allocated := scheduler.allocated + 1 }, timer.ptr)

theorem stop_finished (member : timer ∈ (stop scheduler ptr).timers) (same : timer.ptr = ptr) :
    timer.finished = true := by
  obtain ⟨other, _, rfl⟩ := List.mem_map.mp member
  by_cases chosen : other.ptr = ptr
  · simp [chosen]
  · simp [chosen] at same

theorem stop_find (present : scheduler.isTimerPresentInList (some ptr) = true) :
    ∃ timer, (stop scheduler ptr).find ptr = some timer ∧ timer.finished = true := by
  obtain ⟨listed, member, same⟩ := List.any_eq_true.mp present
  have exists_found : ((stop scheduler ptr).find ptr).isSome = true := by
    apply List.find?_isSome.mpr
    refine ⟨{ listed with finished := true }, List.mem_map.mpr ⟨listed, member, ?_⟩, same⟩
    simp [of_decide_eq_true same]
  obtain ⟨timer, found⟩ := Option.isSome_iff_exists.mp exists_found
  have named : timer.ptr = ptr := by
    simp only [find] at found
    simpa using List.find?_some found
  exact ⟨timer, found, stop_finished (List.mem_of_find?_eq_some found) named⟩

theorem stop_filter (scheduler : QtimerScheduler) (ptr : Nat) :
    (stop scheduler ptr).timers.filter (·.ptr ≠ ptr) = scheduler.timers.filter (·.ptr ≠ ptr) := by
  simp only [stop]
  induction scheduler.timers with
  | nil => rfl
  | cons timer rest ih =>
    by_cases same : timer.ptr = ptr
    · simpa [same] using ih
    · simpa [same] using ih

/-- Cancelling a listed timer removes it, whatever its state. A null pointer or
a pointer to a destroyed timer is not looked at. -/
theorem cancelAndDestroyTimer_eq (scheduler : QtimerScheduler) (timer : Option Nat) :
    scheduler.cancelAndDestroyTimer timer =
      if scheduler.isTimerPresentInList timer then
        ({ scheduler with timers := scheduler.timers.filter fun other => some other.ptr ≠ timer }, true)
      else (scheduler, false) := by
  cases timer with
  | none => rfl
  | some ptr =>
    simp only [cancelAndDestroyTimer]
    split
    · rename_i present
      obtain ⟨timer, found, finished⟩ := stop_find present
      simp only [destroyTimer, found, finished, if_true, stop_filter, ne_eq, Option.some.injEq]
      rfl
    · rfl

end QtimerScheduler
end Gearsdk
