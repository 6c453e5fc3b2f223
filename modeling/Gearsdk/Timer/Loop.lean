import Gearsdk.Timer
import Gearsdk.Transition
import Mathlib.Algebra.Group.Int.Defs
import Mathlib.Algebra.Group.Nat.Defs

/-! The scheduler of timers, the objects that it allocates, and the loop that runs their
callbacks. Between the expiry of a timer and the return of its callback the program may come
back to the scheduler. -/
namespace Gearsdk
namespace TimerLoop
open Transition

/-- A `float` keeps 24 bits; a tie goes to the even neighbour. -/
def floatBits (n : Nat) : Nat :=
  let unit := 2 ^ (n.log2 - 23)
  if 2 * (n % unit) < unit ∨ 2 * (n % unit) = unit ∧ n / unit % 2 = 0 then n / unit * unit
    else (n / unit + 1) * unit

/-- The constructor of a timer takes its count as a `float`. -/
def throughFloat (count : Int) : Int := count.sign * floatBits count.natAbs

/-- What a pointer stands for, with what has been seen of it: the count it was scheduled with,
the counts its callback was invoked with, how many these were when it was first cancelled, and
how often it was destroyed. -/
structure Cell where
  object : Option Qtimer := none
  armed : Bool := false
  scheduled : Option Int := none
  calls : List Int := []
  cancelledAfter : Option Nat := none
  destroyed : Nat := 0

namespace Cell

def evTimerStop (cell : Cell) : Cell := { cell with armed := false }

/-- A watcher is armed again if it repeats. -/
def evTimerAgain (cell : Cell) (repeats : Nat) : Cell := { cell with armed := repeats ≠ 0 }

def cancelled (cell : Cell) : Cell :=
  { cell with cancelledAfter := cell.cancelledAfter.or (some cell.calls.length) }

def freed (cell : Cell) : Cell := { cell with object := none, destroyed := cell.destroyed + 1 }

end Cell

structure State where
  cells : Nat → Cell := fun _ => {}
  timers : List Nat := []
  allocated : Nat := 0
  /-- The timer whose callback is running. -/
  firing : Option Nat := none
  /-- The scheduler has been destroyed. -/
  gone : Bool := false

/-- A destroyed object is used. -/
structure Freed where
  ptr : Nat

namespace State

def put (s : State) (ptr : Nat) (cell : Cell) : State :=
  { s with cells := fun other => if other = ptr then cell else s.cells other }

def deref (s : State) (ptr : Nat) : Except Freed Qtimer :=
  match (s.cells ptr).object with
  | some timer => .ok timer
  | none => .error ⟨ptr⟩

def delete (s : State) (ptr : Nat) : Except Freed State := do
  let _ ← s.deref ptr
  .ok (s.put ptr (s.cells ptr).freed)

def isTimerPresentInList (s : State) : Option Nat → Bool
  | none => false
  | some ptr => ptr ∈ s.timers

/-- `schedule_timer` has the count 1, `schedule_repeat_timer` the count -1. -/
def scheduleCountTimer (s : State) (delay : Nat) (count : Int) : State :=
  let timer : Qtimer := { ptr := s.allocated, count := throughFloat count, delay }
  { s.put s.allocated { s.cells s.allocated with
    object := some timer, armed := true, scheduled := some count } with
    timers := s.timers ++ [s.allocated]
    allocated := s.allocated + 1 }

/-- Sets the finished flag and stops the watcher. -/
def stop (s : State) (ptr : Nat) : Except Freed State := do
  let timer ← s.deref ptr
  .ok (s.put ptr { s.cells ptr with object := some { timer with finished := true } }.evTimerStop)

def destroyTimer (s : State) (ptr : Nat) : Except Freed (State × Bool) := do
  let timer ← s.deref ptr
  if !timer.finished then .ok (s, false)
  else
    let timers := s.timers.filter (· ≠ ptr)
    if timers.length ≠ s.timers.length then
      let s ← { s with timers }.delete ptr
      .ok (s, true)
    else .ok ({ s with timers }, false)

def cancelTimer (s : State) (timer : Option Nat) : Except Freed State :=
  match timer with
  | none => .ok s
  | some ptr =>
    if s.isTimerPresentInList (some ptr) then (s.put ptr (s.cells ptr).cancelled).stop ptr
      else .ok s

def cancelAndDestroyTimer (s : State) (timer : Option Nat) : Except Freed (State × Bool) :=
  match timer with
  | none => .ok (s, false)
  | some ptr =>
      if s.isTimerPresentInList (some ptr) then do
        let s ← (s.put ptr (s.cells ptr).cancelled).stop ptr
        s.destroyTimer ptr
      else .ok (s, false)

/-- `evtimer_cb` up to the callback of the program. -/
def evtimerCb (s : State) (ptr : Nat) : Except Freed State := do
  let timer ← s.deref ptr
  let called := timer.evtimerCb
  let cell := { s.cells ptr with
    object := some called, calls := (s.cells ptr).calls ++ [called.count] }
  if timer.count = -1 then .ok { s.put ptr (cell.evTimerAgain timer.delay) with firing := some ptr }
  else if timer.count - 1 ≤ 0 then .ok { s.put ptr cell.evTimerStop with firing := some ptr }
  else .ok { s.put ptr (cell.evTimerAgain timer.delay) with firing := some ptr }

/-- `evtimer_scheduler_cb` after the callback of the program. -/
def evtimerSchedulerCb (s : State) : Except Freed State :=
  match s.firing with
  | none => .ok s
  | some ptr => do
      let timer ← s.deref ptr
      if timer.finished then
        let (s, _) ← s.destroyTimer ptr
        .ok { s with firing := none }
      else .ok { s with firing := none }

def destroyEach (s : State) : (timers : List Nat) → Except Freed State
  | [] => .ok s
  | ptr :: rest => do
      let s ← s.stop ptr
      let s ← s.delete ptr
      s.destroyEach rest

def destroyAll (s : State) : Except Freed State := do
  let s ← s.destroyEach s.timers
  .ok { s with gone := true }

end State

inductive Event where
  | schedule (delay : Nat) (count : Int)
  | cancelTimer (timer : Option Nat)
  | cancelAndDestroyTimer (timer : Option Nat)
  | expire (ptr : Nat)
  | callbackReturns
  | destroyScheduler

/-- The loop runs one callback at a time. A callback does not destroy the timer it is of. -/
def ready (s : State) : Event → Bool
  | .schedule .. | .cancelTimer _ => !s.gone
  | .cancelAndDestroyTimer timer => !s.gone && (timer = none || timer ≠ s.firing)
  | .expire ptr => !s.gone && s.firing = none && (s.cells ptr).armed
  | .callbackReturns => !s.gone && s.firing ≠ none
  | .destroyScheduler => !s.gone && s.firing = none

def next (s : State) : Event → Except Freed State
  | .schedule delay count => .ok (s.scheduleCountTimer delay count)
  | .cancelTimer timer => s.cancelTimer timer
  | .cancelAndDestroyTimer timer => (s.cancelAndDestroyTimer timer).map Prod.fst
  | .expire ptr => s.evtimerCb ptr
  | .callbackReturns => s.evtimerSchedulerCb
  | .destroyScheduler => s.destroyAll

abbrev machine : Machine State Event Freed where
  init := {}
  enabled s e := ready s e = true
  next := next

/-- The counts that the first `k` calls of a timer see that was scheduled with the count `n`. -/
def countsDown (n : Int) (k : Nat) : List Int := (List.range k).map fun (i : Nat) => n - 1 - i

/-- The counts that a `float` takes as they are. -/
def Exact (n : Int) : Prop := 1 ≤ n ∧ n ≤ 2 ^ 24

/-- What a timer is promised. -/
structure Kept (s : State) (ptr : Nat) : Prop where
  /-- A timer that is not cancelled is called with one count after the other. It is armed and
  listed while it has calls left, and destroyed once after the last one. -/
  counted : ∀ n, (s.cells ptr).scheduled = some n → Exact n → (s.cells ptr).cancelledAfter = none →
    ∃ k : Nat, k ≤ n ∧ (s.cells ptr).calls = countsDown n k ∧ (s.gone = false →
      (k < n → (s.cells ptr).armed = true ∧ ptr ∈ s.timers ∧ (s.cells ptr).destroyed = 0) ∧
      (k = n → s.firing = some ptr ∨ ptr ∉ s.timers ∧ (s.cells ptr).destroyed = 1))
  silent : ∀ k, (s.cells ptr).cancelledAfter = some k → (s.cells ptr).calls.length = k
  once : (s.cells ptr).destroyed ≤ 1
  ended : s.gone = true → (s.cells ptr).scheduled ≠ none → (s.cells ptr).destroyed = 1

/-- A timer that is fired with calls left repeats. -/
def Rearms (s : State) : Event → Prop
  | .expire ptr => ∀ timer n, (s.cells ptr).object = some timer →
    (s.cells ptr).scheduled = some n → Exact n →
      2 ≤ timer.count → timer.delay ≠ 0
  | _ => True

end TimerLoop
end Gearsdk
