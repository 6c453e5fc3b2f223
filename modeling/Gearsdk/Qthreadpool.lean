import Gearsdk.Transition

/-! The pool of worker threads. Every section between lock and unlock is one step;
a worker runs its task between two of them. The threads have been created, and
each of them has yet to call the callback that initialises it. The pool may be
stopped, and it may be destructed; the main thread drains it until the destructor
is over. -/
namespace Gearsdk
namespace Qthreadpool

/-- `id` numbers the tasks that are accepted. Nothing reads it. -/
structure Task where
  id : Nat
  userId : Int
  callback : Bool
  deriving DecidableEq

inductive Worker where
  | starting
  | ready
  | waiting
  | running (task : Task)
  | finishing (task : Task)
  | exited
  deriving DecidableEq

/-- What has become of the tasks. -/
inductive Trace where
  | accepted (task : Task)
  | executed (task : Task)
  | calledBack (task : Task)
  deriving DecidableEq

structure State where
  workers : List Worker
  tasks : List Task := []
  completedTasks : List Task := []
  initializedThreads : Nat := 0
  failedThreads : Nat := 0
  stopFlag : Bool := false
  destroyed : Bool := false
  destructing : Bool := false
  accepted : Nat := 0
  trace : List Trace := []

/-- The destructor is over. With the pool goes what it held. -/
def State.ended (s : State) : Bool := s.destructing && s.destroyed

/-- A mutex that has been destroyed is locked, or a thread is joined for the second
time. -/
inductive Fault where
  | destroyedMutex
  | stoppedTwice
  deriving DecidableEq

/-- `wakes` is the thread that is woken by the signal. A call of `stop` ends with
`joined`, the destructor with `destructed`. -/
inductive Event where
  | enqueue (userId : Int) (callback : Bool) (wakes : Option Nat)
  | initCallback (worker : Nat) (initialized : Bool)
  | look (worker : Nat)
  | wakeUp (worker : Nat)
  | execute (worker : Nat)
  | complete (worker : Nat)
  | processInMainThread
  | stop
  | joined
  | destruct
  | destructed
  deriving DecidableEq

def Worker.woken : Worker → Worker
  | .waiting => .ready
  | worker => worker

def State.put (s : State) (w : Nat) (worker : Worker) : State :=
  { s with workers := s.workers.set w worker }

def signal (workers : List Worker) : Option Nat → List Worker
  | none => workers
  | some w => workers.set w .ready

def enqueue (s : State) (userId : Int) (callback : Bool) (wakes : Option Nat) :
    Except Fault State :=
  if s.destroyed then .error .destroyedMutex
  else if s.initializedThreads = 0 then .ok s
  else
    let task := { id := s.accepted, userId, callback }
    .ok { s with
      tasks := s.tasks ++ [task], workers := signal s.workers wakes, accepted := s.accepted + 1,
      trace := s.trace ++ [.accepted task] }

/-- The rest of `stop`, which waits for the threads and takes the mutexes apart,
comes with the event that ends the call. -/
def stop (s : State) : Except Fault State :=
  if s.destroyed then .error .destroyedMutex
  else if s.stopFlag then .error .stoppedTwice
  else .ok { s with stopFlag := true, workers := s.workers.map Worker.woken }

/-- The destructor stops the pool, and does nothing else. -/
def destruct (s : State) : Except Fault State :=
  (stop s).map fun stopped => { stopped with destructing := true }

/-- The end of a thread's initialisation. -/
def initCallback (s : State) (w : Nat) (initialized : Bool) : State :=
  if initialized then { s.put w .ready with initializedThreads := s.initializedThreads + 1 }
  else { s.put w .exited with failedThreads := s.failedThreads + 1 }

/-- A thread with the queue before it. -/
def look (s : State) (w : Nat) : State :=
  match s.tasks with
  | [] => if s.stopFlag then s.put w .exited else s.put w .waiting
  | task :: tasks => { s.put w (.running task) with tasks }

def execute (s : State) (w : Nat) : State :=
  match s.workers[w]? with
  | some (.running task) =>
    { s.put w (.finishing task) with trace := s.trace ++ [.executed task] }
  | _ => s

def complete (s : State) (w : Nat) : State :=
  match s.workers[w]? with
  | some (.finishing task) =>
    { s.put w .ready with completedTasks := s.completedTasks ++ [task] }
  | _ => s

def processInMainThread (s : State) : State :=
  { s with
    completedTasks := []
    trace := s.trace ++ (s.completedTasks.filter Task.callback).map .calledBack }

/-- A signal wakes a thread if one is waiting. -/
def enabled (s : State) : Event → Prop
  | .enqueue _ _ none => .waiting ∉ s.workers
  | .enqueue _ _ (some w) => s.workers[w]? = some .waiting
  | .initCallback w _ => s.workers[w]? = some .starting
  | .look w => s.workers[w]? = some .ready
  | .wakeUp w => s.workers[w]? = some .waiting
  | .execute w => ∃ task, s.workers[w]? = some (.running task)
  | .complete w => ∃ task, s.workers[w]? = some (.finishing task)
  | .processInMainThread => s.ended = false
  | .stop => True
  | .joined => s.stopFlag = true ∧ s.destroyed = false ∧ s.destructing = false ∧
    ∀ worker ∈ s.workers, worker = .exited
  | .destruct => True
  | .destructed => s.destroyed = false ∧ s.destructing = true ∧
    ∀ worker ∈ s.workers, worker = .exited

instance (worker : Option Worker) : Decidable (∃ task, worker = some (.running task)) :=
  match worker with
  | some (.running task) => .isTrue ⟨task, rfl⟩
  | none | some .starting | some .ready | some .waiting | some (.finishing _) | some .exited =>
    .isFalse (by simp)

instance (worker : Option Worker) : Decidable (∃ task, worker = some (.finishing task)) :=
  match worker with
  | some (.finishing task) => .isTrue ⟨task, rfl⟩
  | none | some .starting | some .ready | some .waiting | some (.running _) | some .exited =>
    .isFalse (by simp)

instance (s : State) : (e : Event) → Decidable (enabled s e)
  | .enqueue _ _ none => inferInstanceAs (Decidable (.waiting ∉ s.workers))
  | .enqueue _ _ (some w) => inferInstanceAs (Decidable (s.workers[w]? = some .waiting))
  | .initCallback w _ => inferInstanceAs (Decidable (s.workers[w]? = some .starting))
  | .look w => inferInstanceAs (Decidable (s.workers[w]? = some .ready))
  | .wakeUp w => inferInstanceAs (Decidable (s.workers[w]? = some .waiting))
  | .execute w => inferInstanceAs (Decidable (∃ task, s.workers[w]? = some (.running task)))
  | .complete w => inferInstanceAs (Decidable (∃ task, s.workers[w]? = some (.finishing task)))
  | .processInMainThread => inferInstanceAs (Decidable (s.ended = false))
  | .stop => inferInstanceAs (Decidable True)
  | .joined => inferInstanceAs (Decidable (s.stopFlag = true ∧ s.destroyed = false ∧
      s.destructing = false ∧ ∀ worker ∈ s.workers, worker = .exited))
  | .destruct => inferInstanceAs (Decidable True)
  | .destructed => inferInstanceAs (Decidable (s.destroyed = false ∧ s.destructing = true ∧
      ∀ worker ∈ s.workers, worker = .exited))

def next (s : State) : Event → Except Fault State
  | .enqueue userId callback wakes => enqueue s userId callback wakes
  | .initCallback w initialized => .ok (initCallback s w initialized)
  | .look w => .ok (look s w)
  | .wakeUp w => .ok (s.put w .ready)
  | .execute w => .ok (execute s w)
  | .complete w => .ok (complete s w)
  | .processInMainThread => .ok (processInMainThread s)
  | .stop => stop s
  | .joined => .ok { s with destroyed := true }
  | .destruct => destruct s
  | .destructed => .ok { s with destroyed := true }

def pool (numThreads : Nat) : Transition.Machine State Event Fault where
  init := { workers := List.replicate numThreads .starting }
  enabled := enabled
  next := next

instance (numThreads : Nat) (s : State) (e : Event) : Decidable ((pool numThreads).enabled s e) :=
  inferInstanceAs (Decidable (enabled s e))

end Qthreadpool
end Gearsdk
