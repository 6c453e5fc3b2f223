import Gearsdk.Qthreadpool.Tasks

/-! What becomes of the tasks that the pool accepts: which runs do every one of them
exactly once. -/
namespace Gearsdk
namespace Qthreadpool
open Transition.Machine

variable {s t : State} {e : Event}

/-- The thread has been initialised and has not left its loop. -/
def Worker.alive : Worker → Bool
  | .starting => false
  | .exited => false
  | _ => true

/-- The thread will look at the queue without being woken. -/
def Worker.active : Worker → Bool
  | .ready => true
  | .running _ => true
  | .finishing _ => true
  | _ => false

/-! ### Threads -/

def Alive (s : State) : Prop := ∃ p ∈ s.workers, p.alive = true

/-- A queue that is not empty has a thread that will look at it, unless none is left. -/
def Attended (s : State) : Prop := s.tasks ≠ [] → (∃ p ∈ s.workers, p.active = true) ∨ ¬ Alive s

/-- Some thread will take what is queued. -/
def Live (s : State) : Prop := s.tasks = [] ∨ Alive s

theorem alive_iff_active {p : Worker} (awake : p ≠ .waiting) :
    p.alive = true ↔ p.active = true := by
  cases p <;> first | exact Iff.rfl | exact absurd rfl awake

/-- What one thread does leaves the others as they are. -/
theorem alive_put (here : s.workers[w]? = some p) (same : p'.alive = p.alive) :
    Alive (s.put w p') ↔ Alive s := by
  constructor
  · rintro ⟨q, member, alive⟩
    rcases mem_of_mem_put member with rfl | member
    · exact ⟨p, List.mem_of_getElem? here, same ▸ alive⟩
    · exact ⟨q, member, alive⟩
  · rintro ⟨q, member, alive⟩
    by_cases self : q = p
    · exact ⟨p', self_mem_put here p', by rw [same, ← self, alive]⟩
    · exact ⟨q, mem_put here member self p', alive⟩

theorem alive_self {w : Nat} {p : Worker} (here : s.workers[w]? = some p)
    (alive : p.alive = true) : Alive s :=
  ⟨p, List.mem_of_getElem? here, alive⟩

theorem alive_woken {p : Worker} : p.woken.alive = p.alive := by
  cases p <;> rfl

theorem alive_map_woken (s : State) :
    Alive { s with workers := s.workers.map Worker.woken } ↔ Alive s := by
  simp only [Alive, List.mem_map, exists_exists_and_eq_and, alive_woken]

theorem Attended.wake (attended : Attended s) :
    Attended { s with workers := s.workers.map Worker.woken } := by
  intro filled
  rcases attended filled with ⟨p, member, active⟩ | none
  · refine .inl ⟨p.woken, List.mem_map_of_mem member, ?_⟩
    cases p <;> first | exact active | contradiction
  · exact .inr fun alive => none ((alive_map_woken s).mp alive)

theorem Attended.step (attended : Attended s) (effect : Effect s e t) : Attended t := by
  have active : ∀ {w p p'}, s.workers[w]? = some p → p'.active = true → ∃ q ∈ (s.put w p').workers,
    q.active = true :=
    fun here active => ⟨_, self_mem_put here _, active⟩
  cases effect with
  | rejected | processed | joined | destructed => exact attended
  | unnoticed task intact new initialized busy =>
    intro _
    by_cases alive : Alive s
    · obtain ⟨p, member, alive⟩ := alive
      have awake : p ≠ .waiting := by
        rintro rfl
        exact busy member
      exact .inl ⟨p, member, (alive_iff_active awake).mp alive⟩
    · exact .inr alive
  | noticed task w intact new initialized here => exact fun _ => .inl (active here rfl)
  | initialized w here => exact fun _ => .inl (active here rfl)
  | failed w here =>
    intro filled
    rcases attended filled with ⟨p, member, active⟩ | none
    · refine .inl ⟨p, mem_put here member ?_ _, active⟩
      rintro rfl
      contradiction
    · have put : Alive (s.put w .exited) ↔ Alive s := alive_put here rfl
      exact .inr fun alive => none (put.mp alive)
  | took w task rest here queue => exact fun _ => .inl (active here rfl)
  | waited w here empty go => exact fun filled => absurd empty filled
  | left w here empty stopped => exact fun filled => absurd empty filled
  | woke w here => exact fun _ => .inl (active here rfl)
  | executed w task here => exact fun _ => .inl (active here rfl)
  | completed w task here => exact fun _ => .inl (active here rfl)
  | stopped => exact attended.wake
  | destructing => exact attended.wake

/-- Nothing that wants a callback has gone with the pool. -/
def Drained (s : State) : Prop := s.ended = true → ∀ task ∈ s.completedTasks, task.callback = false

/-! ### Runs -/

variable {n : Nat}

/-- Steps of the threads, of the drain and of the end of a stop. -/
def Event.working : Event → Bool
  | .enqueue _ _ _ => false
  | .stop => false
  | .destruct => false
  | .destructed => false
  | _ => true

/-- Nothing is left to do without a wake-up. What has been completed waits for the
drain as long as there is one. -/
def Quiescent (s : State) : Prop :=
  (∀ p ∈ s.workers, p = .waiting ∨ p = .exited) ∧ (s.completedTasks = [] ∨ s.ended = true)

/-- The task was executed exactly once, and called back exactly once if it asked for it. -/
def Done (s : State) (x : Task) : Prop :=
  s.trace.count (.executed x) = 1 ∧ s.trace.count (.calledBack x) = if x.callback then 1 else 0

/-- No task is executed or called back twice, or called back before it was
executed; and when the threads come to rest, as they can, all tasks that have been
accepted are done. -/
structure ExactlyOnce (n : Nat) (s : State) : Prop where
  executed : ∀ x, s.trace.count (.executed x) ≤ 1
  calledBack : ∀ x, s.trace.count (.calledBack x) ≤ 1
  inOrder : ∀ a x b, s.trace = a ++ .calledBack x :: b → .executed x ∈ a
  settles : ∃ es t, (pool n).Reaches s es t ∧ (∀ e ∈ es, e.working = true) ∧ Quiescent t
  settled : ∀ es t, (pool n).Reaches s es t → (∀ e ∈ es, e.working = true) → Quiescent t →
    ∀ x, .accepted x ∈ t.trace → Done t x

/-- What every state of a run has. -/
structure Sound (s : State) : Prop where
  ledger : Ledger s
  attended : Attended s
  gone : s.ended = true → ∀ p ∈ s.workers, p = .exited
  flagged : s.destroyed = true ∨ s.destructing = true → s.stopFlag = true

/-- As long as a thread has not left, the pool is there. -/
theorem Sound.there {w : Nat} {p : Worker} (sound : Sound s) (here : s.workers[w]? = some p)
    (inside : p ≠ .exited) :
    s.ended = false := by
  by_contra ended
  exact inside (sound.gone (eq_true_of_ne_false ended) p (List.mem_of_getElem? here))

theorem gone_step (sound : Sound s) (effect : Effect s e t) :
    t.ended = true → ∀ p ∈ t.workers, p = .exited := by
  have before : ∀ {w : Nat} {p : Worker}, s.workers[w]? = some p → p ≠ .exited → s.ended = true →
      False :=
    fun here inside ended => Bool.noConfusion ((sound.there here inside).symm.trans ended)
  cases effect with
  | rejected | unnoticed | processed => exact sound.gone
  | noticed _ _ _ _ _ here | initialized _ here | failed _ here | took _ _ _ here | waited _ here
  | left _ here | woke _ here | executed _ _ here | completed _ _ here =>
    exact fun ended => (before here Worker.noConfusion ended).elim
  | stopped go intact =>
    intro ended
    simp [State.ended, intact] at ended
  | destructing go intact =>
    intro ended
    simp [State.ended, intact] at ended
  | joined stopped kept gone => exact fun _ => gone
  | destructed begun gone => exact fun _ => gone

theorem flagged_step (sound : Sound s) (effect : Effect s e t) :
    t.destroyed = true ∨ t.destructing = true → t.stopFlag = true := by
  cases effect with
  | stopped | destructing => exact fun _ => rfl
  | joined stopped => exact fun _ => stopped
  | destructed begun => exact fun _ => sound.flagged (.inr begun)
  | _ => exact sound.flagged

theorem Sound.step (sound : Sound s) (effect : Effect s e t) : Sound t where
  ledger := sound.ledger.step effect
  attended := sound.attended.step effect
  gone := gone_step sound effect
  flagged := flagged_step sound effect

theorem Sound.init (n : Nat) : Sound (pool n).init where
  ledger := {
    accepted := fun x => by simp [pool, List.count_replicate]
    executed := fun x _ => by simp [pool, List.count_replicate]
    silent := fun _ _ => rfl
    fresh := fun _ member => absurd member List.not_mem_nil
    once := fun _ => Nat.zero_le _
    inOrder := fun a x b same => absurd same.symm (by simp [pool]) }
  attended := fun filled => absurd rfl filled
  gone := fun ended => absurd ended (by simp [State.ended, pool])
  flagged := by simp [pool]

/-- What keeps a step from losing a task, or from a fault. -/
def Safe (s : State) : Event → Prop
  | .enqueue _ _ _ => s.destroyed = false ∧ (s.initializedThreads = 0 ∨ Alive s)
  | .stop => s.stopFlag = false
  | .destruct => s.stopFlag = false
  | .destructed => ∀ task ∈ s.completedTasks, task.callback = false
  | _ => True

/-- No task is lost. -/
structure Kept (s : State) : Prop where
  live : Live s
  drained : Drained s

theorem Kept.step (kept : Kept s) (sound : Sound s) (effect : Effect s e t) :
    Kept t ↔ Safe s e := by
  have put : ∀ {w p} (p' : Worker), s.workers[w]? = some p → p'.alive = p.alive →
    Kept (s.put w p') :=
    fun p' here same => ⟨kept.live.imp_right (alive_put here same).mpr, kept.drained⟩
  cases effect with
  | rejected userId callback wakes intact uninitialized =>
    exact iff_of_true kept ⟨intact, .inl uninitialized⟩
  | unnoticed task intact new initialized busy =>
    have filled : s.tasks ++ [task] ≠ [] :=
      List.append_ne_nil_of_right_ne_nil _ (List.cons_ne_nil _ _)
    constructor
    · intro after
      exact ⟨intact, .inr (after.live.resolve_left filled)⟩
    · intro safe
      exact ⟨.inr (safe.2.resolve_left initialized), kept.drained⟩
  | noticed task w intact new initialized here =>
    exact iff_of_true ⟨.inr ⟨_, self_mem_put here _, rfl⟩, kept.drained⟩
      ⟨intact, .inr (alive_self here rfl)⟩
  | initialized w here | took w _ _ here =>
    exact iff_of_true ⟨.inr ⟨_, self_mem_put here _, rfl⟩, kept.drained⟩ trivial
  | failed w here =>
    have after := put .exited here rfl
    exact iff_of_true ⟨after.live, after.drained⟩ trivial
  | waited w here empty go => exact iff_of_true ⟨.inl empty, kept.drained⟩ trivial
  | left w here empty stopped => exact iff_of_true ⟨.inl empty, kept.drained⟩ trivial
  | woke w here => exact iff_of_true (put .ready here rfl) trivial
  | executed w task here =>
    have after := put (.finishing task) here rfl
    exact iff_of_true ⟨after.live, after.drained⟩ trivial
  | completed w task here =>
    have after := put .ready here rfl
    refine iff_of_true ⟨after.live, fun ended => ?_⟩ trivial
    exact Bool.noConfusion ((sound.there here Worker.noConfusion).symm.trans ended)
  | processed => exact iff_of_true ⟨kept.live, fun _ _ none => absurd none List.not_mem_nil⟩ trivial
  | stopped go => exact iff_of_true ⟨kept.live.imp_right (alive_map_woken s).mpr, kept.drained⟩ go
  | destructing go intact =>
    refine iff_of_true ⟨kept.live.imp_right (alive_map_woken s).mpr, fun ended => ?_⟩ go
    simp [State.ended, intact] at ended
  | joined stopped open' =>
    refine iff_of_true ⟨kept.live, fun ended => ?_⟩ trivial
    simp [State.ended, open'] at ended
  | destructed begun =>
    have ended : State.ended { s with destroyed := true } = true := by simp [State.ended, begun]
    exact ⟨fun after => after.drained ended, fun safe => ⟨kept.live, fun _ => safe⟩⟩

theorem Ledger.executed_once (ledger : Ledger s) (x : Task) : s.trace.count (.executed x) ≤ 1 := by
  have accepted := ledger.accepted x
  have once := ledger.once x
  omega

theorem Ledger.calledBack_once (ledger : Ledger s) (x : Task) :
    s.trace.count (.calledBack x) ≤ 1 := by
  cases callback : x.callback with
  | false =>
    rw [ledger.silent x callback]
    exact Nat.zero_le _
  | true =>
    have executed := ledger.executed x callback
    have once := ledger.executed_once x
    omega

/-- At rest a task is done unless it is still queued or has gone with the pool. -/
theorem Sound.done (sound : Sound s) (rest : Quiescent s) (kept : Kept s) {x : Task}
    (accepted : .accepted x ∈ s.trace) : Done s x := by
  obtain ⟨idle, drained⟩ := rest
  have holding : ∀ p, p ≠ .waiting → p ≠ .exited → s.workers.count p = 0 := by
    intro p awake inside
    rw [List.count_eq_zero]
    exact fun member => (idle p member).elim awake inside
  have empty : s.tasks = [] := by
    by_contra filled
    rcases sound.attended filled with ⟨p, member, active⟩ | none
    · rcases idle p member with rfl | rfl <;> contradiction
    · exact none (kept.live.resolve_left filled)
  have ran := sound.ledger.accepted x
  have once := sound.ledger.once x
  have some := List.count_pos_iff.mpr accepted
  rw [empty, List.count_nil, holding _ Worker.noConfusion Worker.noConfusion] at ran
  refine ⟨by omega, ?_⟩
  cases callback : x.callback with
  | false => exact sound.ledger.silent x callback
  | true =>
    have finished := sound.ledger.executed x callback
    have none : s.completedTasks.count x = 0 := by
      rw [List.count_eq_zero]
      intro member
      rcases drained with empty | ended
      · exact List.not_mem_nil (empty ▸ member)
      · exact Bool.noConfusion ((kept.drained ended x member).symm.trans callback)
    rw [none, holding _ Worker.noConfusion Worker.noConfusion] at finished
    simp only [if_true]
    omega

theorem Kept.working (kept : Kept s) (sound : Sound s) (effect : Effect s e t)
    (working : e.working = true) : Kept t := by
  refine (kept.step sound effect).mpr ?_
  cases e with
  | enqueue | stop | destruct | destructed => contradiction
  | _ => trivial

/-- How much is left to do. -/
def Worker.weight : Worker → Nat
  | .starting => 1
  | .ready => 1
  | .waiting => 0
  | .running _ => 4
  | .finishing _ => 3
  | .exited => 0

def left (s : State) : Nat :=
  4 * s.tasks.length + (s.workers.map Worker.weight).sum + s.completedTasks.length

theorem sum_set {workers : List Worker} (here : workers[w]? = some p) (p' : Worker) :
    ((workers.set w p').map Worker.weight).sum + p.weight = (workers.map Worker.weight).sum +
      p'.weight := by
  induction workers generalizing w with
  | nil => simp at here
  | cons first rest ih =>
    cases w with
    | zero =>
      obtain rfl := Option.some.inj here
      simp only [List.set_cons_zero, List.map_cons, List.sum_cons]
      omega
    | succ w =>
      have later := ih here
      simp only [List.set_cons_succ, List.map_cons, List.sum_cons]
      omega

/-- No thread is initialised any more. -/
def Event.quiet : Event → Bool
  | .initCallback _ initialized => !initialized
  | e => e.working

theorem working_of_quiet (quiet : e.quiet = true) : e.working = true := by
  cases e <;> first | rfl | exact quiet

/-- Away from rest some step leaves less to do. -/
theorem progress (n : Nat) (busy : ¬ Quiescent s) :
    ∃ e t, (pool n).Step s e t ∧ e.quiet = true ∧ left t < left s := by
  by_cases idle : ∀ p ∈ s.workers, p = .waiting ∨ p = .exited
  · have filled : s.completedTasks ≠ [] := fun empty => busy ⟨idle, .inl empty⟩
    have there : s.ended = false := by
      by_contra ended
      exact busy ⟨idle, .inr (eq_true_of_ne_false ended)⟩
    refine ⟨.processInMainThread, _, ⟨there, rfl⟩, rfl, ?_⟩
    have some := List.length_pos_iff.mpr filled
    simp only [processInMainThread, left, List.length_nil]
    omega
  · obtain ⟨p, later⟩ := not_forall.mp idle
    obtain ⟨member, moves⟩ := Classical.not_imp.mp later
    obtain ⟨w, here⟩ := List.mem_iff_getElem?.mp member
    have sum := sum_set here
    cases p with
    | waiting => exact absurd (.inl rfl) moves
    | exited => exact absurd (.inr rfl) moves
    | starting =>
      refine ⟨.initCallback w false, _, ⟨here, rfl⟩, rfl, ?_⟩
      have weight := sum .exited
      simp only [Worker.weight] at weight
      change 4 * s.tasks.length + ((s.workers.set w .exited).map Worker.weight).sum +
        s.completedTasks.length < left s
      simp only [left]
      omega
    | ready =>
      refine ⟨.look w, _, ⟨here, rfl⟩, rfl, ?_⟩
      cases queue : s.tasks with
      | nil =>
        have exited := sum .exited
        have waiting := sum .waiting
        simp only [Worker.weight] at exited waiting
        cases flag : s.stopFlag <;>
          simp only [look, queue, flag, left, State.put, List.length_nil, Bool.false_eq_true,
            if_false, if_true] <;>
          omega
      | cons task rest =>
        have running := sum (.running task)
        simp only [Worker.weight] at running
        simp only [look, queue, left, State.put, List.length_cons]
        omega
    | running task =>
      refine ⟨.execute w, _, ⟨⟨task, here⟩, rfl⟩, rfl, ?_⟩
      have finishing := sum (.finishing task)
      simp only [Worker.weight] at finishing
      simp only [execute, here, left, State.put]
      omega
    | finishing task =>
      refine ⟨.complete w, _, ⟨⟨task, here⟩, rfl⟩, rfl, ?_⟩
      have ready := sum .ready
      simp only [Worker.weight] at ready
      simp only [complete, here, left, State.put, List.length_append, List.length_singleton]
      omega

theorem settles (n : Nat) (s : State) :
    ∃ es t, (pool n).Reaches s es t ∧ (∀ e ∈ es, e.quiet = true) ∧ Quiescent t := by
  induction bound : left s using Nat.strongRecOn generalizing s with
  | ind bound ih =>
    by_cases rest : Quiescent s
    · exact ⟨[], s, .refl s, fun _ member => absurd member List.not_mem_nil, rest⟩
    · obtain ⟨e, t, step, quiet, less⟩ := progress n rest
      obtain ⟨es, u, path, quiets, rest⟩ := ih (left t) (bound ▸ less) t rfl
      refine ⟨e :: es, u, (Reaches.single step).trans path, ?_, rest⟩
      intro e' member
      rcases List.mem_cons.mp member with rfl | later
      · exact quiet
      · exact quiets e' later

/-- Without a thread that is alive, what is queued stays queued. -/
theorem Effect.stays (effect : Effect s e t) (quiet : e.quiet = true) (dead : ¬ Alive s) :
    ¬ Alive t ∧ t.tasks = s.tasks := by
  cases effect with
  | rejected | unnoticed | noticed | initialized | stopped | destructing | destructed =>
    contradiction
  | processed | joined => exact ⟨dead, rfl⟩
  | failed w here =>
    have put : Alive (s.put w .exited) ↔ Alive s := alive_put here rfl
    exact ⟨fun alive => dead (put.mp alive), rfl⟩
  | took w _ _ here | waited w here | left w here | woke w here | executed w _ here
  | completed w _ here =>
    exact absurd (alive_self here rfl) dead

theorem stays (path : (pool n).Reaches s es t) (quiet : ∀ e ∈ es, e.quiet = true)
    (dead : ¬ Alive s) : ¬ Alive t ∧ t.tasks = s.tasks := by
  induction path with
  | refl => exact ⟨dead, rfl⟩
  | @step es t e u path last ih =>
    obtain ⟨dead, same⟩ := ih fun e' member => quiet e' (List.mem_append_left _ member)
    have quiet := quiet e (List.mem_append_right _ (List.mem_singleton_self e))
    obtain ⟨dead, same'⟩ := (effect_of_step last).stays quiet dead
    exact ⟨dead, same'.trans same⟩

theorem Sound.along (sound : Sound s) (path : (pool n).Reaches s es t) : Sound t :=
  path.invariant (fun sound step => sound.step (effect_of_step step)) sound

theorem Kept.along (kept : Kept s) (sound : Sound s) (path : (pool n).Reaches s es t)
    (working : ∀ e ∈ es, e.working = true) : Kept t := by
  induction path with
  | refl => exact kept
  | @step es t e u path last ih =>
    have before := ih fun e' member => working e' (List.mem_append_left _ member)
    have working := working e (List.mem_append_right _ (List.mem_singleton_self e))
    exact before.working (sound.along path) (effect_of_step last) working

/-- Exactly once fails where a task is queued for nobody. -/
theorem ExactlyOnce.live (once : ExactlyOnce n s) (sound : Sound s) : Live s := by
  by_contra stuck
  simp only [Live, not_or] at stuck
  obtain ⟨filled, dead⟩ := stuck
  obtain ⟨es, t, path, quiet, rest⟩ := Qthreadpool.settles n s
  obtain ⟨-, same⟩ := stays path quiet dead
  obtain ⟨x, queued⟩ := List.exists_mem_of_ne_nil _ filled
  have one := List.count_pos_iff.mpr queued
  have count := (sound.along path).ledger.accepted x
  have accepted : Trace.accepted x ∈ t.trace :=
    List.count_pos_iff.mp (by rw [count, same]; omega)
  have working : ∀ e ∈ es, e.working = true := fun e member => working_of_quiet (quiet e member)
  have done := (once.settled es t path working rest x accepted).1
  have atMost := (sound.along path).ledger.once x
  rw [same] at count
  omega

/-- It fails where a task that wants a callback has gone with the pool. -/
theorem ExactlyOnce.drained (once : ExactlyOnce n s) (sound : Sound s) : Drained s := by
  intro ended x member
  by_contra wants
  have callback : x.callback = true := eq_true_of_ne_false wants
  have rest : Quiescent s := ⟨fun p member => .inr (sound.gone ended p member), .inr ended⟩
  have one := List.count_pos_iff.mpr member
  have finished := sound.ledger.executed x callback
  have ran := sound.ledger.accepted x
  have accepted : Trace.accepted x ∈ s.trace := List.count_pos_iff.mp (by omega)
  have done := once.settled [] s (.refl s) (fun _ none => absurd none List.not_mem_nil) rest x accepted
  have called := done.2
  rw [callback, if_pos rfl] at called
  have executed := done.1
  omega

theorem exactlyOnce_iff (sound : Sound s) : ExactlyOnce n s ↔ Kept s := by
  constructor
  · exact fun once => ⟨once.live sound, once.drained sound⟩
  · intro kept
    obtain ⟨es, t, path, quiet, rest⟩ := settles n s
    exact {
      executed := sound.ledger.executed_once
      calledBack := sound.ledger.calledBack_once
      inOrder := sound.ledger.inOrder
      settles := ⟨es, t, path, fun e member => working_of_quiet (quiet e member), rest⟩
      settled := fun fs u path working rest x accepted =>
        (sound.along path).done rest (kept.along sound path working) accepted }

theorem next_safe (safe : Safe s e) (sound : Sound s) : ∃ t, next s e = .ok t := by
  have stops : s.stopFlag = false → ∃ t, stop s = .ok t := by
    intro go
    have intact : s.destroyed = false := by
      by_contra destroyed
      have flagged := sound.flagged (.inl (eq_true_of_ne_false destroyed))
      exact Bool.noConfusion (go.symm.trans flagged)
    simp only [stop, intact, go, Bool.false_eq_true, if_false]
    exact ⟨_, rfl⟩
  cases e with
  | enqueue userId callback wakes =>
    simp only [next, enqueue, safe.1, Bool.false_eq_true, if_false]
    split <;> exact ⟨_, rfl⟩
  | stop => exact stops safe
  | destruct =>
    obtain ⟨t, stopped⟩ := stops safe
    simp only [next, destruct, stopped]
    exact ⟨_, rfl⟩
  | _ => exact ⟨_, rfl⟩

theorem sound_of_run (run : (pool n).Run es s) : Sound s := (Sound.init n).along run

end Qthreadpool

open Qthreadpool Transition.Machine in
/-- Whatever the number of threads, in every state of a run all tasks that have been
accepted are executed and called back exactly once when the threads come to rest,
and no step has failed, if and only if no task is added after the last thread has
left or the pool has been taken apart, the pool is stopped only once, be it by its
destructor, and the destructor is not over before the last callback has been made. -/
theorem tasks_exactly_once_iff {n : Nat} (run : (pool n).faulting.Run es outcome) :
    (pool n).faulting.Always (fun outcome => ∃ s, outcome = .ok s ∧ ExactlyOnce n s) es ↔
      (pool n).faulting.Meets (fun outcome e => ∀ s, outcome = .ok s → Safe s e) es := by
  have initial : Kept (pool n).init := ⟨.inl rfl, fun _ _ none => absurd none List.not_mem_nil⟩
  refine always_iff_meets ⟨_, rfl, (exactlyOnce_iff (Sound.init n)).mpr initial⟩ ?_ run
  rintro es - e result before ⟨s, rfl, once⟩ ⟨⟨s', same, possible⟩, stepped⟩
  cases same
  have sound := sound_of_run (faulting_run before)
  have kept := (exactlyOnce_iff sound).mp once
  cases Except.ok.inj stepped
  simp only [Except.ok.injEq, forall_eq']
  constructor
  · rintro ⟨t, ok, after⟩
    have effect := effect_of_step (⟨possible, ok⟩ : (pool n).Step s e t)
    exact (kept.step sound effect).mp ((exactlyOnce_iff (sound.step effect)).mp after)
  · intro safe
    obtain ⟨t, ok⟩ := next_safe safe sound
    have effect := effect_of_step (⟨possible, ok⟩ : (pool n).Step s e t)
    exact ⟨t, ok, (exactlyOnce_iff (sound.step effect)).mpr ((kept.step sound effect).mpr safe)⟩

namespace Qthreadpool

/-- One task among two threads, the drain and the destructor. -/
def oneTask : List Event :=
  [.initCallback 0 true, .look 0, .enqueue 7 true (some 0), .initCallback 1 false, .look 0,
    .execute 0, .destruct, .complete 0, .look 0, .processInMainThread, .destructed]

/-- The only thread has left when the task is added. -/
def lateTask : List Event := [.initCallback 0 true, .stop, .look 0, .enqueue 7 true none]

/-- The destructor comes after this stop. -/
def stoppedOnce : List Event := [.initCallback 0 true, .stop, .look 0, .joined]

/-- The task is executed, and nothing drains the pool before it ends. -/
def undrained : List Event :=
  [.initCallback 0 true, .look 0, .enqueue 7 true (some 0), .look 0, .execute 0, .complete 0,
    .destruct, .look 0, .destructed]

def safeTest (s : State) : Event → Bool
  | .enqueue _ _ _ => !s.destroyed && (s.initializedThreads = 0 || s.workers.any Worker.alive)
  | .stop => !s.stopFlag
  | .destruct => !s.stopFlag
  | .destructed => s.completedTasks.all fun task => !task.callback
  | _ => true

theorem safe_of_test (passed : safeTest s e = true) : Safe s e := by
  cases e with
  | enqueue | stop | destruct | destructed => simpa [safeTest, Safe, Alive] using passed
  | _ => trivial

def faultOf : Except Fault State → Option Fault
  | .error fault => some fault
  | .ok _ => none

theorem eq_error_of_faultOf {outcome : Except Fault State} (faults : faultOf outcome = some fault) :
    outcome = .error fault := by
  cases outcome with
  | error other => rw [Option.some.inj faults]
  | ok => cases faults

end Qthreadpool

open Qthreadpool Transition.Machine in
theorem tasks_exactly_once_iff_oneTask : ∃ s, (pool 2).Run oneTask s ∧
    s.trace = [.accepted ⟨0, 7, true⟩, .executed ⟨0, 7, true⟩, .calledBack ⟨0, 7, true⟩] ∧
    (pool 2).faulting.Always (fun outcome => ∃ s, outcome = .ok s ∧ ExactlyOnce 2 s) oneTask := by
  have shown : ((pool 2).exec (pool 2).init oneTask).map State.trace =
      some [.accepted ⟨0, 7, true⟩, .executed ⟨0, 7, true⟩, .calledBack ⟨0, 7, true⟩] := by
        decide +kernel
  have passed : (pool 2).checks safeTest (pool 2).init oneTask = true := by decide +kernel
  obtain ⟨s, run, traced⟩ := exec_observe shown
  have meets : (pool 2).Meets Safe oneTask :=
    fun fs e t inside path => meets_of_checks (fun _ _ => safe_of_test) passed inside path
  exact ⟨s, run, traced, (tasks_exactly_once_iff (Run.faulting run)).mpr meets.faulting⟩

open Qthreadpool Transition.Machine in
/-- A task that is accepted during a stop is never executed. The destructor after a
stop locks the mutex that the stop has destroyed. And if the destructor's stop is
the only one, what has not been drained by its end is never called back. -/
theorem tasks_lost_and_stopped_twice :
    (∃ s, (pool 1).Run lateTask s ∧ s.trace = [.accepted ⟨0, 7, true⟩] ∧ ¬ ExactlyOnce 1 s) ∧
    (∃ s, (pool 1).Run stoppedOnce s ∧ (pool 1).enabled s .destruct ∧
      (pool 1).next s .destruct = .error .destroyedMutex) ∧
    ∃ s, (pool 1).Run undrained s ∧
      s.trace = [.accepted ⟨0, 7, true⟩, .executed ⟨0, 7, true⟩] ∧
      ¬ (pool 1).enabled s .processInMainThread ∧ ¬ ExactlyOnce 1 s := by
  have late : ((pool 1).exec (pool 1).init lateTask).map (fun s => (s.trace, s.tasks, s.workers)) =
      some ([.accepted ⟨0, 7, true⟩], [⟨0, 7, true⟩], [.exited]) := by decide +kernel
  have twice : ((pool 1).exec (pool 1).init stoppedOnce).map (fun s => faultOf (next s .destruct)) =
      some (some .destroyedMutex) := by decide +kernel
  have stranded : ((pool 1).exec (pool 1).init undrained).map
      (fun s => (s.trace, s.completedTasks, s.ended)) =
      some ([.accepted ⟨0, 7, true⟩, .executed ⟨0, 7, true⟩], [⟨0, 7, true⟩], true) := by
    decide +kernel
  obtain ⟨s, run, same⟩ := exec_observe late
  obtain ⟨t, run', faults⟩ := exec_observe twice
  obtain ⟨u, run'', same'⟩ := exec_observe stranded
  simp only [Prod.mk.injEq] at same same'
  obtain ⟨traced, queued, gone⟩ := same
  obtain ⟨traced', completed, ended⟩ := same'
  refine ⟨⟨s, run, traced, ?_⟩, ⟨t, run', trivial, eq_error_of_faultOf faults⟩,
    u, run'', traced', ?_, ?_⟩
  · intro once
    have live := once.live (sound_of_run run)
    rw [Live, Alive, queued, gone] at live
    revert live
    decide
  · exact fun there => Bool.noConfusion (ended.symm.trans there)
  · intro once
    have silent := once.drained (sound_of_run run'') ended ⟨0, 7, true⟩ (by rw [completed]; simp)
    contradiction

end Gearsdk
