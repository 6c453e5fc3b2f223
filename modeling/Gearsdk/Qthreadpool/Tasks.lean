import Gearsdk.Qthreadpool
import Mathlib.Algebra.GroupWithZero.Nat
import Mathlib.Data.List.Count

/-! The books of the pool: where each task is that has been accepted. -/
namespace Gearsdk
namespace Qthreadpool
open Transition.Machine

variable {s t : State} {e : Event}

/-! ### Steps -/

/-- What a step does. -/
inductive Effect (s : State) : Event → State → Prop where
  | rejected (userId : Int) (callback : Bool) (wakes : Option Nat) (intact : s.destroyed = false)
      (uninitialized : s.initializedThreads = 0) :
      Effect s (.enqueue userId callback wakes) s
  | unnoticed (task : Task) (intact : s.destroyed = false) (new : task.id = s.accepted)
      (initialized : s.initializedThreads ≠ 0) (busy : .waiting ∉ s.workers) :
      Effect s (.enqueue task.userId task.callback none) { s with
        tasks := s.tasks ++ [task], accepted := s.accepted + 1
        trace := s.trace ++ [.accepted task] }
  | noticed (task : Task) (w : Nat) (intact : s.destroyed = false) (new : task.id = s.accepted)
      (initialized : s.initializedThreads ≠ 0) (here : s.workers[w]? = some .waiting) :
      Effect s (.enqueue task.userId task.callback (some w)) { s.put w .ready with
        tasks := s.tasks ++ [task], accepted := s.accepted + 1
        trace := s.trace ++ [.accepted task] }
  | initialized (w : Nat) (here : s.workers[w]? = some .starting) :
      Effect s (.initCallback w true)
        { s.put w .ready with initializedThreads := s.initializedThreads + 1 }
  | failed (w : Nat) (here : s.workers[w]? = some .starting) :
      Effect s (.initCallback w false)
        { s.put w .exited with failedThreads := s.failedThreads + 1 }
  | took (w : Nat) (task : Task) (rest : List Task) (here : s.workers[w]? = some .ready)
      (queue : s.tasks = task :: rest) :
      Effect s (.look w) { s.put w (.running task) with tasks := rest }
  | waited (w : Nat) (here : s.workers[w]? = some .ready) (empty : s.tasks = [])
      (go : s.stopFlag = false) :
      Effect s (.look w) (s.put w .waiting)
  | left (w : Nat) (here : s.workers[w]? = some .ready) (empty : s.tasks = [])
      (stopped : s.stopFlag = true) :
      Effect s (.look w) (s.put w .exited)
  | woke (w : Nat) (here : s.workers[w]? = some .waiting) : Effect s (.wakeUp w) (s.put w .ready)
  | executed (w : Nat) (task : Task) (here : s.workers[w]? = some (.running task)) :
      Effect s (.execute w)
        { s.put w (.finishing task) with trace := s.trace ++ [.executed task] }
  | completed (w : Nat) (task : Task) (here : s.workers[w]? = some (.finishing task)) :
      Effect s (.complete w)
        { s.put w .ready with completedTasks := s.completedTasks ++ [task] }
  | processed (there : s.ended = false) : Effect s .processInMainThread (processInMainThread s)
  | stopped (go : s.stopFlag = false) (intact : s.destroyed = false) :
      Effect s .stop { s with stopFlag := true, workers := s.workers.map Worker.woken }
  | joined (stopped : s.stopFlag = true) (kept : s.destructing = false)
      (gone : ∀ worker ∈ s.workers, worker = .exited) :
      Effect s .joined { s with destroyed := true }
  | destructing (go : s.stopFlag = false) (intact : s.destroyed = false) :
      Effect s .destruct
        { s with stopFlag := true, workers := s.workers.map Worker.woken, destructing := true }
  | destructed (begun : s.destructing = true) (gone : ∀ worker ∈ s.workers, worker = .exited) :
      Effect s .destructed { s with destroyed := true }

theorem stop_ok (ok : stop s = .ok t) : s.stopFlag = false ∧ s.destroyed = false ∧
    t = { s with stopFlag := true, workers := s.workers.map Worker.woken } := by
  simp only [stop] at ok
  split at ok
  · contradiction
  · rename_i intact
    split at ok
    · contradiction
    · rename_i go
      exact ⟨Bool.eq_false_iff.mpr go, Bool.eq_false_iff.mpr intact, (Except.ok.inj ok).symm⟩

theorem effect_of_step {n : Nat} (step : (pool n).Step s e t) : Effect s e t := by
  obtain ⟨possible, ok⟩ := step
  cases e with
  | enqueue userId callback wakes =>
    simp only [pool, next, enqueue] at ok
    split at ok
    · contradiction
    · rename_i intact
      rw [Bool.not_eq_true] at intact
      split at ok
      · rename_i uninitialized
        cases Except.ok.inj ok
        exact .rejected userId callback wakes intact uninitialized
      · rename_i initialized
        cases Except.ok.inj ok
        cases wakes with
        | none => exact .unnoticed ⟨s.accepted, userId, callback⟩ intact rfl initialized possible
        | some w => exact .noticed ⟨s.accepted, userId, callback⟩ w intact rfl initialized possible
  | initCallback w initialized =>
    cases Except.ok.inj ok
    cases initialized with
    | false => exact .failed w possible
    | true => exact .initialized w possible
  | look w =>
    cases Except.ok.inj ok
    cases queue : s.tasks with
    | nil =>
      cases flag : s.stopFlag with
      | false =>
        simp only [look, queue, flag]
        exact .waited w possible queue flag
      | true =>
        simp only [look, queue, flag]
        exact .left w possible queue flag
    | cons task rest =>
      simp only [look, queue]
      exact .took w task rest possible queue
  | wakeUp w =>
    cases Except.ok.inj ok
    exact .woke w possible
  | execute w =>
    obtain ⟨task, here⟩ := possible
    simp only [pool, next, execute, here] at ok
    cases Except.ok.inj ok
    exact .executed w task here
  | complete w =>
    obtain ⟨task, here⟩ := possible
    simp only [pool, next, complete, here] at ok
    cases Except.ok.inj ok
    exact .completed w task here
  | processInMainThread =>
    cases Except.ok.inj ok
    exact .processed possible
  | stop =>
    obtain ⟨go, intact, rfl⟩ := stop_ok ok
    exact .stopped go intact
  | joined =>
    cases Except.ok.inj ok
    exact .joined possible.1 possible.2.2.1 possible.2.2.2
  | destruct =>
    change (stop s).map _ = _ at ok
    cases called : stop s with
    | error fault =>
      rw [called] at ok
      contradiction
    | ok stopped =>
      rw [called] at ok
      obtain ⟨go, intact, rfl⟩ := stop_ok called
      cases Except.ok.inj ok
      exact .destructing go intact
  | destructed =>
    cases Except.ok.inj ok
    exact .destructed possible.2.1 possible.2.2

/-! ### Workers -/

theorem getElem_put (here : s.workers[w]? = some p) (p' : Worker) (v : Nat) :
    (s.put w p').workers[v]? = if w = v then some p' else s.workers[v]? := by
  obtain ⟨inside, -⟩ := List.getElem?_eq_some_iff.mp here
  simp only [State.put, List.getElem?_set, inside, if_true]

theorem count_put (here : s.workers[w]? = some p) (p' q : Worker) :
    (s.put w p').workers.count q + (if p = q then 1 else 0) =
      s.workers.count q + (if p' = q then 1 else 0) := by
  obtain ⟨inside, same⟩ := List.getElem?_eq_some_iff.mp here
  have counted : (if p = q then 1 else 0) ≤ s.workers.count q := by
    split
    · rename_i eq
      exact List.count_pos_iff.mpr (eq ▸ List.mem_of_getElem? here)
    · exact Nat.zero_le _
  rw [State.put, List.count_set inside, same]
  simp only [beq_iff_eq]
  omega

theorem mem_put (here : s.workers[w]? = some p) (member : q ∈ s.workers) (other : q ≠ p)
    (p' : Worker) :
    q ∈ (s.put w p').workers := by
  obtain ⟨v, there⟩ := List.mem_iff_getElem?.mp member
  refine List.mem_iff_getElem?.mpr ⟨v, ?_⟩
  rw [getElem_put here, if_neg, there]
  rintro rfl
  exact other (Option.some.inj (there.symm.trans here))

theorem self_mem_put (here : s.workers[w]? = some p) (p' : Worker) : p' ∈ (s.put w p').workers :=
  List.mem_iff_getElem?.mpr ⟨w, (getElem_put here p' w).trans (if_pos rfl)⟩

theorem mem_of_mem_put (member : q ∈ (s.put w p').workers) : q = p' ∨ q ∈ s.workers :=
  (List.mem_or_eq_of_mem_set member).symm

theorem count_snoc [DecidableEq α] (list : List α) (a b : α) :
    (list ++ [a]).count b = list.count b + if a = b then 1 else 0 := by
  simp only [List.count_append, List.count_singleton, beq_iff_eq]

/-! ### Tasks -/

/-- Every task that has been accepted is in one place. -/
structure Ledger (s : State) : Prop where
  accepted : ∀ x, s.trace.count (.accepted x) = s.tasks.count x + s.workers.count (.running x) +
    s.trace.count (.executed x)
  executed : ∀ x, x.callback = true →
    s.trace.count (.executed x) = s.workers.count (.finishing x) + s.completedTasks.count x +
      s.trace.count (.calledBack x)
  silent : ∀ x, x.callback = false → s.trace.count (.calledBack x) = 0
  fresh : ∀ x, .accepted x ∈ s.trace → x.id < s.accepted
  once : ∀ x, s.trace.count (.accepted x) ≤ 1
  inOrder : ∀ a x b, s.trace = a ++ .calledBack x :: b → .executed x ∈ a

/-- What the threads do otherwise does not matter. -/
theorem Ledger.congr (ledger : Ledger s) (tasks : t.tasks = s.tasks)
    (completed : t.completedTasks = s.completedTasks)
    (running : ∀ x, t.workers.count (.running x) = s.workers.count (.running x))
    (finishing : ∀ x, t.workers.count (.finishing x) = s.workers.count (.finishing x))
    (accepted : t.accepted = s.accepted) (trace : t.trace = s.trace) : Ledger t where
  accepted x := by rw [trace, tasks, running, ledger.accepted]
  executed x callback := by rw [trace, completed, finishing, ledger.executed x callback]
  silent x silent := by rw [trace, ledger.silent x silent]
  fresh x member := by
    rw [trace] at member
    exact accepted.symm ▸ ledger.fresh x member
  once x := by
    rw [trace]
    exact ledger.once x
  inOrder a x b same := ledger.inOrder a x b (trace.symm.trans same)

/-- A step of a thread that neither takes a task nor finishes one. -/
theorem Ledger.put (ledger : Ledger s) (here : s.workers[w]? = some p) {p' : Worker}
    (idle : ∀ x, p ≠ .running x ∧ p ≠ .finishing x ∧ p' ≠ .running x ∧ p' ≠ .finishing x) :
    Ledger (s.put w p') := by
  refine ledger.congr rfl rfl ?_ ?_ rfl rfl
  · intro x
    have ran := count_put here p' (.running x)
    rwa [if_neg (idle x).1, if_neg (idle x).2.2.1] at ran
  · intro x
    have finished := count_put here p' (.finishing x)
    rwa [if_neg (idle x).2.1, if_neg (idle x).2.2.2] at finished

theorem inOrder_snoc {trace : List Trace} {last : Trace}
    (inOrder : ∀ a x b, trace = a ++ .calledBack x :: b → .executed x ∈ a)
    (other : ∀ x, last ≠ .calledBack x) :
    ∀ a x b, trace ++ [last] = a ++ .calledBack x :: b → .executed x ∈ a := by
  intro a x b same
  rcases List.eq_nil_or_concat b with rfl | ⟨front, final, rfl⟩
  · exact absurd (List.append_inj' same rfl).2 (by simpa using other x)
  · refine inOrder a x front ?_
    rw [List.concat_eq_append, ← List.cons_append, ← List.append_assoc] at same
    exact (List.append_inj' same rfl).1

/-- A task that is accepted. -/
theorem Ledger.accept (ledger : Ledger s) (task : Task) (new : task.id = s.accepted) :
    Ledger { s with tasks := s.tasks ++ [task], accepted := s.accepted + 1,
                    trace := s.trace ++ [.accepted task] } where
  accepted := by
    intro x
    simp only [count_snoc, Trace.accepted.injEq, reduceCtorEq, if_false, ledger.accepted x]
    omega
  executed := by
    intro x callback
    simpa only [count_snoc, reduceCtorEq, if_false, Nat.add_zero] using ledger.executed x callback
  silent := by
    intro x silent
    simpa only [count_snoc, reduceCtorEq, if_false, Nat.add_zero] using ledger.silent x silent
  fresh := by
    intro x member
    rcases List.mem_append.mp member with earlier | last
    · exact Nat.lt_succ_of_lt (ledger.fresh x earlier)
    · obtain rfl := Trace.accepted.inj (List.mem_singleton.mp last)
      exact new ▸ Nat.lt_succ_self _
  once := by
    intro x
    rw [count_snoc]
    split
    · rename_i same
      obtain rfl := Trace.accepted.inj same
      have absent : s.trace.count (.accepted task) = 0 := by
        rw [List.count_eq_zero]
        exact fun member => Nat.lt_irrefl _ (new ▸ ledger.fresh task member)
      omega
    · exact ledger.once x
  inOrder := inOrder_snoc ledger.inOrder fun _ => Trace.noConfusion

theorem Ledger.take (ledger : Ledger s) (here : s.workers[w]? = some .ready)
    (queue : s.tasks = task :: rest) :
    Ledger { s.put w (.running task) with tasks := rest } where
  accepted x := by
    have ran := count_put here (.running task) (.running x)
    have before := ledger.accepted x
    simp only [Worker.running.injEq, reduceCtorEq, if_false, queue, List.count_cons,
      beq_iff_eq] at ran before ⊢
    change s.trace.count _ = rest.count x + (s.put w (.running task)).workers.count _ +
      s.trace.count _
    omega
  executed x callback := by
    have finished := count_put here (.running task) (.finishing x)
    simp only [reduceCtorEq, if_false, Nat.add_zero] at finished
    change s.trace.count _ = (s.put w (.running task)).workers.count _ + s.completedTasks.count x +
      s.trace.count _
    rw [finished, ledger.executed x callback]
  silent := ledger.silent
  fresh := ledger.fresh
  once := ledger.once
  inOrder := ledger.inOrder

theorem Ledger.execute (ledger : Ledger s) (here : s.workers[w]? = some (.running task)) :
    Ledger { s.put w (.finishing task) with trace := s.trace ++ [.executed task] } where
  accepted x := by
    have ran := count_put here (.finishing task) (.running x)
    have before := ledger.accepted x
    simp only [Worker.running.injEq, reduceCtorEq, if_false, count_snoc,
      Trace.executed.injEq] at ran ⊢
    change s.trace.count _ + 0 = s.tasks.count x + (s.put w (.finishing task)).workers.count _ + _
    omega
  executed x callback := by
    have finished := count_put here (.finishing task) (.finishing x)
    have before := ledger.executed x callback
    simp only [Worker.finishing.injEq, reduceCtorEq, if_false, count_snoc,
      Trace.executed.injEq] at finished ⊢
    change _ = (s.put w (.finishing task)).workers.count _ + s.completedTasks.count x + _
    omega
  silent := by
    intro x silent
    simpa only [count_snoc, reduceCtorEq, if_false, Nat.add_zero] using ledger.silent x silent
  fresh := by
    intro x member
    exact ledger.fresh x ((List.mem_append.mp member).resolve_right (by simp))
  once := by
    intro x
    simpa only [count_snoc, reduceCtorEq, if_false, Nat.add_zero] using ledger.once x
  inOrder := inOrder_snoc ledger.inOrder fun _ => Trace.noConfusion

theorem Ledger.complete (ledger : Ledger s) (here : s.workers[w]? = some (.finishing task)) :
    Ledger { s.put w .ready with completedTasks := s.completedTasks ++ [task] } where
  accepted x := by
    have ran := count_put here .ready (.running x)
    simp only [reduceCtorEq, if_false, Nat.add_zero] at ran
    change s.trace.count _ = s.tasks.count x + (s.put w .ready).workers.count _ + s.trace.count _
    rw [ran, ledger.accepted]
  executed x callback := by
    have finished := count_put here .ready (.finishing x)
    have before := ledger.executed x callback
    simp only [Worker.finishing.injEq, reduceCtorEq, if_false, count_snoc] at finished ⊢
    change s.trace.count _ = (s.put w .ready).workers.count _ + _ + s.trace.count _
    omega
  silent := ledger.silent
  fresh := ledger.fresh
  once := ledger.once
  inOrder := ledger.inOrder

def callBacks (completed : List Task) : List Trace :=
  (completed.filter Task.callback).map .calledBack

theorem count_callBacks (completed : List Task) (x : Task) :
    (callBacks completed).count (.calledBack x) = if x.callback then completed.count x else 0 := by
  rw [callBacks, List.count_map_of_injective _ _ fun _ _ => Trace.calledBack.inj]
  split
  · rename_i callback
    exact List.count_filter callback
  · rename_i silent
    rw [List.count_eq_zero, List.mem_filter]
    exact fun member => silent member.2

theorem count_callBacks_other (completed : List Task) {other : Trace}
    (different : ∀ x, .calledBack x ≠ other) :
    (callBacks completed).count other = 0 := by
  rw [List.count_eq_zero, callBacks, List.mem_map]
  rintro ⟨x, -, same⟩
  exact different x same

theorem Ledger.callBack (ledger : Ledger s) : Ledger (processInMainThread s) where
  accepted x := by
    change (s.trace ++ callBacks s.completedTasks).count _ =
      _ + (s.trace ++ callBacks s.completedTasks).count _
    rw [List.count_append, List.count_append, count_callBacks_other _ fun _ => Trace.noConfusion,
      count_callBacks_other _ fun _ => Trace.noConfusion]
    exact ledger.accepted x
  executed x callback := by
    have before := ledger.executed x callback
    change (s.trace ++ callBacks s.completedTasks).count _ = s.workers.count _ + List.count x [] +
      (s.trace ++ callBacks s.completedTasks).count _
    rw [List.count_append, List.count_append, count_callBacks_other _ fun _ => Trace.noConfusion,
      count_callBacks, if_pos callback, List.count_nil]
    omega
  silent x silent := by
    change (s.trace ++ callBacks s.completedTasks).count _ = 0
    rw [List.count_append, count_callBacks, ledger.silent x silent, silent]
    rfl
  fresh x member := by
    refine ledger.fresh x ((List.mem_append.mp member).resolve_right fun called => ?_)
    obtain ⟨y, -, same⟩ := List.mem_map.mp called
    exact Trace.noConfusion same
  once x := by
    change (s.trace ++ callBacks s.completedTasks).count _ ≤ 1
    rw [List.count_append, count_callBacks_other _ fun _ => Trace.noConfusion]
    exact ledger.once x
  inOrder := by
    have ready : ∀ x, .calledBack x ∈ callBacks s.completedTasks → .executed x ∈ s.trace := by
      intro x member
      obtain ⟨y, done, same⟩ := List.mem_map.mp member
      obtain rfl := Trace.calledBack.inj same
      obtain ⟨completed, callback⟩ := List.mem_filter.mp done
      have count := ledger.executed y callback
      have one := List.count_pos_iff.mpr completed
      exact List.count_pos_iff.mp (by omega)
    intro a x b same
    change s.trace ++ callBacks s.completedTasks = a ++ .calledBack x :: b at same
    rcases List.append_eq_append_iff.mp same with ⟨front, rfl, called⟩ | ⟨later, earlier, rest⟩
    · exact List.mem_append_left _ (ready x (called ▸ List.mem_append_right _ List.mem_cons_self))
    · cases later with
      | nil =>
        rw [List.append_nil] at earlier
        exact earlier ▸ ready x
          (rest.symm ▸ List.mem_cons_self : .calledBack x ∈ [] ++ callBacks s.completedTasks)
      | cons first later =>
        obtain ⟨rfl, -⟩ := List.cons.inj rest
        exact ledger.inOrder a x later earlier

theorem count_woken {q : Worker} (same : ∀ p, Worker.woken p = q ↔ p = q) (workers : List Worker) :
    (workers.map Worker.woken).count q = workers.count q := by
  rw [List.count_eq_countP, List.countP_map, List.count_eq_countP]
  refine List.countP_congr fun p _ => ?_
  simp only [Function.comp_apply, beq_iff_eq, same p]

theorem Ledger.wake (ledger : Ledger s) :
    Ledger { s with workers := s.workers.map Worker.woken } := by
  refine ledger.congr rfl rfl (fun x => count_woken ?_ _) (fun x => count_woken ?_ _) rfl rfl
  · intro p
    cases p <;> simp [Worker.woken]
  · intro p
    cases p <;> simp [Worker.woken]

theorem Ledger.step (ledger : Ledger s) (effect : Effect s e t) : Ledger t := by
  cases effect with
  | rejected => exact ledger
  | unnoticed task intact new initialized busy => exact ledger.accept task new
  | noticed task w intact new initialized here =>
    exact (ledger.put here fun x => by simp).accept task new
  | initialized w here =>
    have put : Ledger (s.put w .ready) := ledger.put here fun x => by simp
    exact put.congr rfl rfl (fun _ => rfl) (fun _ => rfl) rfl rfl
  | failed w here =>
    have put : Ledger (s.put w .exited) := ledger.put here fun x => by simp
    exact put.congr rfl rfl (fun _ => rfl) (fun _ => rfl) rfl rfl
  | took w task rest here queue => exact ledger.take here queue
  | waited w here empty go => exact ledger.put here fun x => by simp
  | left w here empty stopped => exact ledger.put here fun x => by simp
  | woke w here => exact ledger.put here fun x => by simp
  | executed w task here => exact ledger.execute here
  | completed w task here => exact ledger.complete here
  | processed => exact ledger.callBack
  | stopped => exact ledger.wake.congr rfl rfl (fun _ => rfl) (fun _ => rfl) rfl rfl
  | destructing => exact ledger.wake.congr rfl rfl (fun _ => rfl) (fun _ => rfl) rfl rfl
  | joined | destructed => exact ledger.congr rfl rfl (fun _ => rfl) (fun _ => rfl) rfl rfl

end Qthreadpool
end Gearsdk
