/-! Machines driven by an environment. An event is either enabled in a state or
not; an enabled event reaches one next state or ends the run in a fault. Runs
keep the history of their events, newest last, so that an invariant may speak
about everything that has happened so far. -/
namespace Transition

structure Machine (S E F : Type) where
  init : S
  enabled : S → E → Prop
  next : S → E → Except F S

namespace Machine
variable {S E F : Type} {m : Machine S E F}

def Step (m : Machine S E F) (s : S) (e : E) (t : S) : Prop :=
  m.enabled s e ∧ m.next s e = .ok t

inductive Reaches (m : Machine S E F) : S → List E → S → Prop where
  | refl (s) : Reaches m s [] s
  | step : Reaches m s es t → m.Step t e u → Reaches m s (es ++ [e]) u

abbrev Run (m : Machine S E F) : List E → S → Prop := m.Reaches m.init

theorem Step.unique (first : m.Step s e t) (second : m.Step s e u) : t = u :=
  Except.ok.inj (first.2.symm.trans second.2)

namespace Reaches

theorem single (step : m.Step s e t) : m.Reaches s [e] t :=
  Reaches.step (.refl s) step

theorem trans (first : m.Reaches s es t) (second : m.Reaches t fs u) :
    m.Reaches s (es ++ fs) u := by
  induction second with
  | refl => simpa using first
  | step _ last ih => simpa only [List.append_assoc] using Reaches.step ih last

/-- Two states that both stay reachable from `s` by one history coincide. -/
theorem unique (first : m.Reaches s es t) (second : m.Reaches s es u) : t = u := by
  generalize same : es = fs at second
  induction first generalizing u fs with
  | refl =>
    cases second with
    | refl => rfl
    | step => simp at same
  | step _ last ih =>
    cases second with
    | refl => simp at same
    | step before last' =>
      obtain ⟨rfl, rfl⟩ := List.append_singleton_inj.mp same
      have middle := ih _ rfl before
      subst middle
      exact last.unique last'

theorem snoc_inv (path : m.Reaches s (es ++ [e]) u) :
    ∃ t, m.Reaches s es t ∧ m.Step t e u := by
  generalize same : es ++ [e] = fs at path
  cases path with
  | refl => simp at same
  | step before last =>
    obtain ⟨rfl, rfl⟩ := List.append_singleton_inj.mp same
    exact ⟨_, before, last⟩

theorem single_inv (path : m.Reaches s [e] t) : m.Step s e t := by
  rw [← List.nil_append [e]] at path
  obtain ⟨u, empty, step⟩ := path.snoc_inv
  cases empty.unique (.refl s)
  exact step

/-- Every prefix of the history has its own state, from which the rest runs. -/
theorem split (path : m.Reaches s (es ++ fs) u) :
    ∃ t, m.Reaches s es t ∧ m.Reaches t fs u := by
  generalize same : es ++ fs = gs at path
  induction path generalizing fs with
  | refl =>
    obtain ⟨rfl, rfl⟩ := List.append_eq_nil_iff.mp same
    exact ⟨_, .refl _, .refl _⟩
  | @step _ _ _ e before last ih =>
    rcases List.eq_nil_or_concat fs with rfl | ⟨rest, final, rfl⟩
    · rw [List.append_nil] at same
      exact ⟨_, same ▸ before.step last, .refl _⟩
    · rw [List.concat_eq_append] at same ⊢
      rw [← List.append_assoc] at same
      obtain ⟨rfl, rfl⟩ := List.append_singleton_inj.mp same
      obtain ⟨middle, first, second⟩ := ih rfl
      exact ⟨middle, first, second.step last⟩

/-- A property of states that every step preserves holds along every path. -/
theorem invariant {P : S → Prop} (preserves : ∀ {s e t}, P s → m.Step s e t → P t)
    (path : m.Reaches s es t) (initial : P s) : P t := by
  induction path with
  | refl => exact initial
  | step _ last ih => exact preserves ih last

/-- A reflexive and transitive relation that every step respects relates the
two ends of a path. -/
theorem relates {R : S → S → Prop} (refl : ∀ s, R s s)
    (trans : ∀ {a b c}, R a b → R b c → R a c)
    (steps : ∀ {es s e t}, m.Run es s → m.Step s e t → R s t)
    (before : m.Run fs s) (path : m.Reaches s es t) : R s t := by
  induction path with
  | refl => exact refl _
  | step earlier last ih => exact trans ih (steps (before.trans earlier) last)

end Reaches

/-- Invariants over a run may depend on the history of events. -/
theorem Run.induction {P : List E → S → Prop} (initial : P [] m.init)
    (preserves : ∀ {es s e t}, m.Run es s → P es s → m.Step s e t → P (es ++ [e]) t)
    (run : m.Run es s) : P es s := by
  generalize same : m.init = start at run
  subst same
  induction run with
  | refl => exact initial
  | step before last ih => exact preserves before ih last

/-- `P` holds in every state that the run with history `es` goes through. -/
def Always (m : Machine S E F) (P : S → Prop) (es : List E) : Prop :=
  ∀ fs s, fs <+: es → m.Run fs s → P s

/-- Every step of the run with history `es` is taken from a state in which its
event satisfies `C`. -/
def Meets (m : Machine S E F) (C : S → E → Prop) (es : List E) : Prop :=
  ∀ fs e s, fs ++ [e] <+: es → m.Run fs s → C s e

theorem Always.prefix (always : m.Always P es) (shorter : fs <+: es) : m.Always P fs :=
  fun gs s inside run => always gs s (inside.trans shorter) run

theorem Meets.prefix (meets : m.Meets C es) (shorter : fs <+: es) : m.Meets C fs :=
  fun gs e s inside run => meets gs e s (inside.trans shorter) run

/-- If the condition is enough for each step, it is enough for the whole run. -/
theorem Meets.always {P : S → Prop} {C : S → E → Prop} (initial : P m.init)
    (steps : ∀ {es s e t}, m.Run es s → P s → m.Step s e t → C s e → P t)
    (meets : m.Meets C es) : m.Always P es := by
  intro fs s inside run
  induction run with
  | refl => exact initial
  | @step gs t e u before last ih =>
    have shorter : gs <+: es := (List.prefix_append gs [e]).trans inside
    exact steps before (ih shorter) last (meets gs e t inside before)

/-- A run stays inside `P` if and only if each of its steps meets the condition,
when the condition keeps an invariant that is enough for `P`, and a step of the
invariant that stays inside `P` has met it. -/
theorem always_iff_meets_of {P Q : S → Prop} {C : S → E → Prop} (initial : Q m.init)
    (sound : ∀ {s}, Q s → P s)
    (steps : ∀ {es s e t}, m.Run es s → Q s → m.Step s e t → (P t → C s e) ∧ (C s e → Q t))
    (run : m.Run es s) : m.Always P es ↔ m.Meets C es := by
  constructor
  · intro always
    have inside : m.Always Q es := by
      intro fs s within run
      induction run with
      | refl => exact initial
      | @step gs t e u before last ih =>
        have here := ih ((List.prefix_append gs [e]).trans within)
        obtain ⟨needed, enough⟩ := steps before here last
        exact enough (needed (always _ u within (before.step last)))
    intro fs e t within before
    obtain ⟨rest, rfl⟩ := within
    obtain ⟨u, upto, _⟩ := run.split
    obtain ⟨t', before', last⟩ := upto.snoc_inv
    cases before.unique before'
    have here := inside fs t ((List.prefix_append fs [e]).trans (List.prefix_append _ rest)) before
    exact (steps before here last).1 (always _ u (List.prefix_append _ rest) upto)
  · intro meets fs s within run
    exact sound (Meets.always initial (fun before here last =>
      (steps before here last).2) meets fs s within run)

/-- If the condition is exactly what one step needs, then a run stays inside `P`
if and only if each of its steps meets the condition. -/
theorem always_iff_meets {P : S → Prop} {C : S → E → Prop} (initial : P m.init)
    (steps : ∀ {es s e t}, m.Run es s → P s → m.Step s e t → (P t ↔ C s e))
    (run : m.Run es s) : m.Always P es ↔ m.Meets C es :=
  always_iff_meets_of initial id (fun before here last =>
    ⟨(steps before here last).mp, (steps before here last).mpr⟩) run

/-- A schedule can be executed when enabledness is decidable. -/
def exec (m : Machine S E F) [∀ s e, Decidable (m.enabled s e)] (s : S) : List E → Option S
  | [] => some s
  | e :: rest =>
      if m.enabled s e then
        match m.next s e with
        | .ok t => m.exec t rest
        | .error _ => none
      else none

theorem exec_reaches [∀ s e, Decidable (m.enabled s e)] (ran : m.exec s es = some t) :
    m.Reaches s es t := by
  induction es generalizing s with
  | nil =>
    cases Option.some.inj ran
    exact .refl _
  | cons e rest ih =>
    simp only [exec] at ran
    split at ran
    · rename_i possible
      split at ran
      · rename_i u ok
        exact (Reaches.single ⟨possible, ok⟩).trans (ih ran)
      · contradiction
    · contradiction

/-- What an executed schedule shows at its end is true of a real run. -/
theorem exec_observe [∀ s e, Decidable (m.enabled s e)] {f : S → α}
    (ran : (m.exec s es).map f = some value) : ∃ t, m.Reaches s es t ∧ f t = value := by
  obtain ⟨t, executed, same⟩ := Option.map_eq_some_iff.mp ran
  exact ⟨t, exec_reaches executed, same⟩

/-- The same for what two schedules show, one after the other. -/
theorem exec_observe_both [∀ s e, Decidable (m.enabled s e)] {f : S → S → α}
    (ran : ((m.exec s es).bind fun t => (m.exec t fs).map (f t)) = some value) :
    ∃ t u, m.Reaches s es t ∧ m.Reaches t fs u ∧ f t u = value := by
  obtain ⟨t, first, rest⟩ := Option.bind_eq_some_iff.mp ran
  obtain ⟨u, second, same⟩ := exec_observe rest
  exact ⟨t, u, exec_reaches first, second, same⟩

/-- A test of every step of a schedule, in the state before the step. -/
def checks (m : Machine S E F) (test : S → E → Bool) (s : S) : List E → Bool
  | [] => true
  | e :: rest => test s e &&
      match m.next s e with
      | .ok t => m.checks test t rest
      | .error _ => true

/-- A schedule that passes the test meets every condition that the test ensures. -/
theorem meets_of_checks {C : S → E → Prop} {test : S → E → Bool}
    (sound : ∀ s e, test s e = true → C s e) (passed : m.checks test s es = true)
    (inside : fs ++ [e] <+: es) (path : m.Reaches s fs t) : C t e := by
  induction es generalizing s fs with
  | nil => simp at inside
  | cons first rest ih =>
    simp only [checks, Bool.and_eq_true] at passed
    obtain ⟨here, later⟩ := passed
    cases fs with
    | nil =>
      obtain ⟨rfl, _⟩ := List.cons_prefix_cons.mp inside
      cases path.unique (.refl s)
      exact sound _ _ here
    | cons event fs =>
      obtain ⟨rfl, inner⟩ := List.cons_prefix_cons.mp inside
      rw [← List.singleton_append] at path
      obtain ⟨u, start, path⟩ := path.split
      rw [start.single_inv.2] at later
      exact ih later inner path

/-- A test that a schedule and one more event pass holds in every state of the
schedule. -/
theorem along_of_checks {test : S → Bool}
    (passed : m.checks (fun s _ => test s) s (es ++ [more]) = true) (inside : fs <+: es)
    (path : m.Reaches s fs t) : test t = true := by
  let holds : S → E → Prop := fun s _ => test s = true
  have sound : ∀ s e, (fun s (_ : E) => test s) s e = true → holds s e := fun _ _ => id
  obtain ⟨rest, rfl⟩ := inside
  cases rest with
  | nil =>
    rw [List.append_nil] at passed
    have here : holds t more := meets_of_checks sound passed (List.prefix_refl _) path
    exact here
  | cons e rest =>
    have next : fs ++ [e] <+: fs ++ e :: rest ++ [more] := ⟨rest ++ [more], by simp⟩
    have here : holds t e := meets_of_checks sound passed next path
    exact here

/-- The machine whose runs go on into the fault that ends them. -/
def faulting (m : Machine S E F) : Machine (Except F S) E F where
  init := .ok m.init
  enabled outcome e := ∃ s, outcome = .ok s ∧ m.enabled s e
  next outcome e := .ok (outcome.bind fun s => m.next s e)

theorem faulting_run (run : m.faulting.Run es (.ok s)) : m.Run es s := by
  generalize reached : (Except.ok s : Except F S) = outcome at run
  induction run generalizing s with
  | refl =>
    cases reached
    exact .refl _
  | step before last ih =>
    obtain ⟨⟨t, rfl, possible⟩, stepped⟩ := last
    subst reached
    exact (ih rfl).step ⟨possible, Except.ok.inj stepped⟩

theorem Run.faulting (run : m.Run es s) : m.faulting.Run es (.ok s) := by
  induction run with
  | refl => exact .refl _
  | step _ last ih =>
    refine Reaches.step ih ⟨⟨_, rfl, last.1⟩, ?_⟩
    exact congrArg Except.ok last.2

theorem Meets.faulting {C : S → E → Prop} (meets : m.Meets C es) :
    m.faulting.Meets (fun outcome e => ∀ s, outcome = .ok s → C s e) es := by
  rintro fs e outcome inside run s rfl
  exact meets fs e s inside (faulting_run run)

theorem Run.no_fault (run : m.Run es s) :
    m.faulting.Always (fun outcome => ∃ s, outcome = .ok s) es := by
  rintro fs outcome ⟨rest, rfl⟩ before
  obtain ⟨t, shorter, _⟩ := run.split
  exact ⟨t, before.unique (Run.faulting shorter)⟩

/-- A run stays free of faults if and only if each of its steps meets the
condition, when the condition is exactly what keeps one step from a fault. -/
theorem no_fault_iff {C : S → E → Prop}
    (steps : ∀ {es s e}, m.Run es s → m.enabled s e → ((∃ t, m.next s e = .ok t) ↔ C s e))
    (run : m.faulting.Run es outcome) :
    m.faulting.Always (fun outcome => ∃ s, outcome = .ok s) es ↔
      m.faulting.Meets (fun outcome e => ∀ s, outcome = .ok s → C s e) es := by
  refine always_iff_meets ⟨m.init, rfl⟩ ?_ run
  rintro es outcome e result before - ⟨⟨s, rfl, possible⟩, stepped⟩
  cases Except.ok.inj stepped
  refine (steps (faulting_run before) possible).trans ?_
  simp only [Except.ok.injEq, forall_eq']

end Machine
end Transition
