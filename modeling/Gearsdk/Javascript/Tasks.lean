/-! Asynchronous functions of a script, run on what the calls that they wait for come to. -/
namespace Javascript

inductive Settled (α : Type) where
  | resolved (value : α)
  | rejected
  | pending

/-- What a function has done, whether a promise is rejected that nobody waits for, and its own
promise. -/
structure Task (ε α : Type) where
  actions : List ε := []
  unhandled : Bool := false
  settled : Settled α

namespace Task
variable {ε α β : Type}

def act (action : ε) : Task ε Unit := { actions := [action], settled := .resolved () }

/-- Nothing stands for an error that is thrown. -/
def ofOption : Option α → Task ε α
  | some value => { settled := .resolved value }
  | none => { settled := .rejected }

instance : Monad (Task ε) where
  pure value := { settled := .resolved value }
  bind task next :=
    match task.settled with
    | .resolved value =>
        { actions := task.actions ++ (next value).actions
          unhandled := task.unhandled || (next value).unhandled
          settled := (next value).settled }
    | .rejected => { task with settled := .rejected }
    | .pending => { task with settled := .pending }

/-- A call that is not waited for. -/
def detached (task : Task ε α) : Task ε Unit where
  actions := task.actions
  unhandled := task.unhandled || match task.settled with
    | .rejected => true
    | .resolved _ | .pending => false
  settled := .resolved ()

/-- The promise is resolved, and no other is rejected. -/
def Resolves (task : Task ε α) (value : α) : Prop :=
  task.settled = .resolved value ∧ task.unhandled = false

def Safe (task : Task ε α) : Prop := ∃ value, task.Resolves value

theorem pure_safe (value : α) : (pure value : Task ε α).Safe := ⟨value, rfl, rfl⟩

theorem act_safe (action : ε) : (act action).Safe := ⟨(), rfl, rfl⟩

theorem resolves_ofOption (value : Option α) :
    (ofOption value : Task ε α).Resolves a ↔ value = some a := by
  cases value with
  | none =>
    refine iff_of_false ?_ ?_
    · rintro ⟨⟨⟩, _⟩
    · rintro ⟨⟩
  | some b =>
    constructor
    · rintro ⟨⟨⟩, _⟩
      rfl
    · rintro ⟨⟩
      exact ⟨rfl, rfl⟩

theorem bind_safe_iff (task : Task ε α) (next : α → Task ε β) :
    (task >>= next).Safe ↔ ∃ value, task.Resolves value ∧ (next value).Safe := by
  obtain ⟨actions, unhandled, settled⟩ := task
  cases settled with
  | resolved value =>
    constructor
    · rintro ⟨b, resolved, quiet⟩
      obtain ⟨quiet, later⟩ := Bool.or_eq_false_iff.mp quiet
      exact ⟨value, ⟨rfl, quiet⟩, b, resolved, later⟩
    · rintro ⟨_, ⟨⟨⟩, quiet⟩, b, resolved, later⟩
      exact ⟨b, resolved, Bool.or_eq_false_iff.mpr ⟨quiet, later⟩⟩
  | rejected =>
    refine iff_of_false ?_ ?_
    · rintro ⟨b, ⟨⟩, _⟩
    · rintro ⟨_, ⟨⟨⟩, _⟩, _⟩
  | pending =>
    refine iff_of_false ?_ ?_
    · rintro ⟨b, ⟨⟩, _⟩
    · rintro ⟨_, ⟨⟨⟩, _⟩, _⟩

/-- A step after which everything goes the same way, whatever it gives. -/
theorem bind_safe_of_uniform {P : Prop} {task : Task ε α} {next : α → Task ε β}
    (uniform : ∀ value, task.Resolves value → ((next value).Safe ↔ P)) :
    (task >>= next).Safe ↔ task.Safe ∧ P := by
  rw [bind_safe_iff]
  constructor
  · rintro ⟨value, resolves, later⟩
    exact ⟨⟨value, resolves⟩, (uniform value resolves).mp later⟩
  · rintro ⟨⟨value, resolves⟩, holds⟩
    exact ⟨value, resolves, (uniform value resolves).mpr holds⟩

theorem bind_resolved (actions : List ε) (unhandled : Bool) (value : α) (next : α → Task ε β) :
    (Task.mk actions unhandled (.resolved value) >>= next) =
      ⟨actions ++ (next value).actions, unhandled || (next value).unhandled,
        (next value).settled⟩ := rfl

theorem bind_assoc {γ : Type} (task : Task ε α) (next : α → Task ε β) (last : β → Task ε γ) :
    task >>= next >>= last = task >>= fun value => next value >>= last := by
  obtain ⟨actions, unhandled, settled⟩ := task
  cases settled with
  | rejected => rfl
  | pending => rfl
  | resolved value =>
    rw [bind_resolved, bind_resolved]
    obtain ⟨actions', unhandled', settled'⟩ := next value
    cases settled' with
    | rejected => rfl
    | pending => rfl
    | resolved value' => rw [bind_resolved, bind_resolved, List.append_assoc, Bool.or_assoc]

theorem ofOption_bind_safe_iff (value : Option α) (next : α → Task ε β) :
    (ofOption value >>= next).Safe ↔ ∃ a, value = some a ∧ (next a).Safe := by
  simp only [bind_safe_iff, resolves_ofOption]

theorem ofOption_safe_iff (value : Option α) :
    (ofOption value : Task ε α).Safe ↔ ∃ a, value = some a :=
  exists_congr fun _ => resolves_ofOption value

theorem bind_pure_safe_iff (task : Task ε α) (f : α → β) :
    (task >>= fun value => pure (f value)).Safe ↔ task.Safe := by
  rw [bind_safe_of_uniform (P := True) fun value _ => iff_true_intro (pure_safe (f value)),
    and_true]

theorem act_bind_safe_iff (action : ε) (next : Unit → Task ε β) :
    (act action >>= next).Safe ↔ (next ()).Safe := by
  rw [bind_safe_of_uniform (P := (next ()).Safe) fun _ _ => Iff.rfl]
  exact and_iff_right (act_safe action)

/-! ### Actions -/

/-- No action is observed. -/
def Silent (observe : ε → Option γ) (task : Task ε α) : Prop := task.actions.filterMap observe = []

theorem silent_pure (observe : ε → Option γ) (value : α) : (pure value : Task ε α).Silent observe :=
  rfl

theorem silent_ofOption (observe : ε → Option γ) (value : Option α) :
    (ofOption value : Task ε α).Silent observe := by
  cases value with
  | none => rfl
  | some a => rfl

theorem Silent.bind {observe : ε → Option γ} {task : Task ε α} {next : α → Task ε β}
    (first : task.Silent observe) (later : ∀ value, (next value).Silent observe) :
    (task >>= next).Silent observe := by
  obtain ⟨actions, unhandled, settled⟩ := task
  cases settled with
  | resolved value =>
    exact (List.filterMap_append ..).trans (by rw [first, later value, List.nil_append])
  | rejected => exact first
  | pending => exact first

/-- What is observed of a task behind a silent one. -/
theorem Silent.observed {observe : ε → Option γ} {task : Task ε α} (silent : task.Silent observe)
    (resolves : task.settled = .resolved value) (next : α → Task ε β) :
    (task >>= next).actions.filterMap observe = (next value).actions.filterMap observe := by
  obtain ⟨actions, unhandled, settled⟩ := task
  obtain rfl := resolves
  exact (List.filterMap_append ..).trans (by rw [silent, List.nil_append])

end Task
end Javascript
