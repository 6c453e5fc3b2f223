/-! Objects that are called in some order and answer each call from what the earlier
ones left. One object does the work of another as far as it gives the same answers. -/

structure Responder (S C A : Type) where
  init : S
  call : S → C → S × A

namespace Responder
variable {S T C A : Type} {impl : Responder S C A} {spec : Responder T C A} {s : S} {t : T}

/-- The state that calls leave. -/
def afterFrom (r : Responder S C A) (s : S) (calls : List C) : S :=
  calls.foldl (fun s c => (r.call s c).1) s

def after (r : Responder S C A) (calls : List C) : S := r.afterFrom r.init calls

def answersFrom (r : Responder S C A) (s : S) : List C → List A
  | [] => []
  | c :: rest => (r.call s c).2 :: r.answersFrom (r.call s c).1 rest

def answers (r : Responder S C A) (calls : List C) : List A := r.answersFrom r.init calls

/-- `answers_eq_iff` from related states. -/
theorem answersFrom_eq_iff {R : S → T → Prop} {Cond : T → C → Prop}
    (same : ∀ {s t} c, R s t → ((impl.call s c).2 = (spec.call t c).2 ↔ Cond t c))
    (next : ∀ {s t} c, R s t → Cond t c → R (impl.call s c).1 (spec.call t c).1)
    (related : R s t) (calls : List C) :
    impl.answersFrom s calls = spec.answersFrom t calls ↔
      ∀ before c later, calls = before ++ c :: later → Cond (spec.afterFrom t before) c := by
  induction calls generalizing s t with
  | nil =>
    refine iff_of_true rfl fun before c later split => ?_
    cases before <;> contradiction
  | cons c rest ih =>
    rw [answersFrom, answersFrom, List.cons.injEq]
    constructor
    · rintro ⟨here, there⟩ before c' later split
      have cond := (same c related).mp here
      cases before with
      | nil =>
        obtain ⟨rfl, _⟩ := List.cons.inj split
        exact cond
      | cons first before =>
        obtain ⟨rfl, tails⟩ := List.cons.inj split
        exact (ih (next c related cond)).mp there before c' later tails
    · intro conds
      have cond : Cond t c := conds [] c rest rfl
      refine ⟨(same c related).mpr cond, (ih (next c related cond)).mpr fun before c' later split => ?_⟩
      exact conds (c :: before) c' later (congrArg (c :: ·) split)

/-- Two objects whose states are related give the same answers just when every call meets the
condition under which one answer is the same, if that condition keeps the states related. -/
theorem answers_eq_iff {R : S → T → Prop} {Cond : T → C → Prop} (initial : R impl.init spec.init)
    (same : ∀ {s t} c, R s t → ((impl.call s c).2 = (spec.call t c).2 ↔ Cond t c))
    (next : ∀ {s t} c, R s t → Cond t c → R (impl.call s c).1 (spec.call t c).1) (calls : List C) :
    impl.answers calls = spec.answers calls ↔
      ∀ before c later, calls = before ++ c :: later → Cond (spec.after before) c :=
  answersFrom_eq_iff same next initial calls

end Responder
