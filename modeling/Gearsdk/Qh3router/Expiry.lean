import Gearsdk.Qh3router.Routes

/-! Which routes a turn of the timer destroys. -/
namespace Gearsdk
namespace Qh3router

variable {router : Qh3router} {old list : List Nat} {ptr : Nat}

theorem mem_expired {now timeout : Rat} (ok : router.expired now timeout list = .ok old) :
    ptr ∈ old ↔ ptr ∈ list ∧ ∀ route, router.heap ptr = some route →
      timeout ≤ now - route.lastHbReceivedTime := by
  induction list generalizing old with
  | nil =>
    cases Except.ok.inj ok
    simp only [List.not_mem_nil, false_and]
  | cons here rest ih =>
    cases found : router.heap here with
    | none =>
      simp only [expired, deref, found, bind, Except.bind] at ok
      cases ok
    | some route =>
      cases later : router.expired now timeout rest with
      | error fault =>
        simp only [expired, deref_eq found, later, bind, Except.bind] at ok
        cases ok
      | ok old' =>
        have inside : (ptr ∈ old' ↔ _) := ih later
        simp only [expired, deref_eq found, later, bind, Except.bind] at ok
        cases Except.ok.inj ok
        rw [List.mem_cons, or_and_right, ← inside]
        by_cases fresh : now - route.lastHbReceivedTime < timeout
        · rw [if_pos fresh]
          have unexpired : ¬ (ptr = here ∧ ∀ route, router.heap ptr = some route →
              timeout ≤ now - route.lastHbReceivedTime) := by
            rintro ⟨rfl, silent⟩
            exact absurd (silent route found) (Rat.not_le.mpr fresh)
          simp only [unexpired, false_or]
        · rw [if_neg fresh, List.mem_cons]
          refine or_congr_left (Iff.symm (and_iff_left_of_imp ?_))
          rintro rfl route' found'
          cases Option.some.inj (found.symm.trans found')
          exact Rat.not_lt.mp fresh

theorem mem_moveExpired (listed : Listed router) (active : ∀ ptr ∈ old, ptr ∈ router.routes)
    (nodup : old.Nodup) :
    ptr ∈ (router.moveExpired old).unresponsiveRoutes ↔ ptr ∈ router.unresponsiveRoutes ∨
      ptr ∈ old := by
  induction old generalizing router with
  | nil => simp only [moveExpired, List.not_mem_nil, or_false]
  | cons first rest ih =>
    obtain ⟨absent, nodup⟩ := List.nodup_cons.mp nodup
    have here := active first List.mem_cons_self
    rw [moveExpired_cons listed here]
    have moved : Shrinks router (router.deactivate first) :=
      listed.shrinks_perm rfl rfl (listed.deactivate here)
    refine (ih moved.listed ?_ nodup).trans ?_
    · intro other inside
      refine List.mem_filter.mpr ⟨active other (List.mem_cons_of_mem _ inside), decide_eq_true ?_⟩
      rintro rfl
      exact absent inside
    · simp only [deactivate, List.mem_append, List.mem_cons, List.not_mem_nil, or_false, or_assoc]

theorem heap_moveExpired (router : Qh3router) (old : List Nat) :
    (router.moveExpired old).heap = router.heap := by
  induction old generalizing router with
  | nil => rfl
  | cons first rest ih =>
    simp only [moveExpired]
    rw [ih]
    split
    · simp only [pushToUnresponsiveRoutes]
      split <;> rfl
    · rfl

theorem heap_destroyExpired (unresponsive : ∀ ptr ∈ old, ptr ∈ router.unresponsiveRoutes)
    (nodup : old.Nodup) :
    (router.destroyExpired old).heap ptr = if ptr ∈ old then none else router.heap ptr := by
  induction old generalizing router with
  | nil => rfl
  | cons first rest ih =>
    obtain ⟨absent, nodup⟩ := List.nodup_cons.mp nodup
    rw [destroyExpired_cons (unresponsive first List.mem_cons_self), ih ?_ nodup]
    · by_cases same : ptr = first
      · subst same
        simp only [remove, Function.update_self, List.mem_cons, true_or, if_true, ite_self]
      · simp only [remove, Function.update_of_ne same, List.mem_cons, same, false_or]
    · intro other inside
      refine List.mem_filter.mpr ⟨unresponsive other (List.mem_cons_of_mem _ inside),
        decide_eq_true ?_⟩
      rintro rfl
      exact absent inside

/-- The route at the address has been silent for twice the time-out. It is or has just
become unresponsive. -/
def Expires (destroyRoutes : Bool) (router : Qh3router) (now : Rat) (timeout : Int)
    (address : Address) : Prop :=
  destroyRoutes = true ∧ ∃ ptr ∈ router.entries, ∃ route, router.heap ptr = some route ∧
    route.address = address ∧
    (timeout * 2 : Rat) ≤ now - route.lastHbReceivedTime ∧
    (ptr ∈ router.unresponsiveRoutes ∨ (timeout : Rat) ≤ now - route.lastHbReceivedTime)

theorem destroyedAt_iff (router router' : Qh3router) (address : Address) :
    destroyedAt router router' address = true ↔ ∃ ptr ∈ router.entries, ∃ route, router.heap ptr =
      some route ∧
      route.address = address ∧ router'.heap ptr = none := by
  simp only [destroyedAt, List.any_eq_true, Bool.and_eq_true, Option.any_eq_true, decide_eq_true_eq,
    Option.isNone_iff_eq_none]
  refine exists_congr fun ptr => and_congr_right fun _ => ?_
  constructor
  · rintro ⟨⟨route, found, same⟩, gone⟩
    exact ⟨route, found, same, gone⟩
  · rintro ⟨route, found, same, gone⟩
    exact ⟨⟨route, found, same⟩, gone⟩

/-- A turn of the timer destroys exactly the routes that have expired. -/
theorem destroyedAt_check (listed : Listed router) {destroyRoutes : Bool} {now : Rat}
    {timeout : Int}
    (ok : router.checkAndRemoveUnresponsiveRoutes destroyRoutes now timeout = .ok router')
    (address : Address) :
    destroyedAt router router' address = true ↔
      Expires destroyRoutes router now timeout address := by
  have live : ∀ ptr ∈ router.routes, ∃ route, router.heap ptr = some route :=
    fun ptr inside => listed.live ptr (List.mem_append_left _ inside)
  obtain ⟨old, found, sub⟩ := expired_spec now timeout live
  have heap := router.heap_moveExpired old
  simp only [checkAndRemoveUnresponsiveRoutes, found, bind, Except.bind] at ok
  rw [destroyedAt_iff, Expires]
  cases destroyRoutes with
  | false =>
    cases Except.ok.inj ok
    simp only [Bool.false_eq_true, false_and, iff_false]
    rintro ⟨ptr, _, route, there, _, gone⟩
    rw [heap, there] at gone
    cases gone
  | true =>
    have moved := moveExpired_shrinks listed sub.subset (sub.nodup listed.routes_nodup)
    have live' : ∀ ptr ∈ (router.moveExpired old).unresponsiveRoutes,
      ∃ route, (router.moveExpired old).heap ptr = some route :=
      fun ptr inside => moved.listed.live ptr (List.mem_append_right _ inside)
    obtain ⟨old', found', sub'⟩ := expired_spec now (timeout * 2) live'
    simp only [found', if_true] at ok
    cases Except.ok.inj ok
    simp only [true_and]
    refine exists_congr fun ptr => and_congr_right fun inside => exists_congr fun route =>
      and_congr_right fun there =>
      and_congr_right fun _ => ?_
    rw [heap_destroyExpired sub'.subset (sub'.nodup moved.listed.unresponsive_nodup), heap, there,
      ite_eq_left_iff, mem_expired found',
      mem_moveExpired listed sub.subset (sub.nodup listed.routes_nodup), mem_expired found, heap]
    simp only [there, Option.some.injEq, forall_eq', reduceCtorEq, imp_false, not_not]
    rw [and_comm]
    refine and_congr_right fun _ => ?_
    constructor
    · rintro (unresponsive | ⟨_, silent⟩)
      · exact .inl unresponsive
      · exact .inr silent
    · rintro (unresponsive | silent)
      · exact .inl unresponsive
      · exact (List.mem_append.mp inside).symm.imp_right fun active => ⟨active, silent⟩

end Qh3router
end Gearsdk
