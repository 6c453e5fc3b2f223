import Gearsdk.Qh3router
import Gearsdk.Transition

/-! The two lists of the router. -/
namespace Gearsdk

abbrev Address := Qstring × Qstring

def Route.address (route : Route) : Address := (route.host, route.port)

namespace Qh3router

/-- All entries of both lists. -/
def entries (router : Qh3router) : List Nat := router.routes ++ router.unresponsiveRoutes

/-- Some entry of the list is the route at this address. -/
def Holds (router : Qh3router) (list : List Nat) (address : Address) : Prop :=
  ∃ ptr ∈ list, ∃ route, router.heap ptr = some route ∧ route.address = address

/-- Every entry is a route of its own, at an address of its own. -/
structure Listed (router : Qh3router) : Prop where
  nodup : router.entries.Nodup
  live : ∀ ptr ∈ router.entries, ∃ route, router.heap ptr = some route
  clean : ∀ ptr route, router.heap ptr = some route → Qstring.Clean route.host ∧
    Qstring.Clean route.port
  fresh : ∀ ptr, router.allocated ≤ ptr → router.heap ptr = none
  unique : ∀ p ∈ router.entries, ∀ q ∈ router.entries, ∀ r s, router.heap p = some r →
    router.heap q = some s →
    r.address = s.address → p = q

variable {router : Qh3router} {host port : Qstring}

theorem hasAddress_iff (clean : Qstring.Clean route.host ∧ Qstring.Clean route.port)
    (cleanHost : Qstring.Clean host) (cleanPort : Qstring.Clean port) :
    hasAddress route host port = true ↔ route.address = (host, port) := by
  simp only [hasAddress, Bool.and_eq_true, Qstring.operatorEq_iff clean.1 cleanHost,
    Qstring.operatorEq_iff clean.2 cleanPort, Route.address, Prod.mk.injEq]

theorem deref_eq (found : router.heap ptr = some route) : router.deref ptr = .ok route := by
  simp only [deref, found]

/-- The search finds the route at the address, if some entry is one. -/
theorem findRoute_spec {list : List Nat}
    (clean : ∀ ptr route, router.heap ptr = some route → Qstring.Clean route.host ∧
      Qstring.Clean route.port)
    (cleanHost : Qstring.Clean host) (cleanPort : Qstring.Clean port)
    (live : ∀ ptr ∈ list, ∃ route, router.heap ptr = some route) :
    (∃ ptr ∈ list, ∃ route, router.heap ptr = some route ∧ route.address = (host, port) ∧
      router.findRoute host port list = .ok (some ptr)) ∨
    (¬ router.Holds list (host, port) ∧ router.findRoute host port list = .ok none) := by
  induction list with
  | nil =>
    refine .inr ⟨?_, rfl⟩
    rintro ⟨ptr, inside, _⟩
    cases inside
  | cons ptr rest ih =>
    obtain ⟨route, found⟩ := live ptr List.mem_cons_self
    have here := hasAddress_iff (clean ptr route found) cleanHost cleanPort
    have step : router.findRoute host port (ptr :: rest) =
        if hasAddress route host port then .ok (some ptr) else router.findRoute host port rest := by
      simp only [findRoute, deref_eq found, bind, Except.bind]
    by_cases same : hasAddress route host port = true
    · rw [if_pos same] at step
      exact .inl ⟨ptr, List.mem_cons_self, route, found, here.mp same, step⟩
    · rw [if_neg same] at step
      rcases ih (fun ptr inside => live ptr (List.mem_cons_of_mem _ inside)) with
        ⟨other, inside, route', found', same', ok⟩ | ⟨absent, ok⟩
      · exact .inl ⟨other, List.mem_cons_of_mem _ inside, route', found', same', step.trans ok⟩
      · refine .inr ⟨?_, step.trans ok⟩
        rintro ⟨other, inside, route', found', same'⟩
        rcases List.mem_cons.mp inside with rfl | later
        · cases Option.some.inj (found.symm.trans found')
          exact same (here.mpr same')
        · exact absent ⟨other, later, route', found', same'⟩

theorem filter_shrinks (list : List Nat) (ptr : Nat) :
    decide (list.length ≠ (list.filter (· ≠ ptr)).length) = decide (ptr ∈ list) := by
  have shrinks :=
    @List.length_filter_lt_length_iff_exists _ (fun other => decide (other ≠ ptr)) list
  have bound := List.length_filter_le (fun other => decide (other ≠ ptr)) list
  apply decide_eq_decide.mpr
  constructor
  · intro different
    obtain ⟨other, inside, same⟩ := shrinks.mp (lt_of_le_of_ne bound different.symm)
    simp only [ne_eq, decide_not, Bool.not_eq_true', decide_eq_false_iff_not, not_not] at same
    exact same ▸ inside
  · intro inside
    have lt := shrinks.mpr ⟨ptr, inside, by simp only [ne_eq, not_true_eq_false, decide_false,
      Bool.false_eq_true, not_false_eq_true]⟩
    exact (ne_of_lt lt).symm

theorem removeFromActiveRoutes_eq (ptr : Nat) :
    router.removeFromActiveRoutes ptr =
      ({ router with routes := router.routes.filter (· ≠ ptr) }, decide (ptr ∈ router.routes)) := by
  rw [removeFromActiveRoutes, ← filter_shrinks]

theorem removeFromUnresponsiveRoutes_eq (ptr : Nat) :
    router.removeFromUnresponsiveRoutes ptr =
      ({ router with unresponsiveRoutes := router.unresponsiveRoutes.filter (· ≠ ptr) },
        decide (ptr ∈ router.unresponsiveRoutes)) := by
  rw [removeFromUnresponsiveRoutes, ← filter_shrinks]

/-- The entry is at the end of the active routes, if it was not active. -/
def activate (router : Qh3router) (ptr : Nat) : Qh3router :=
  if ptr ∈ router.routes then router
  else { router with
    routes := router.routes ++ [ptr]
    unresponsiveRoutes := router.unresponsiveRoutes.filter (· ≠ ptr) }

/-- The route of an active entry is destroyed. -/
def forget (router : Qh3router) (ptr : Nat) : Qh3router :=
  { router with
    routes := router.routes.filter (· ≠ ptr)
    heap := Function.update router.heap ptr none }

theorem mem_routes_activate (ptr : Nat) : ptr ∈ (router.activate ptr).routes := by
  by_cases active : ptr ∈ router.routes
  · simpa only [activate, if_pos active] using active
  · simp only [activate, if_neg active, List.mem_append, List.mem_singleton, or_true]

/-- A reporting route that is listed is active afterwards. -/
theorem locate_spec (listed : Listed router) (cleanHost : Qstring.Clean host)
    (cleanPort : Qstring.Clean port) :
    (∃ ptr ∈ router.entries, ∃ route, router.heap ptr = some route ∧ route.address = (host, port) ∧
      router.locate host port = .ok (router.activate ptr, some ptr)) ∨
    (¬ router.Holds router.entries (host, port) ∧ router.locate host port = .ok (router, none)) := by
  have active := findRoute_spec listed.clean cleanHost cleanPort
    (fun ptr inside => listed.live ptr (List.mem_append_left router.unresponsiveRoutes inside))
  have unresponsive := findRoute_spec listed.clean cleanHost cleanPort
    (fun ptr inside => listed.live ptr (List.mem_append_right router.routes inside))
  rcases active with ⟨ptr, inside, route, found, same, ok⟩ | ⟨notActive, none₁⟩
  · refine .inl ⟨ptr, List.mem_append_left _ inside, route, found, same, ?_⟩
    simp only [locate, isInActiveRoutes, ok, activate, if_pos inside, bind, Except.bind]
  · rcases unresponsive with ⟨ptr, inside, route, found, same, ok⟩ | ⟨notUnresponsive, none₂⟩
    · have inactive : ptr ∉ router.routes :=
        fun active => notActive ⟨ptr, active, route, found, same⟩
      refine .inl ⟨ptr, List.mem_append_right _ inside, route, found, same, ?_⟩
      simp only [locate, isInActiveRoutes, none₁, isInUnresponsiveRoutes, ok,
        removeFromUnresponsiveRoutes_eq, inside, decide_true, if_true, pushToRoutes,
        if_neg inactive, activate, bind, Except.bind]
    · refine .inr ⟨?_, ?_⟩
      · rintro ⟨ptr, inside, route, found, same⟩
        rcases List.mem_append.mp inside with first | second
        · exact notActive ⟨ptr, first, route, found, same⟩
        · exact notUnresponsive ⟨ptr, second, route, found, same⟩
      · simp only [locate, isInActiveRoutes, none₁, isInUnresponsiveRoutes, none₂, bind,
          Except.bind]

theorem routeFeedback_acknowledged (active : ptr ∈ router.routes)
    (acknowledges : isCommand cmd "shut-ack-" port = true) :
    router.routeFeedback now ptr port cmd = (router.forget ptr).shutdownCmdCenter := by
  simp only [routeFeedback, if_pos acknowledges, removeFromActiveRoutes_eq, active, decide_true,
    if_true]
  rfl

section Preservation
variable {router' : Qh3router}

/-- Entries may trade places, within a list and between the lists. -/
theorem Listed.perm (listed : Listed router) (heap : router'.heap = router.heap)
    (allocated : router'.allocated = router.allocated)
    (perm : router'.entries.Perm router.entries) : Listed router' where
  nodup := perm.nodup_iff.mpr listed.nodup
  live ptr inside := by
    rw [heap]
    exact listed.live ptr (perm.mem_iff.mp inside)
  clean := by
    rw [heap]
    exact listed.clean
  fresh := by
    rw [heap, allocated]
    exact listed.fresh
  unique p pIn q qIn := by
    rw [heap]
    exact listed.unique p (perm.mem_iff.mp pIn) q (perm.mem_iff.mp qIn)

theorem holds_perm (heap : router'.heap = router.heap) (perm : router'.entries.Perm router.entries)
    (address : Address) :
    router'.Holds router'.entries address ↔ router.Holds router.entries address := by
  simp only [Holds, heap, perm.mem_iff]

theorem Listed.destroyed (listed : Listed router)
    (heap : router'.heap = Function.update router.heap ptr none)
    (allocated : router'.allocated = router.allocated)
    (entries : router'.entries = router.entries.filter (· ≠ ptr)) :
    Listed router' := by
  have kept : ∀ other ∈ router'.entries, other ≠ ptr ∧ other ∈ router.entries := by
    intro other inside
    rw [entries] at inside
    obtain ⟨before, different⟩ := List.mem_filter.mp inside
    exact ⟨of_decide_eq_true different, before⟩
  have elsewhere : ∀ other route, router'.heap other = some route →
      router.heap other = some route := by
    intro other route found
    rw [heap] at found
    by_cases same : other = ptr
    · rw [same, Function.update_self] at found
      cases found
    · rwa [Function.update_of_ne same] at found
  constructor
  · rw [entries]
    exact listed.nodup.filter _
  · intro other inside
    obtain ⟨different, before⟩ := kept other inside
    rw [heap, Function.update_of_ne different]
    exact listed.live other before
  · intro other route found
    exact listed.clean other route (elsewhere other route found)
  · intro other beyond
    rw [heap]
    by_cases same : other = ptr
    · rw [same, Function.update_self]
    · rw [Function.update_of_ne same]
      exact listed.fresh other (allocated ▸ beyond)
  · intro p pIn q qIn r s foundP foundQ
    exact listed.unique p (kept p pIn).2 q (kept q qIn).2 r s (elsewhere p r foundP)
      (elsewhere q s foundQ)

theorem holds_destroyed (listed : Listed router) (inside : ptr ∈ router.entries)
    (found : router.heap ptr = some route)
    (heap : router'.heap = Function.update router.heap ptr none)
    (entries : router'.entries = router.entries.filter (· ≠ ptr)) (address : Address) :
    router'.Holds router'.entries address ↔ router.Holds router.entries address ∧
      address ≠ route.address := by
  constructor
  · rintro ⟨other, kept, route', found', same⟩
    rw [entries] at kept
    obtain ⟨before, different⟩ := List.mem_filter.mp kept
    have different : other ≠ ptr := of_decide_eq_true different
    rw [heap, Function.update_of_ne different] at found'
    refine ⟨⟨other, before, route', found', same⟩, ?_⟩
    rintro rfl
    exact different (listed.unique other before ptr inside route' route found' found same)
  · rintro ⟨⟨other, before, route', found', same⟩, elsewhere⟩
    have different : other ≠ ptr := by
      rintro rfl
      cases Option.some.inj (found.symm.trans found')
      exact elsewhere same.symm
    refine ⟨other, ?_, route', ?_, same⟩
    · rw [entries]
      exact List.mem_filter.mpr ⟨before, decide_eq_true different⟩
    · rwa [heap, Function.update_of_ne different]

theorem Listed.refreshed (listed : Listed router) (found : router.heap ptr = some route)
    (heap : router'.heap =
      Function.update router.heap ptr (some { route with lastHbReceivedTime := now }))
    (allocated : router'.allocated = router.allocated) (entries : router'.entries = router.entries) :
    Listed router' ∧ ∀ address, router'.Holds router'.entries address ↔
      router.Holds router.entries address := by
  have forth : ∀ other r, router.heap other = some r → ∃ r', router'.heap other = some r' ∧
    r'.address = r.address ∧
      r'.host = r.host ∧ r'.port = r.port := by
    intro other r foundR
    rw [heap]
    by_cases same : other = ptr
    · subst other
      cases Option.some.inj (found.symm.trans foundR)
      exact ⟨_, Function.update_self .., rfl, rfl, rfl⟩
    · exact ⟨r, by rwa [Function.update_of_ne same], rfl, rfl, rfl⟩
  have back : ∀ other r', router'.heap other = some r' → ∃ r, router.heap other = some r ∧
    r'.address = r.address ∧
      r'.host = r.host ∧ r'.port = r.port := by
    intro other r' foundR
    rw [heap] at foundR
    by_cases same : other = ptr
    · subst other
      rw [Function.update_self] at foundR
      cases Option.some.inj foundR
      exact ⟨route, found, rfl, rfl, rfl⟩
    · rw [Function.update_of_ne same] at foundR
      exact ⟨r', foundR, rfl, rfl, rfl⟩
  refine ⟨⟨entries ▸ listed.nodup, ?_, ?_, ?_, ?_⟩, ?_⟩
  · intro other inside
    obtain ⟨r, foundR⟩ := listed.live other (entries ▸ inside)
    obtain ⟨r', found', _⟩ := forth other r foundR
    exact ⟨r', found'⟩
  · intro other r' found'
    obtain ⟨r, foundR, _, host, port⟩ := back other r' found'
    rw [host, port]
    exact listed.clean other r foundR
  · intro other beyond
    cases found' : router'.heap other with
    | none => rfl
    | some r' =>
      obtain ⟨r, foundR, _⟩ := back other r' found'
      rw [listed.fresh other (allocated ▸ beyond)] at foundR
      cases foundR
  · intro p pIn q qIn r' s' foundP foundQ same
    obtain ⟨r, foundR, sameR, _⟩ := back p r' foundP
    obtain ⟨s, foundS, sameS, _⟩ := back q s' foundQ
    exact listed.unique p (entries ▸ pIn) q (entries ▸ qIn) r s foundR foundS
      (sameR.symm.trans (same.trans sameS))
  · intro address
    rw [entries]
    constructor
    · rintro ⟨other, inside, r', found', same⟩
      obtain ⟨r, foundR, sameR, _⟩ := back other r' found'
      exact ⟨other, inside, r, foundR, sameR.symm.trans same⟩
    · rintro ⟨other, inside, r, foundR, same⟩
      obtain ⟨r', found', sameR, _⟩ := forth other r foundR
      exact ⟨other, inside, r', found', sameR.trans same⟩

theorem Listed.allocated_absent (listed : Listed router) :
    ∀ ptr ∈ router.entries, ptr ≠ router.allocated := by
  rintro ptr inside rfl
  obtain ⟨route, found⟩ := listed.live router.allocated inside
  rw [listed.fresh router.allocated (Nat.le_refl _)] at found
  cases found

theorem mem_entries_create (other : Nat) :
    other ∈ (router.createQh3serverRoute now host port).entries ↔
    other ∈ router.entries ∨ other = router.allocated := by
  simp only [entries, createQh3serverRoute, List.mem_append, List.mem_singleton]
  exact or_right_comm

theorem createQh3serverRoute_listed (listed : Listed router) (cleanHost : Qstring.Clean host)
    (cleanPort : Qstring.Clean port) (absent : ¬ router.Holds router.entries (host, port)) :
    Listed (router.createQh3serverRoute now host port) ∧ ∀ address,
      (router.createQh3serverRoute now host port).Holds
        (router.createQh3serverRoute now host port).entries address ↔
        router.Holds router.entries address ∨ address = (host, port) := by
  let created : Route := ⟨host, port, router.serverCounter, now⟩
  have heap : (router.createQh3serverRoute now host port).heap =
      Function.update router.heap router.allocated (some created) := by
    simp only [createQh3serverRoute, Qstring.cString_of_nul_free cleanHost,
      Qstring.cString_of_nul_free cleanPort, created]
  have here : (router.createQh3serverRoute now host port).heap router.allocated = some created := by
    rw [heap, Function.update_self]
  have earlier : ∀ other, other ≠ router.allocated →
      (router.createQh3serverRoute now host port).heap other = router.heap other := by
    intro other different
    rw [heap, Function.update_of_ne different]
  have other := listed.allocated_absent
  have held : ∀ address, (router.createQh3serverRoute now host port).Holds
      (router.createQh3serverRoute now host port).entries address ↔
        router.Holds router.entries address ∨ address = (host, port) := by
    intro address
    constructor
    · rintro ⟨ptr, inside, route, found, same⟩
      rcases (mem_entries_create ptr).mp inside with before | rfl
      · rw [earlier ptr (other ptr before)] at found
        exact .inl ⟨ptr, before, route, found, same⟩
      · cases Option.some.inj (here.symm.trans found)
        exact .inr same.symm
    · rintro (⟨ptr, inside, route, found, same⟩ | rfl)
      · exact ⟨ptr, (mem_entries_create ptr).mpr (.inl inside), route,
          (earlier ptr (other ptr inside)).trans found, same⟩
      · exact ⟨router.allocated, (mem_entries_create _).mpr (.inr rfl), created, here, rfl⟩
  refine ⟨⟨?_, ?_, ?_, ?_, ?_⟩, held⟩
  · have perm : (router.createQh3serverRoute now host port).entries.Perm
        (router.allocated :: router.entries) := by
      simp only [entries, createQh3serverRoute, List.append_assoc, List.singleton_append]
      exact List.perm_middle
    rw [perm.nodup_iff, List.nodup_cons]
    exact ⟨fun inside => other _ inside rfl, listed.nodup⟩
  · intro ptr inside
    rcases (mem_entries_create ptr).mp inside with before | rfl
    · rw [earlier ptr (other ptr before)]
      exact listed.live ptr before
    · exact ⟨created, here⟩
  · intro ptr route found
    by_cases same : ptr = router.allocated
    · subst ptr
      cases Option.some.inj (here.symm.trans found)
      exact ⟨cleanHost, cleanPort⟩
    · rw [earlier ptr same] at found
      exact listed.clean ptr route found
  · intro ptr beyond
    have beyond : router.allocated + 1 ≤ ptr := beyond
    rw [earlier ptr (by omega)]
    exact listed.fresh ptr (by omega)
  · intro p pIn q qIn r s foundP foundQ same
    rcases (mem_entries_create p).mp pIn with pBefore | rfl <;>
      rcases (mem_entries_create q).mp qIn with qBefore | rfl
    · rw [earlier p (other p pBefore)] at foundP
      rw [earlier q (other q qBefore)] at foundQ
      exact listed.unique p pBefore q qBefore r s foundP foundQ same
    · rw [earlier p (other p pBefore)] at foundP
      cases Option.some.inj (here.symm.trans foundQ)
      exact absurd ⟨p, pBefore, r, foundP, same⟩ absent
    · rw [earlier q (other q qBefore)] at foundQ
      cases Option.some.inj (here.symm.trans foundP)
      exact absurd ⟨q, qBefore, s, foundQ, same.symm⟩ absent
    · rfl

theorem Listed.routes_nodup (listed : Listed router) : router.routes.Nodup :=
  (List.nodup_append.mp listed.nodup).1

theorem Listed.unresponsive_nodup (listed : Listed router) : router.unresponsiveRoutes.Nodup :=
  (List.nodup_append.mp listed.nodup).2.1

/-- No entry is in both lists. -/
theorem Listed.apart (listed : Listed router) (active : ptr ∈ router.routes) :
    ptr ∉ router.unresponsiveRoutes :=
  fun unresponsive => (List.nodup_append.mp listed.nodup).2.2 ptr active ptr unresponsive rfl

theorem filter_absent {α : Type} [DecidableEq α] {list : List α} {absent : α}
    (outside : absent ∉ list) :
    list.filter (· ≠ absent) = list := by
  apply List.filter_eq_self.mpr
  intro other inside
  refine decide_eq_true ?_
  rintro rfl
  exact outside inside

/-- A list of distinct entries, one of which moves to the front. -/
theorem perm_moved {list : List Nat} (inside : ptr ∈ list) (nodup : list.Nodup) :
    (ptr :: list.filter (· ≠ ptr)).Perm list := by
  have same : list.filter (· ≠ ptr) = list.filter (· != ptr) := by
    apply List.filter_congr
    intro other _
    simp only [ne_eq, decide_not, bne, beq_eq_decide]
  rw [same, ← nodup.erase_eq_filter]
  exact (List.perm_cons_erase inside).symm

theorem Listed.activate (listed : Listed router) (inside : ptr ∈ router.entries) :
    (router.activate ptr).entries.Perm router.entries := by
  by_cases active : ptr ∈ router.routes
  · rw [Qh3router.activate, if_pos active]
  · have unresponsive : ptr ∈ router.unresponsiveRoutes :=
      (List.mem_append.mp inside).resolve_left active
    simp only [entries, Qh3router.activate, if_neg active, List.append_assoc, List.singleton_append]
    exact (perm_moved unresponsive listed.unresponsive_nodup).append_left router.routes

theorem Listed.forget_entries (listed : Listed router) (active : ptr ∈ router.routes) :
    (router.forget ptr).entries = router.entries.filter (· ≠ ptr) := by
  simp only [entries, forget, List.filter_append, filter_absent (listed.apart active)]

end Preservation

end Qh3router
end Gearsdk
