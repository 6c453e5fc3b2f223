import Gearsdk.Qh3router.Lists

/-! The lists of the router against the addresses that have announced themselves. -/
namespace Gearsdk
namespace Qh3router

variable {router : Qh3router} {host port : Qstring}

/-- The lists are in order, and the routes at these addresses are the ones they hold. -/
def Lists (router : Qh3router) (addresses : Address → Prop) : Prop :=
  Listed router ∧ ∀ address, router.Holds router.entries address ↔ addresses address

/-- The addresses that have announced themselves and not taken leave since. The
command server announces itself like the others; it is no route. -/
def announce (router : Qh3router) (announced : List Address) (clientAddr : Sockaddr)
    (cmd : Qstring) : List Address :=
  match getnameinfo clientAddr with
  | none => announced
  | some (host, port) =>
      let isCommandServer := router.commandRoute.any fun center => hasAddress center host port
      if isCommand cmd "shut-ack-" port then announced.filter (· ≠ (host, port))
      else if isCommand cmd "qh3server-start-" port ∧ isCommandServer = false ∧
        (host, port) ∉ announced then
        announced ++ [(host, port)]
      else announced

theorem getnameinfo_clean (named : getnameinfo addr = some (host, port)) :
    Qstring.Clean host ∧ Qstring.Clean port := by
  simp only [getnameinfo] at named
  split at named
  · cases Option.some.inj named
    exact ⟨Qaddress.clean_dottedQuad _, Qstring.clean_of_digits (Qstring.unsigned_digits _)⟩
  · cases named

theorem isCommand_iff (clean : Qstring.Clean (Qstring.literal name)) :
    isCommand cmd name port = true ↔ Qstring.cString cmd = Qstring.literal name ++
      Qstring.cString port := by
  have whole : Qstring.Clean (command name port) := by
    intro byte inside
    rcases List.mem_append.mp inside with first | second
    · exact clean byte first
    · exact Qstring.cString_clean port byte second
  rw [isCommand, decide_eq_true_iff, Qstring.compare_iff whole, command]

theorem not_both (acknowledges : isCommand cmd "shut-ack-" port = true) :
    isCommand cmd "qh3server-start-" port = false := by
  apply Bool.eq_false_iff.mpr
  intro starts
  have first := (isCommand_iff (by decide +kernel)).mp acknowledges
  have second := (isCommand_iff (by decide +kernel)).mp starts
  have heads := congrArg List.head? (first.symm.trans second)
  have shut : (Qstring.literal "shut-ack-").head? = some 115 := by decide +kernel
  have start : (Qstring.literal "qh3server-start-").head? = some 113 := by decide +kernel
  rw [List.head?_append, List.head?_append, shut, start, Option.some_or, Option.some_or] at heads
  exact absurd heads (by decide)

theorem shutdownCmdCenter_lists (lists : Lists router addresses)
    (ok : router.shutdownCmdCenter = .ok router') :
    Lists router' addresses := by
  simp only [shutdownCmdCenter] at ok
  split at ok
  · split at ok
    · cases ok
    · cases Except.ok.inj ok
      exact ⟨lists.1.perm rfl rfl (.refl _), lists.2⟩
  · cases Except.ok.inj ok
    exact lists

theorem perm_lists (lists : Lists router addresses) (heap : router'.heap = router.heap)
    (allocated : router'.allocated = router.allocated)
    (perm : router'.entries.Perm router.entries) :
    Lists router' addresses :=
  ⟨lists.1.perm heap allocated perm, fun address =>
    (holds_perm heap perm address).trans (lists.2 address)⟩

theorem heap_activate (router : Qh3router) (ptr : Nat) :
    (router.activate ptr).heap = router.heap := by
  simp only [activate]
  split <;> rfl

theorem activate_lists (lists : Lists router addresses) (inside : ptr ∈ router.entries) :
    Lists (router.activate ptr) addresses := by
  have allocated : (router.activate ptr).allocated = router.allocated := by
    simp only [activate]
    split <;> rfl
  exact perm_lists lists (router.heap_activate ptr) allocated (lists.1.activate inside)

theorem forget_lists (lists : Lists router addresses) (active : ptr ∈ router.routes)
    (found : router.heap ptr = some route) :
    Lists (router.forget ptr) fun address => addresses address ∧ address ≠ route.address := by
  have inside : ptr ∈ router.entries := List.mem_append_left _ active
  have entries := lists.1.forget_entries active
  refine ⟨lists.1.destroyed rfl rfl entries, fun address => ?_⟩
  rw [holds_destroyed lists.1 inside found rfl entries, lists.2]

theorem refreshed_lists (lists : Lists router addresses) (found : router.heap ptr = some route)
    (now : Rat) :
    Lists { router with
      heap := Function.update router.heap ptr (some { route with lastHbReceivedTime := now }) }
      addresses := by
  let router' : Qh3router :=
    { router with
      heap := Function.update router.heap ptr (some { route with lastHbReceivedTime := now }) }
  have heap : router'.heap = Function.update router.heap ptr (some { route with
    lastHbReceivedTime := now }) := rfl
  obtain ⟨listed, held⟩ := lists.1.refreshed found heap rfl rfl
  exact ⟨listed, fun address => (held address).trans (lists.2 address)⟩

theorem routeFeedback_lists {announced : List Address} (lists : Lists router (· ∈ announced))
    (active : ptr ∈ router.routes) (found : router.heap ptr = some route)
    (same : route.address = (host, port))
    (ok : router.routeFeedback now ptr port cmd = .ok router') :
    Lists router' (· ∈ if isCommand cmd "shut-ack-" port then announced.filter (· ≠ (host, port))
      else announced) := by
  by_cases acknowledges : isCommand cmd "shut-ack-" port = true
  · rw [routeFeedback_acknowledged active acknowledges] at ok
    have forgotten := shutdownCmdCenter_lists (forget_lists lists active found) ok
    simpa only [if_pos acknowledges, List.mem_filter, decide_eq_true_eq, same] using forgotten
  · simp only [routeFeedback, if_neg acknowledges] at ok ⊢
    split at ok
    · simp only [refreshHbTimestamp, deref_eq found, bind, Except.bind] at ok
      obtain rfl := Except.ok.inj ok
      exact refreshed_lists lists found now
    · cases Except.ok.inj ok
      exact lists

theorem unlistedFeedback_lists {announced : List Address} (lists : Lists router (· ∈ announced))
    (absent : ¬ router.Holds router.entries (host, port)) (cleanHost : Qstring.Clean host)
    (cleanPort : Qstring.Clean port)
    (ok : router.unlistedFeedback now host port cmd = .ok router') :
    Lists router' (· ∈ if isCommand cmd "shut-ack-" port then announced.filter (· ≠ (host, port))
      else if isCommand cmd "qh3server-start-" port ∧
        (router.commandRoute.any fun center => hasAddress center host port) = false then
          announced ++ [(host, port)]
      else announced) := by
  have unknown : (host, port) ∉ announced := fun known => absent ((lists.2 _).mpr known)
  have untouched : announced.filter (· ≠ (host, port)) = announced := filter_absent unknown
  simp only [unlistedFeedback] at ok
  cases center : router.commandRoute with
  | none =>
    simp only [center] at ok
    cases ok
  | some route =>
    simp only [center, untouched, Option.any_some] at ok ⊢
    by_cases commandServer : hasAddress route host port = true
    · have announces : ¬ (isCommand cmd "qh3server-start-" port = true ∧
          hasAddress route host port = false) := by
        rw [commandServer]
        simp only [Bool.true_eq_false, and_false, not_false_eq_true]
      rw [if_pos commandServer] at ok
      simp only [if_neg announces, ite_self]
      split at ok
      · split at ok
        · cases ok
        · obtain rfl := Except.ok.inj ok
          exact perm_lists lists rfl rfl (.refl _)
      · split at ok
        · obtain rfl := Except.ok.inj ok
          exact perm_lists lists rfl rfl (.refl _)
        · obtain rfl := Except.ok.inj ok
          exact lists
    · have other : hasAddress route host port = false := Bool.eq_false_iff.mpr commandServer
      rw [if_neg commandServer] at ok
      by_cases starts : isCommand cmd "qh3server-start-" port = true
      · have stays : ¬ isCommand cmd "shut-ack-" port = true := by
          intro acknowledges
          rw [not_both acknowledges] at starts
          cases starts
        rw [if_pos starts] at ok
        simp only [if_neg stays, starts, other, and_self, if_true]
        obtain rfl := Except.ok.inj ok
        obtain ⟨listed, held⟩ :=
          @createQh3serverRoute_listed router host port now lists.1 cleanHost cleanPort absent
        refine ⟨listed, fun address => ?_⟩
        rw [held, lists.2]
        simp only [List.mem_append, List.mem_singleton]
      · rw [if_neg starts] at ok
        simp only [starts, Bool.false_eq_true, false_and, if_false, ite_self]
        obtain rfl := Except.ok.inj ok
        exact lists

/-- Feedback is for the route that has the address of its sender, or there is none. -/
theorem cmdFeedbackFromClient_cases (listed : Listed router)
    (ok : router.cmdFeedbackFromClient now clientAddr cmd = .ok router') :
    (getnameinfo clientAddr = none ∧ router' = router) ∨
    ∃ host port, getnameinfo clientAddr = some (host, port) ∧
      ((∃ ptr ∈ router.entries, ∃ route, router.heap ptr = some route ∧ route.address = (host, port) ∧
          (router.activate ptr).routeFeedback now ptr port cmd = .ok router') ∨
        (¬ router.Holds router.entries (host, port) ∧
          router.unlistedFeedback now host port cmd = .ok router')) := by
  simp only [cmdFeedbackFromClient] at ok
  cases named : getnameinfo clientAddr with
  | none =>
    simp only [named] at ok
    exact .inl ⟨rfl, (Except.ok.inj ok).symm⟩
  | some pair =>
    obtain ⟨host, port⟩ := pair
    obtain ⟨cleanHost, cleanPort⟩ := getnameinfo_clean named
    simp only [named] at ok
    refine .inr ⟨host, port, rfl, ?_⟩
    rcases locate_spec listed cleanHost cleanPort with
      ⟨ptr, inside, route, found, same, located⟩ | ⟨absent, located⟩
    · simp only [located, bind, Except.bind] at ok
      exact .inl ⟨ptr, inside, route, found, same, ok⟩
    · simp only [located, bind, Except.bind] at ok
      exact .inr ⟨absent, ok⟩

/-- Feedback keeps the lists in order, and in step with who is announced. -/
theorem cmdFeedbackFromClient_lists {announced : List Address}
    (lists : Lists router (· ∈ announced))
    (ok : router.cmdFeedbackFromClient now clientAddr cmd = .ok router') :
    Lists router' (· ∈ router.announce announced clientAddr cmd) := by
  simp only [announce]
  rcases cmdFeedbackFromClient_cases lists.1 ok with
    ⟨unnamed, rfl⟩ | ⟨host, port, named, known | unknown⟩
  · simp only [unnamed]
    exact lists
  · obtain ⟨ptr, inside, route, found, same, ok⟩ := known
    have known : (host, port) ∈ announced := (lists.2 _).mp ⟨ptr, inside, route, found, same⟩
    simp only [named, known, not_true_eq_false, and_false, if_false]
    exact routeFeedback_lists (activate_lists lists inside) (mem_routes_activate ptr)
      ((congrFun (router.heap_activate ptr) ptr).trans found) same ok
  · obtain ⟨absent, ok⟩ := unknown
    have unknown : (host, port) ∉ announced := fun known => absent ((lists.2 _).mpr known)
    obtain ⟨cleanHost, cleanPort⟩ := getnameinfo_clean named
    simp only [named, unknown, not_false_eq_true, and_true]
    exact unlistedFeedback_lists lists absent cleanHost cleanPort ok

/-- Among the entries, the expired ones are found. -/
theorem expired_spec (now timeout : Rat) {list : List Nat}
    (live : ∀ ptr ∈ list, ∃ route, router.heap ptr = some route) :
    ∃ old, router.expired now timeout list = .ok old ∧ old.Sublist list := by
  induction list with
  | nil => exact ⟨[], rfl, .refl _⟩
  | cons ptr rest ih =>
    obtain ⟨route, found⟩ := live ptr List.mem_cons_self
    obtain ⟨old, ok, sub⟩ := ih fun ptr inside => live ptr (List.mem_cons_of_mem _ inside)
    refine ⟨if now - route.lastHbReceivedTime < timeout then old else ptr :: old, ?_, ?_⟩
    · simp only [expired, deref_eq found, ok, bind, Except.bind]
    · split
      · exact sub.cons _
      · exact sub.cons_cons _

/-- An active entry goes to the end of the unresponsive ones. -/
def deactivate (router : Qh3router) (ptr : Nat) : Qh3router :=
  { router with
    routes := router.routes.filter (· ≠ ptr)
    unresponsiveRoutes := router.unresponsiveRoutes ++ [ptr] }

theorem Listed.deactivate (listed : Listed router) (active : ptr ∈ router.routes) :
    (router.deactivate ptr).entries.Perm router.entries := by
  have moved := perm_moved active listed.routes_nodup
  simp only [entries, Qh3router.deactivate, ← List.append_assoc]
  refine (List.perm_append_singleton ptr _).trans ?_
  rw [← List.cons_append]
  exact moved.append_right _

theorem moveExpired_cons (listed : Listed router) (active : ptr ∈ router.routes) (rest : List Nat) :
    router.moveExpired (ptr :: rest) = (router.deactivate ptr).moveExpired rest := by
  have inactive := listed.apart active
  simp only [moveExpired, removeFromActiveRoutes_eq, active, decide_true, if_true,
    pushToUnresponsiveRoutes, if_neg inactive]
  rfl

/-- An unresponsive entry's route is destroyed. -/
def remove (router : Qh3router) (ptr : Nat) : Qh3router :=
  { router with
    unresponsiveRoutes := router.unresponsiveRoutes.filter (· ≠ ptr)
    heap := Function.update router.heap ptr none }

theorem Listed.remove_entries (listed : Listed router)
    (unresponsive : ptr ∈ router.unresponsiveRoutes) :
    (router.remove ptr).entries = router.entries.filter (· ≠ ptr) := by
  have inactive : ptr ∉ router.routes := fun active => listed.apart active unresponsive
  simp only [entries, remove, List.filter_append, filter_absent inactive]

theorem destroyExpired_cons (unresponsive : ptr ∈ router.unresponsiveRoutes) (rest : List Nat) :
    router.destroyExpired (ptr :: rest) = (router.remove ptr).destroyExpired rest := by
  simp only [destroyExpired, removeFromUnresponsiveRoutes_eq, unresponsive, decide_true, if_true]
  rfl

/-- Routes may be destroyed, and the entries are those whose routes are left. -/
structure Shrinks (before after : Qh3router) : Prop where
  listed : Listed after
  heap : ∀ ptr, after.heap ptr = before.heap ptr ∨ after.heap ptr = none
  entries : ∀ ptr, ptr ∈ after.entries ↔ ptr ∈ before.entries ∧ after.heap ptr ≠ none

theorem Listed.shrinks_perm (listed : Listed router) (heap : router'.heap = router.heap)
    (allocated : router'.allocated = router.allocated)
    (perm : router'.entries.Perm router.entries) :
    Shrinks router router' where
  listed := listed.perm heap allocated perm
  heap ptr := .inl (by rw [heap])
  entries ptr := by
    rw [perm.mem_iff, heap]
    constructor
    · intro inside
      obtain ⟨route, found⟩ := listed.live ptr inside
      exact ⟨inside, by rw [found]; exact Option.some_ne_none route⟩
    · exact And.left

theorem Shrinks.trans (first : Shrinks router middle) (second : Shrinks middle router') :
    Shrinks router router' where
  listed := second.listed
  heap ptr := by
    rcases second.heap ptr with same | gone
    · rw [same]
      exact first.heap ptr
    · exact .inr gone
  entries ptr := by
    rw [second.entries, first.entries, and_assoc]
    refine and_congr_right fun _ => ?_
    constructor
    · exact And.right
    · intro left
      refine ⟨?_, left⟩
      rcases second.heap ptr with same | gone
      · rwa [← same]
      · exact absurd gone left

theorem Listed.shrinks_remove (listed : Listed router)
    (unresponsive : ptr ∈ router.unresponsiveRoutes) :
    Shrinks router (router.remove ptr) where
  listed := listed.destroyed rfl rfl (listed.remove_entries unresponsive)
  heap other := by
    by_cases same : other = ptr
    · exact .inr (by simp only [remove, same, Function.update_self])
    · exact .inl (by simp only [remove, Function.update_of_ne same])
  entries other := by
    rw [listed.remove_entries unresponsive, List.mem_filter, decide_eq_true_eq]
    refine and_congr_right fun inside => ?_
    by_cases same : other = ptr
    · simp only [remove, same, Function.update_self, ne_eq, not_true_eq_false]
    · obtain ⟨route, found⟩ := listed.live other inside
      simp only [remove, Function.update_of_ne same, found, ne_eq, same, not_false_eq_true,
        reduceCtorEq]

theorem moveExpired_shrinks (listed : Listed router) (active : ∀ ptr ∈ old, ptr ∈ router.routes)
    (nodup : old.Nodup) :
    Shrinks router (router.moveExpired old) := by
  induction old generalizing router with
  | nil => exact listed.shrinks_perm rfl rfl (.refl _)
  | cons ptr rest ih =>
    obtain ⟨absent, nodup⟩ := List.nodup_cons.mp nodup
    have here := active ptr List.mem_cons_self
    rw [moveExpired_cons listed here]
    have moved : Shrinks router (router.deactivate ptr) :=
      listed.shrinks_perm rfl rfl (listed.deactivate here)
    refine moved.trans (ih moved.listed ?_ nodup)
    intro other inside
    refine List.mem_filter.mpr ⟨active other (List.mem_cons_of_mem _ inside), decide_eq_true ?_⟩
    rintro rfl
    exact absent inside

theorem destroyExpired_shrinks (listed : Listed router)
    (unresponsive : ∀ ptr ∈ old, ptr ∈ router.unresponsiveRoutes) (nodup : old.Nodup) :
    Shrinks router (router.destroyExpired old) := by
  induction old generalizing router with
  | nil => exact listed.shrinks_perm rfl rfl (.refl _)
  | cons ptr rest ih =>
    obtain ⟨absent, nodup⟩ := List.nodup_cons.mp nodup
    have here := unresponsive ptr List.mem_cons_self
    rw [destroyExpired_cons here]
    have removed := listed.shrinks_remove here
    refine removed.trans (ih removed.listed ?_ nodup)
    intro other inside
    refine List.mem_filter.mpr ⟨unresponsive other (List.mem_cons_of_mem _ inside),
      decide_eq_true ?_⟩
    rintro rfl
    exact absent inside

/-- The timer's callback never reads a destroyed route. -/
theorem check_shrinks (listed : Listed router) (destroyRoutes : Bool) (now : Rat) (timeout : Int) :
    ∃ router', router.checkAndRemoveUnresponsiveRoutes destroyRoutes now timeout = .ok router' ∧
      Shrinks router router' := by
  have live : ∀ ptr ∈ router.routes, ∃ route, router.heap ptr = some route :=
    fun ptr inside => listed.live ptr (List.mem_append_left _ inside)
  obtain ⟨old, ok, sub⟩ := expired_spec now timeout live
  have moved := moveExpired_shrinks listed sub.subset (sub.nodup listed.routes_nodup)
  cases destroyRoutes with
  | false =>
    refine ⟨router.moveExpired old, ?_, moved⟩
    simp only [checkAndRemoveUnresponsiveRoutes, ok, Bool.false_eq_true, if_false, bind,
      Except.bind]
  | true =>
    have live' : ∀ ptr ∈ (router.moveExpired old).unresponsiveRoutes,
      ∃ route, (router.moveExpired old).heap ptr = some route :=
      fun ptr inside => moved.listed.live ptr (List.mem_append_right _ inside)
    obtain ⟨old', ok', sub'⟩ := expired_spec now (timeout * 2) live'
    have destroyed :=
      destroyExpired_shrinks moved.listed sub'.subset (sub'.nodup moved.listed.unresponsive_nodup)
    refine ⟨(router.moveExpired old).destroyExpired old', ?_, moved.trans destroyed⟩
    simp only [checkAndRemoveUnresponsiveRoutes, ok, ok', if_true, bind, Except.bind]

/-- The entry at the address has been destroyed between the two states. -/
def destroyedAt (before after : Qh3router) (address : Address) : Bool :=
  before.entries.any fun ptr => (before.heap ptr).any (·.address = address) &&
    (after.heap ptr).isNone

theorem Shrinks.lists (shrinks : Shrinks router router') (lists : Lists router addresses) :
    Lists router' fun address => addresses address ∧
      destroyedAt router router' address = false := by
  refine ⟨shrinks.listed, fun address => ?_⟩
  simp only [← lists.2]
  have destroyed : destroyedAt router router' address = true ↔ ∃ ptr ∈ router.entries, ∃ route,
      router.heap ptr = some route ∧ route.address = address ∧ router'.heap ptr = none := by
    simp only [destroyedAt, List.any_eq_true, Bool.and_eq_true, Option.any_eq_true,
      decide_eq_true_eq, Option.isNone_iff_eq_none]
    refine exists_congr fun ptr => and_congr_right fun _ => ?_
    constructor
    · rintro ⟨⟨route, found, same⟩, gone⟩
      exact ⟨route, found, same, gone⟩
    · rintro ⟨route, found, same, gone⟩
      exact ⟨⟨route, found, same⟩, gone⟩
  rw [← Bool.not_eq_true, destroyed]
  constructor
  · rintro ⟨ptr, inside, route, found, same⟩
    obtain ⟨before, left⟩ := (shrinks.entries ptr).mp inside
    have foundBefore : router.heap ptr = some route := by
      rcases shrinks.heap ptr with stayed | gone
      · rw [← stayed]
        exact found
      · exact absurd gone left
    refine ⟨⟨ptr, before, route, foundBefore, same⟩, ?_⟩
    rintro ⟨other, inside', route', found', same', gone⟩
    cases lists.1.unique ptr before other inside' route route' foundBefore found' (same.trans same'.symm)
    exact left gone
  · rintro ⟨⟨ptr, inside, route, found, same⟩, kept⟩
    have left : router'.heap ptr ≠ none := fun gone => kept ⟨ptr, inside, route, found, same, gone⟩
    refine ⟨ptr, (shrinks.entries ptr).mpr ⟨inside, left⟩, route, ?_, same⟩
    rcases shrinks.heap ptr with stayed | gone
    · rw [stayed]
      exact found
    · exact absurd gone left

end Qh3router
end Gearsdk
