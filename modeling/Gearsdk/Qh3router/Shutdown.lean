import Gearsdk.Qh3router.Runs

/-! Which orders of shutdowns the router survives. -/
namespace Gearsdk
namespace Qh3router

def Site.commandAddress (site : Site) : Address :=
  (Qstring.cString site.spawning.host, Qstring.cString site.commandPort)

/-- The router knows the command server at its address until it is told to end. -/
structure Commanded (site : Site) (router : Qh3router) : Prop where
  address : ∀ center, router.commandRoute = some center → center.address = site.commandAddress
  present : router.commandRoute = none ↔ router.broken = true

/-- What may come from an address, given the lists and whether the router has been
told to end. -/
def Tolerates (site : Site) (router : Qh3router) (address : Address) (cmd : Qstring) : Prop :=
  let acknowledges := isCommand cmd "shut-ack-" address.2 = true
  (router.Holds router.entries address → acknowledges → router.entries.length = 1 →
    router.broken = false) ∧
  (¬ router.Holds router.entries address →
    router.broken = false ∧ (address = site.commandAddress → acknowledges → router.routes = []))

/-- Only feedback can end badly. -/
def Survives (site : Site) (s : State) : Event → Prop
  | .feedback _ clientAddr datagram =>
      ∀ address, getnameinfo clientAddr = some address →
        Tolerates site s.router address (Qstring.cString datagram)
  | _ => True

section Steps
variable {site : Site} {router : Qh3router}

theorem Commanded.same (commanded : Commanded site router)
    (commandRoute : router'.commandRoute = router.commandRoute)
    (broken : router'.broken = router.broken) : Commanded site router' where
  address := by
    rw [commandRoute]
    exact commanded.address
  present := by
    rw [commandRoute, broken]
    exact commanded.present

theorem shutdownCmdCenter_ok : (∃ router', router.shutdownCmdCenter = .ok router') ↔
    (router.entries = [] → router.commandRoute ≠ none) := by
  simp only [shutdownCmdCenter, entries, List.append_eq_nil_iff]
  split
  · rename_i empty
    cases router.commandRoute with
    | none =>
      simp only [reduceCtorEq, exists_false, empty, and_self, ne_eq, not_true_eq_false, imp_false]
    | some center =>
      simp only [Except.ok.injEq, exists_eq', ne_eq, reduceCtorEq, not_false_eq_true, implies_true]
  · rename_i left
    simp only [Except.ok.injEq, exists_eq', left, false_imp_iff]

theorem shutdownCmdCenter_same (ok : router.shutdownCmdCenter = .ok router') :
    router'.commandRoute = router.commandRoute ∧ router'.broken = router.broken := by
  simp only [shutdownCmdCenter] at ok
  split at ok
  · split at ok
    · cases ok
    · cases Except.ok.inj ok
      exact ⟨rfl, rfl⟩
  · cases Except.ok.inj ok
    exact ⟨rfl, rfl⟩

theorem activate_same (router : Qh3router) (ptr : Nat) :
    (router.activate ptr).commandRoute = router.commandRoute ∧
      (router.activate ptr).broken = router.broken := by
  simp only [activate]
  split <;> exact ⟨rfl, rfl⟩

/-- One entry is left without the one that goes if and only if there was one. -/
theorem filter_eq_nil_iff {list : List Nat} (nodup : list.Nodup) (inside : ptr ∈ list) :
    list.filter (· ≠ ptr) = [] ↔ list.length = 1 := by
  have length := (perm_moved inside nodup).length_eq
  rw [List.length_cons] at length
  rw [← List.length_eq_zero_iff]
  omega

/-- A listed route's feedback fails only if it asks for a command server that is
gone. -/
theorem routeFeedback_ok (commanded : Commanded site router) (listed : Listed router)
    (active : ptr ∈ router.routes) (live : router.heap ptr = some route) :
    (∃ router', router.routeFeedback now ptr port cmd = .ok router') ↔
      (isCommand cmd "shut-ack-" port = true → router.entries.length = 1 →
        router.broken = false) := by
  have inside : ptr ∈ router.entries := List.mem_append_left _ active
  by_cases acknowledges : isCommand cmd "shut-ack-" port = true
  · rw [routeFeedback_acknowledged active acknowledges, shutdownCmdCenter_ok,
      listed.forget_entries active, filter_eq_nil_iff listed.nodup inside]
    have same : (router.forget ptr).commandRoute = router.commandRoute := rfl
    rw [same, ne_eq, commanded.present, Bool.not_eq_true]
    simp only [acknowledges, true_imp_iff]
  · simp only [acknowledges, Bool.false_eq_true, false_imp_iff, iff_true]
    simp only [routeFeedback, if_neg acknowledges, refreshHbTimestamp, deref_eq live, bind,
      Except.bind]
    split <;> exact ⟨_, rfl⟩

theorem unlistedFeedback_ok (commanded : Commanded site router) (cleanHost : Qstring.Clean host)
    (cleanPort : Qstring.Clean port) :
    (∃ router', router.unlistedFeedback now host port cmd = .ok router') ↔
      router.broken = false ∧
        ((host, port) = site.commandAddress → isCommand cmd "shut-ack-" port = true →
          router.routes = []) := by
  cases found : router.commandRoute with
  | none =>
    have broken := commanded.present.mp found
    simp only [unlistedFeedback, found, reduceCtorEq, exists_false, broken, Bool.true_eq_false,
      false_and]
  | some center =>
    have broken : router.broken = false := by
      apply Bool.eq_false_iff.mpr
      intro broken
      rw [commanded.present.mpr broken] at found
      cases found
    have address := commanded.address center found
    have clean : Qstring.Clean center.host ∧ Qstring.Clean center.port := by
      obtain ⟨host, port⟩ := Prod.mk.inj address
      rw [host, port]
      exact ⟨Qstring.cString_clean _, Qstring.cString_clean _⟩
    have here : hasAddress center host port = true ↔ (host, port) = site.commandAddress := by
      rw [hasAddress_iff clean cleanHost cleanPort, address]
      exact eq_comm
    simp only [unlistedFeedback, found, broken, true_and, ← here]
    by_cases commandServer : hasAddress center host port = true
    · rw [if_pos commandServer]
      by_cases acknowledges : isCommand cmd "shut-ack-" port = true
      · rw [if_pos acknowledges]
        by_cases none : router.routes = []
        · rw [if_neg (not_not.mpr none)]
          exact ⟨fun _ _ _ => none, fun _ => ⟨_, rfl⟩⟩
        · rw [if_pos none]
          simp only [reduceCtorEq, exists_false, commandServer, acknowledges, true_imp_iff, none]
      · rw [if_neg acknowledges]
        simp only [acknowledges, Bool.false_eq_true, false_imp_iff, implies_true, iff_true]
        split <;> exact ⟨_, rfl⟩
    · simp only [commandServer, Bool.false_eq_true, false_imp_iff, iff_true, if_false]
      split <;> exact ⟨_, rfl⟩

theorem cmdFeedbackFromClient_ok (commanded : Commanded site router) (listed : Listed router)
    (named : getnameinfo clientAddr = some (host, port)) :
    (∃ router', router.cmdFeedbackFromClient now clientAddr cmd = .ok router') ↔
      Tolerates site router (host, port) cmd := by
  obtain ⟨cleanHost, cleanPort⟩ := getnameinfo_clean named
  simp only [cmdFeedbackFromClient, named, Tolerates]
  rcases locate_spec listed cleanHost cleanPort with
    ⟨ptr, inside, route, found, same, located⟩ | ⟨absent, located⟩
  · have here : router.Holds router.entries (host, port) := ⟨ptr, inside, route, found, same⟩
    obtain ⟨commandRoute, broken⟩ := router.activate_same ptr
    have perm := listed.activate inside
    have ok := @routeFeedback_ok site (router.activate ptr) ptr route now port cmd
      (commanded.same commandRoute broken)
      (activate_lists ⟨listed, fun _ => .rfl⟩ inside).1 (mem_routes_activate ptr)
      ((congrFun (router.heap_activate ptr) ptr).trans found)
    rw [perm.length_eq, broken] at ok
    simp only [located, here, not_true_eq_false, false_imp_iff, and_true, true_imp_iff, bind,
      Except.bind]
    exact ok
  · simp only [located, absent, not_false_eq_true, false_imp_iff, true_and, true_imp_iff, bind,
      Except.bind]
    exact unlistedFeedback_ok commanded cleanHost cleanPort

theorem routeFeedback_same (active : ptr ∈ router.routes) (live : router.heap ptr = some route)
    (ok : router.routeFeedback now ptr port cmd = .ok router') :
    router'.commandRoute = router.commandRoute ∧ router'.broken = router.broken := by
  by_cases acknowledges : isCommand cmd "shut-ack-" port = true
  · rw [routeFeedback_acknowledged active acknowledges] at ok
    have same : (router.forget ptr).commandRoute = router.commandRoute ∧
      (router.forget ptr).broken = router.broken :=
      ⟨rfl, rfl⟩
    obtain ⟨commandRoute, broken⟩ := shutdownCmdCenter_same ok
    exact ⟨commandRoute.trans same.1, broken.trans same.2⟩
  · simp only [routeFeedback, if_neg acknowledges, refreshHbTimestamp, deref_eq live, bind,
      Except.bind] at ok
    split at ok <;> cases Except.ok.inj ok <;> exact ⟨rfl, rfl⟩

theorem unlistedFeedback_commanded (commanded : Commanded site router)
    (ok : router.unlistedFeedback now host port cmd = .ok router') : Commanded site router' := by
  simp only [unlistedFeedback] at ok
  cases found : router.commandRoute with
  | none =>
    simp only [found] at ok
    cases ok
  | some center =>
    simp only [found] at ok
    split at ok
    · split at ok
      · split at ok
        · cases ok
        · cases Except.ok.inj ok
          refine ⟨?_, iff_of_true rfl rfl⟩
          rintro _ ⟨⟩
      · split at ok
        · cases Except.ok.inj ok
          have address := commanded.address center found
          have present := commanded.present
          rw [found] at present
          constructor
          · rintro _ ⟨⟩
            exact address
          · simpa only [reduceCtorEq, false_iff] using present
        · cases Except.ok.inj ok
          exact commanded
    · split at ok <;> cases Except.ok.inj ok <;> exact commanded.same rfl rfl

theorem cmdFeedbackFromClient_commanded (commanded : Commanded site router) (listed : Listed router)
    (ok : router.cmdFeedbackFromClient now clientAddr cmd = .ok router') :
    Commanded site router' := by
  rcases cmdFeedbackFromClient_cases listed ok with ⟨_, rfl⟩ | ⟨host, port, _, known | unknown⟩
  · exact commanded
  · obtain ⟨ptr, _, route, found, _, ok⟩ := known
    obtain ⟨commandRoute, broken⟩ := router.activate_same ptr
    obtain ⟨commandRoute', broken'⟩ := routeFeedback_same (mem_routes_activate ptr)
      ((congrFun (router.heap_activate ptr) ptr).trans found) ok
    exact commanded.same (commandRoute'.trans commandRoute) (broken'.trans broken)
  · exact unlistedFeedback_commanded commanded unknown.2

theorem pushToUnresponsiveRoutes_same (router : Qh3router) (ptr : Nat) :
    (router.pushToUnresponsiveRoutes ptr).commandRoute = router.commandRoute ∧
      (router.pushToUnresponsiveRoutes ptr).broken = router.broken := by
  simp only [pushToUnresponsiveRoutes]
  split <;> exact ⟨rfl, rfl⟩

theorem moveExpired_same (router : Qh3router) (old : List Nat) :
    (router.moveExpired old).commandRoute = router.commandRoute ∧
      (router.moveExpired old).broken = router.broken := by
  induction old generalizing router with
  | nil => exact ⟨rfl, rfl⟩
  | cons ptr rest ih =>
    simp only [moveExpired]
    obtain ⟨commandRoute, broken⟩ :=
      (router.removeFromActiveRoutes ptr).1.pushToUnresponsiveRoutes_same ptr
    constructor
    · refine (ih _).1.trans ?_
      split
      · exact commandRoute
      · rfl
    · refine (ih _).2.trans ?_
      split
      · exact broken
      · rfl

theorem destroyExpired_same (router : Qh3router) (old : List Nat) :
    (router.destroyExpired old).commandRoute = router.commandRoute ∧
      (router.destroyExpired old).broken = router.broken := by
  induction old generalizing router with
  | nil => exact ⟨rfl, rfl⟩
  | cons ptr rest ih =>
    simp only [destroyExpired]
    constructor
    · refine (ih _).1.trans ?_
      split <;> rfl
    · refine (ih _).2.trans ?_
      split <;> rfl

theorem check_commanded (commanded : Commanded site router) (listed : Listed router)
    (ok : router.checkAndRemoveUnresponsiveRoutes destroyRoutes now timeout = .ok router') :
    Commanded site router' := by
  have live : ∀ ptr ∈ router.routes, ∃ route, router.heap ptr = some route :=
    fun ptr inside => listed.live ptr (List.mem_append_left _ inside)
  obtain ⟨old, expired, _⟩ := expired_spec now timeout live
  obtain ⟨commandRoute, broken⟩ := router.moveExpired_same old
  have moved := commanded.same commandRoute broken
  simp only [checkAndRemoveUnresponsiveRoutes, expired, bind, Except.bind] at ok
  split at ok
  · split at ok
    · cases ok
    · cases Except.ok.inj ok
      obtain ⟨commandRoute, broken⟩ := (router.moveExpired old).destroyExpired_same _
      exact moved.same commandRoute broken
  · cases Except.ok.inj ok
    exact moved

theorem step_commanded (inStep : InStep s) (commanded : Commanded site s.router)
    (step : (machine site).Step s event t) :
    Commanded site t.router := by
  rcases step_cases step with
    ⟨now, clientAddr, datagram, ok, _⟩ | ⟨now, timeout, ok, _⟩ | ⟨router, _⟩
  · exact cmdFeedbackFromClient_commanded commanded inStep.1 ok
  · exact check_commanded commanded inStep.1 ok
  · rw [router]
    exact commanded

theorem spawnServers_same (env : Spawning) (tries spawned index : Nat) (router : Qh3router) :
    (spawnServers env tries spawned index router).commandRoute = router.commandRoute ∧
      (spawnServers env tries spawned index router).broken = router.broken := by
  induction tries generalizing spawned index router with
  | zero => exact ⟨rfl, rfl⟩
  | succ tries ih =>
    simp only [spawnServers]
    split
    · split
      · exact ⟨rfl, rfl⟩
      · split
        · exact ih _ _ _
        · exact ih _ _ _
    · exact ⟨rfl, rfl⟩

theorem init_commanded (site : Site) : Commanded site (init site).router := by
  have empty : Commanded site (start site.spawning site.commandPort true) := by
    constructor
    · rintro _ ⟨⟩
      rfl
    · exact iff_of_false (fun none => by cases none) (fun broken => by cases broken)
  simp only [init]
  cases site.skipDefaultQh3serverSpawn with
  | true => exact empty
  | false =>
    obtain ⟨commandRoute, broken⟩ :=
      spawnServers_same site.spawning 1000 0 0 (start site.spawning site.commandPort true)
    exact empty.same commandRoute broken

/-- The lists are in order, and so is the route of the command server. -/
def Ordered (site : Site) (s : State) : Prop := InStep s ∧ Commanded site s.router

theorem run_ordered (run : (machine site).Run es s) : Ordered site s := by
  refine run.invariant ?_ ⟨init_inStep site, init_commanded site⟩
  rintro s e t ⟨inStep, commanded⟩ step
  exact ⟨step_inStep inStep step, step_commanded inStep commanded step⟩

/-- A step ends badly exactly when its event is one the router does not survive. -/
theorem step_survives (run : (machine site).Run es s) :
    (∃ t, next site s event = .ok t) ↔ Survives site s event := by
  obtain ⟨inStep, commanded⟩ := run_ordered run
  cases event with
  | feedback now clientAddr datagram =>
    have lift : (∃ t, next site s (.feedback now clientAddr datagram) = .ok t) ↔
        ∃ router, s.router.cmdFeedbackFromClient now clientAddr (Qstring.cString datagram) =
          .ok router := by
      simp only [next, bind, Except.bind]
      cases s.router.cmdFeedbackFromClient now clientAddr (Qstring.cString datagram) with
      | error fault => simp only [reduceCtorEq, exists_false]
      | ok router => simp only [Except.ok.injEq, exists_eq']
    rw [lift]
    cases named : getnameinfo clientAddr with
    | none =>
      simp only [cmdFeedbackFromClient, named, Except.ok.injEq, exists_eq', Survives, reduceCtorEq,
        false_imp_iff, implies_true]
    | some address =>
      simp only [Survives, named, Option.some.injEq, forall_eq']
      exact cmdFeedbackFromClient_ok commanded inStep.1 named
  | timer now timeout =>
    obtain ⟨router, checked, _⟩ := check_shrinks inStep.1 site.destroyRoutes now timeout
    simp only [next, checked, Except.ok.injEq, exists_eq', Survives, bind, Except.bind]
  | wouldBlock => exact iff_of_true ⟨_, rfl⟩ trivial
  | packet clientAddr => exact iff_of_true ⟨_, rfl⟩ trivial
  | request path => exact iff_of_true ⟨_, rfl⟩ trivial

end Steps

/-- A run reads no missing command route and fails no assertion exactly as long as
each of its events is one that the router survives. -/
theorem shutdown_safe_iff (site : Site) : ∀ {es outcome}, (machine site).faulting.Run es outcome →
    ((machine site).faulting.Always (fun outcome => ∃ s, outcome = .ok s) es ↔
      (machine site).faulting.Meets (fun outcome event => ∀ s, outcome = .ok s →
        Survives site s event) es) := by
  intro es outcome run
  exact Transition.Machine.no_fault_iff (fun before _ => step_survives before) run

namespace Sample

def commandServer : SockaddrIn := ⟨4003, ⟨10, 0, 0, 1⟩⟩

def shutdownCmdCenter : Event := .request (Qstring.literal "/shutdown_cmd_center")

/-- The only route takes its leave, and then the command server. -/
def orderly : List Event :=
  [reports 0 (server 6000) "qh3server-start-", .wouldBlock, reports 5 (server 6000) "shut-ack-",
    .wouldBlock, shutdownCmdCenter, reports 6 commandServer "shut-ack-", .wouldBlock]

/-- The command server is shut down while a route is active. -/
def early : List Event :=
  [reports 0 (server 6000) "qh3server-start-", .wouldBlock, shutdownCmdCenter]

/-- The command server has acknowledged, and the callback goes on. -/
def late : List Event := [shutdownCmdCenter, reports 6 commandServer "shut-ack-"]

end Sample

theorem orderly_survives :
    ∃ s, (machine Sample.site).Run Sample.orderly s ∧ s.router.commandRoute = none ∧
      (machine Sample.site).faulting.Meets (fun outcome event => ∀ s, outcome = .ok s →
      Survives Sample.site s event)
      Sample.orderly := by
  have shown : ((machine Sample.site).exec (init Sample.site) Sample.orderly).map
      (fun s => s.router.commandRoute.isNone) = some true := by decide +kernel
  obtain ⟨s, run, gone⟩ := Transition.Machine.exec_observe shown
  have safe := Transition.Machine.Run.no_fault run
  have meets := (shutdown_safe_iff Sample.site (Transition.Machine.Run.faulting run)).mp safe
  exact ⟨s, run, Option.isNone_iff_eq_none.mp gone, meets⟩

def faultOf : Except Fault State → Option Fault
  | .error fault => some fault
  | .ok _ => none

theorem eq_error_of_faultOf (faults : faultOf outcome = some fault) : outcome = .error fault := by
  cases outcome with
  | error other => rw [Option.some.inj faults]
  | ok => cases faults

/-- The acknowledgement of the command server fails the assertion while a route is
active, and any datagram from an unlisted address right behind it reads the
missing command route. -/
theorem shutdown_unsafe :
    (∃ s, (machine Sample.site).Run Sample.early s ∧ s.commandServer.broken = true ∧
      enabled s (Sample.reports 6 Sample.commandServer "shut-ack-") ∧
      next Sample.site s (Sample.reports 6 Sample.commandServer "shut-ack-") =
        .error .routesNotEmpty) ∧
    ∃ s, (machine Sample.site).Run Sample.late s ∧
      enabled s (Sample.reports 6 (Sample.server 6000) "qh3server-start-") ∧
      next Sample.site s (Sample.reports 6 (Sample.server 6000) "qh3server-start-") =
        .error .nullCommandRoute := by
  have early : ((machine Sample.site).exec (init Sample.site) Sample.early).map
      (fun s => (s.commandServer.broken,
        decide (enabled s (Sample.reports 6 Sample.commandServer "shut-ack-")),
        faultOf (next Sample.site s (Sample.reports 6 Sample.commandServer "shut-ack-")))) =
      some (true, true, some .routesNotEmpty) := by decide +kernel
  have late : ((machine Sample.site).exec (init Sample.site) Sample.late).map
      (fun s => (decide (enabled s (Sample.reports 6 (Sample.server 6000) "qh3server-start-")),
        faultOf (next Sample.site s (Sample.reports 6 (Sample.server 6000) "qh3server-start-")))) =
      some (true, some .nullCommandRoute) := by decide +kernel
  obtain ⟨s, run, same⟩ := Transition.Machine.exec_observe early
  obtain ⟨t, run', same'⟩ := Transition.Machine.exec_observe late
  simp only [Prod.mk.injEq, decide_eq_true_eq] at same same'
  exact ⟨⟨s, run, same.1, same.2.1, eq_error_of_faultOf same.2.2⟩, t, run', same'.1,
    eq_error_of_faultOf same'.2⟩

end Qh3router
end Gearsdk
