import Gearsdk.Qh3router.Runs
import Mathlib.Data.List.Basic

/-! To which route the packets of one client go, while the list of active routes
changes. -/
namespace Gearsdk
namespace Qh3router

/-- Entries that stay keep their order, and new ones come behind them. -/
def Reordered (before after : List Nat) : Prop :=
  ∃ (kept : Nat → Bool) (added : List Nat), after = before.filter kept ++ added ∧
    ∀ route ∈ added, route ∉ before

theorem Reordered.filter (list : List Nat) (kept : Nat → Bool) :
    Reordered list (list.filter kept) :=
  ⟨kept, [], (List.append_nil _).symm, fun _ inside => by cases inside⟩

theorem Reordered.refl (list : List Nat) : Reordered list list :=
  ⟨fun _ => true, [], (List.append_nil _).trans (List.filter_eq_self.mpr fun _ _ => rfl) |>.symm,
    fun _ inside => by cases inside⟩

theorem Reordered.push (absent : route ∉ list) : Reordered list (list ++ [route]) := by
  refine ⟨fun _ => true, [route], by rw [List.filter_eq_self.mpr fun _ _ => rfl], ?_⟩
  intro other inside
  rwa [List.mem_singleton.mp inside]

theorem Reordered.thenFilter (reordered : Reordered before middle) (kept : Nat → Bool) :
    Reordered before (middle.filter kept) := by
  obtain ⟨first, added, rfl, new⟩ := reordered
  refine ⟨fun route => kept route && first route, added.filter kept, ?_, ?_⟩
  · rw [List.filter_append, List.filter_filter]
  · exact fun route inside => new route (List.mem_filter.mp inside).1

theorem idxOf_filter_le (kept : Nat → Bool) (stays : kept route = true) (list : List Nat) :
    (list.filter kept).idxOf route ≤ list.idxOf route := by
  induction list with
  | nil => exact Nat.le_refl _
  | cons other rest ih =>
    by_cases same : other = route
    · subst other
      rw [List.filter_cons_of_pos stays, List.idxOf_cons_self, List.idxOf_cons_self]
    · rw [List.idxOf_cons_ne _ same]
      by_cases otherKept : kept other = true
      · rw [List.filter_cons_of_pos otherKept, List.idxOf_cons_ne _ same]
        exact Nat.succ_le_succ ih
      · rw [List.filter_cons_of_neg otherKept]
        exact Nat.le_succ_of_le ih

/-- An entry that stays does not move back. -/
theorem Reordered.idxOf_le (reordered : Reordered before after) (was : route ∈ before)
    (is : route ∈ after) :
    after.idxOf route ≤ before.idxOf route := by
  obtain ⟨kept, added, rfl, new⟩ := reordered
  have inside : route ∈ before.filter kept := by
    rcases List.mem_append.mp is with inside | late
    · exact inside
    · exact absurd was (new route late)
  rw [List.idxOf_append_of_mem inside]
  exact idxOf_filter_le kept (List.mem_filter.mp inside).2 before

variable {router : Qh3router}

theorem shutdownCmdCenter_routes (ok : router.shutdownCmdCenter = .ok router') :
    router'.routes = router.routes := by
  simp only [shutdownCmdCenter] at ok
  split at ok
  · split at ok
    · cases ok
    · cases Except.ok.inj ok
      rfl
  · cases Except.ok.inj ok
    rfl

theorem activate_reordered (router : Qh3router) (ptr : Nat) :
    Reordered router.routes (router.activate ptr).routes := by
  by_cases active : ptr ∈ router.routes
  · rw [activate, if_pos active]
    exact .refl _
  · rw [activate, if_neg active]
    exact .push active

theorem routeFeedback_reordered (active : ptr ∈ router.routes)
    (live : ∃ route, router.heap ptr = some route) (reordered : Reordered list router.routes)
    (ok : router.routeFeedback now ptr port cmd = .ok router') :
    Reordered list router'.routes := by
  by_cases acknowledges : isCommand cmd "shut-ack-" port = true
  · rw [routeFeedback_acknowledged active acknowledges] at ok
    rw [shutdownCmdCenter_routes ok]
    exact reordered.thenFilter _
  · obtain ⟨route, found⟩ := live
    simp only [routeFeedback, if_neg acknowledges, refreshHbTimestamp, deref_eq found, bind,
      Except.bind] at ok
    split at ok
    · cases Except.ok.inj ok
      exact reordered
    · cases Except.ok.inj ok
      exact reordered

theorem unlistedFeedback_reordered (listed : Listed router)
    (ok : router.unlistedFeedback now host port cmd = .ok router') :
    Reordered router.routes router'.routes := by
  simp only [unlistedFeedback] at ok
  split at ok
  · cases ok
  · split at ok
    · split at ok
      · split at ok
        · cases ok
        · cases Except.ok.inj ok
          exact .refl _
      · split at ok <;> cases Except.ok.inj ok <;> exact .refl _
    · split at ok
      · cases Except.ok.inj ok
        refine .push ?_
        intro inside
        exact listed.allocated_absent _ (List.mem_append_left _ inside) rfl
      · cases Except.ok.inj ok
        exact .refl _

theorem cmdFeedbackFromClient_reordered (listed : Listed router)
    (ok : router.cmdFeedbackFromClient now clientAddr cmd = .ok router') :
    Reordered router.routes router'.routes := by
  rcases cmdFeedbackFromClient_cases listed ok with ⟨_, rfl⟩ | ⟨host, port, _, known | unknown⟩
  · exact .refl _
  · obtain ⟨ptr, _, route, found, _, ok⟩ := known
    exact routeFeedback_reordered (mem_routes_activate ptr) ⟨route,
      (congrFun (router.heap_activate ptr) ptr).trans found⟩
      (router.activate_reordered ptr) ok
  · exact unlistedFeedback_reordered listed unknown.2

theorem moveExpired_reordered (reordered : Reordered list router.routes) (old : List Nat) :
    Reordered list (router.moveExpired old).routes := by
  induction old generalizing router with
  | nil => exact reordered
  | cons ptr rest ih =>
    simp only [moveExpired, removeFromActiveRoutes_eq]
    refine ih ?_
    split
    · simp only [pushToUnresponsiveRoutes]
      split <;> exact reordered.thenFilter _
    · exact reordered.thenFilter _

theorem destroyExpired_routes (router : Qh3router) (old : List Nat) :
    (router.destroyExpired old).routes = router.routes := by
  induction old generalizing router with
  | nil => rfl
  | cons ptr rest ih =>
    simp only [destroyExpired, removeFromUnresponsiveRoutes_eq]
    rw [ih]
    split <;> rfl

theorem check_reordered (listed : Listed router)
    (ok : router.checkAndRemoveUnresponsiveRoutes destroyRoutes now timeout = .ok router') :
    Reordered router.routes router'.routes := by
  have live : ∀ ptr ∈ router.routes, ∃ route, router.heap ptr = some route :=
    fun ptr inside => listed.live ptr (List.mem_append_left _ inside)
  obtain ⟨old, expired, _⟩ := expired_spec now timeout live
  have moved := moveExpired_reordered (.refl router.routes) old
  simp only [checkAndRemoveUnresponsiveRoutes, expired, bind, Except.bind] at ok
  split at ok
  · split at ok
    · cases ok
    · cases Except.ok.inj ok
      rwa [destroyExpired_routes]
  · cases Except.ok.inj ok
    exact moved

section Runs
variable {site : Site}

theorem step_reordered (inStep : InStep s) (step : (machine site).Step s event t) :
    Reordered s.router.routes t.router.routes := by
  rcases step_cases step with
    ⟨now, clientAddr, datagram, ok, _⟩ | ⟨now, timeout, ok, _⟩ | ⟨router, _⟩
  · exact cmdFeedbackFromClient_reordered inStep.1 ok
  · exact check_reordered inStep.1 ok
  · rw [router]
    exact .refl _

/-- The route is active from the first state of the path to its last. -/
def StaysActive (site : Site) (s : State) (events : List Event) (route : Nat) : Prop :=
  ∀ fs t, fs <+: events → (machine site).Reaches s fs t → route ∈ t.router.routes

theorem path_position (inStep : InStep s) (path : (machine site).Reaches s events t)
    (active : StaysActive site s events route) :
    InStep t ∧ t.router.routes.idxOf route ≤ s.router.routes.idxOf route := by
  induction path with
  | refl => exact ⟨inStep, Nat.le_refl _⟩
  | @step fs t event u before last ih =>
    have earlier : StaysActive site s fs route :=
      fun gs v inside path => active gs v (inside.trans (List.prefix_append fs [event])) path
    obtain ⟨middle, position⟩ := ih earlier
    have was := active fs t (List.prefix_append fs [event]) before
    have is := active (fs ++ [event]) u (List.prefix_refl _) (before.step last)
    exact ⟨step_inStep middle last, ((step_reordered middle last).idxOf_le was is).trans position⟩

end Runs

/-- A packet of the client that arrives now is forwarded to the route. -/
def ForwardsTo (site : Site) (s : State) (client : Sockaddr) (route : Nat) : Prop :=
  next site s (.packet client) = .ok { s with forwarded := s.forwarded ++ [(client, route)] }

theorem forwardsTo_iff_routeOf :
    ForwardsTo site s client route ↔ routeOf s.router.routes client = some route := by
  simp only [ForwardsTo, next, Except.ok.injEq]
  cases chosen : routeOf s.router.routes client with
  | none =>
    simp only [Option.map_none, Option.toList_none, List.append_nil, reduceCtorEq, iff_false]
    intro same
    have lengths := congrArg (fun s : State => s.forwarded.length) same
    simp only [List.length_append, List.length_singleton] at lengths
    omega
  | some other =>
    simp only [Option.map_some, Option.toList_some, Option.some.injEq]
    constructor
    · intro same
      have lists := congrArg State.forwarded same
      exact congrArg Prod.snd (List.singleton_inj.mp (List.append_cancel_left lists))
    · rintro rfl
      rfl

theorem routeOf_iff {routes : List Nat} (nodup : routes.Nodup) (active : route ∈ routes) :
    routeOf routes client = some route ↔
      Crc32.checksum client % routes.length = routes.idxOf route := by
  rw [routeOf, List.getElem?_eq_some_iff]
  constructor
  · rintro ⟨inside, rfl⟩
    exact (nodup.idxOf_getElem _ inside).symm
  · intro position
    have inside := List.idxOf_lt_length_of_mem active
    refine ⟨position ▸ inside, ?_⟩
    simp only [position]
    exact List.getElem_idxOf inside

/-- While a route stays active, it does not move back in the list, and a client whose
packets went to it is forwarded to it again exactly when the checksum of the
client's address still gives its position. -/
theorem further_packets_by_position (site : Site) :
    ∀ {es s fs t client route}, (machine site).Run es s → (machine site).Reaches s fs t →
      ForwardsTo site s client route → StaysActive site s fs route →
      t.router.routes.idxOf route ≤ s.router.routes.idxOf route ∧
      (ForwardsTo site t client route ↔
        Crc32.checksum client % t.router.routes.length = t.router.routes.idxOf route) ∧
      (t.router.routes.length = s.router.routes.length →
        t.router.routes.idxOf route = s.router.routes.idxOf route →
          ForwardsTo site t client route) := by
  intro es s fs t client route run path first active
  obtain ⟨inStep, position⟩ := path_position (run_inStep run) path active
  have nodup (u : State) (inStep : InStep u) : u.router.routes.Nodup := inStep.1.routes_nodup
  have was := active [] s List.nil_prefix (.refl s)
  have is := active fs t (List.prefix_refl fs) path
  have before := (routeOf_iff (nodup s (run_inStep run)) was).mp (forwardsTo_iff_routeOf.mp first)
  have after : ForwardsTo site t client route ↔
      Crc32.checksum client % t.router.routes.length = t.router.routes.idxOf route :=
    forwardsTo_iff_routeOf.trans (routeOf_iff (nodup t inStep) is)
  refine ⟨position, after, fun sameLength samePosition => after.mpr ?_⟩
  rw [sameLength, samePosition]
  exact before

namespace Sample

def arrival : List Event := [reports 0 (server 6000) "qh3server-start-", .wouldBlock]

/-- Another server comes and goes. -/
def visit : List Event :=
  [.packet (server 9).bytes, reports 1 (server 6001) "qh3server-start-",
    reports 2 (server 6001) "shut-ack-", .wouldBlock]

def serving : State := ((machine site).exec (init site) arrival).getD (init site)

end Sample

theorem forwarded_after_visit :
    ∃ t, (machine Sample.site).Run Sample.arrival Sample.serving ∧
      (machine Sample.site).Reaches Sample.serving Sample.visit t ∧
      ForwardsTo Sample.site t (Sample.server 9).bytes 0 := by
  have begun : ((machine Sample.site).exec (init Sample.site) Sample.arrival).isSome = true := by
    decide +kernel
  have run : (machine Sample.site).Run Sample.arrival Sample.serving := by
    obtain ⟨s, executed⟩ := Option.isSome_iff_exists.mp begun
    rw [Sample.serving, executed]
    exact Transition.Machine.exec_reaches executed
  have shown : ((machine Sample.site).exec Sample.serving Sample.visit).map (fun t =>
      t.router.routes) = some [0] := by
    decide +kernel
  obtain ⟨t, path, routes⟩ := Transition.Machine.exec_observe shown
  have first : ForwardsTo Sample.site Sample.serving (Sample.server 9).bytes 0 := by
    rw [forwardsTo_iff_routeOf]
    decide +kernel
  let listed (s : State) : Bool := decide (0 ∈ s.router.routes)
  have passed : (machine Sample.site).checks (fun s _ => listed s) Sample.serving
      (Sample.visit ++ [.wouldBlock]) = true := by
    decide +kernel
  have active : StaysActive Sample.site Sample.serving Sample.visit 0 := by
    intro fs u inside path
    have here : listed u = true := Transition.Machine.along_of_checks passed inside path
    exact of_decide_eq_true here
  have before : Sample.serving.router.routes = [0] := by decide +kernel
  obtain ⟨_, _, again⟩ := further_packets_by_position Sample.site run path first active
  exact ⟨t, run, path, again (by rw [routes, before]) (by rw [routes, before])⟩

/-- Its packets go to route 0, and then, with another route beside it, to route 1. -/
theorem affinity_lost :
    let events := [Sample.reports 0 (Sample.server 6000) "qh3server-start-", .wouldBlock,
      .packet (Sample.server 9).bytes,
      Sample.reports 1 (Sample.server 6001) "qh3server-start-", .wouldBlock,
        .packet (Sample.server 9).bytes]
    ∃ s, (machine Sample.site).Run events s ∧ s.router.routes = [0, 1] ∧
      s.forwarded = [((Sample.server 9).bytes, 0), ((Sample.server 9).bytes, 1)] := by
  intro events
  have shown : ((machine Sample.site).exec (init Sample.site) events).map
      (fun s => (s.router.routes, s.forwarded)) =
        some ([0, 1], [((Sample.server 9).bytes, 0), ((Sample.server 9).bytes, 1)]) := by
    decide +kernel
  obtain ⟨s, run, same⟩ := Transition.Machine.exec_observe shown
  exact ⟨s, run, Prod.mk.inj same⟩

end Qh3router
end Gearsdk
