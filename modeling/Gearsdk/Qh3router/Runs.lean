import Gearsdk.Qh3router.Routes

/-! The router and the command server over whole runs: feedback, the timer, packets
of clients and requests to the command server, in any order. -/
namespace Gearsdk
namespace Qh3router

/-- The command server's thread. -/
structure CommandServer where
  broken : Bool := false
  /-- The requests that go through the router to a server. -/
  shutdownTests : Nat := 0

/-- The endpoints that end servers. -/
def CommandServer.parse (server : CommandServer) (path : Qstring) : CommandServer :=
  if path.length ≤ 1 then server
  else
    let server :=
      if Qstring.compare path (Qstring.literal "/shutdown_test") = 0 then
        { server with shutdownTests := server.shutdownTests + 1 }
      else server
    if Qstring.compare path (Qstring.literal "/shutdown_cmd_center") = 0 then
      { server with broken := true }
    else server

structure Site where
  spawning : Spawning
  commandPort : Qstring
  skipDefaultQh3serverSpawn : Bool := false
  destroyRoutes : Bool := false

structure State where
  router : Qh3router
  commandServer : CommandServer := {}
  /-- The callback for feedback goes on until there is no datagram left. -/
  inCallback : Bool := false
  /-- Who has announced itself, has not acknowledged its shutdown since and has not
  been destroyed by the timer. -/
  announced : List Address
  /-- The packets that have been forwarded, by client and route. -/
  forwarded : List (Sockaddr × Nat) := []

inductive Event where
  | feedback (now : Rat) (clientAddr : Sockaddr) (datagram : Qstring)
  | wouldBlock
  | timer (now : Rat) (timeout : Int)
  | packet (clientAddr : Sockaddr)
  | request (path : Qstring)

/-- The loop runs one callback at a time, and starts none once it is broken. -/
def enabled (s : State) : Event → Prop
  | .feedback _ _ _ => s.inCallback = true ∨ s.router.broken = false
  | .wouldBlock => s.inCallback = true
  | .timer _ _ | .packet _ => s.inCallback = false ∧ s.router.broken = false
  | .request _ => s.commandServer.broken = false

instance (s : State) : ∀ event, Decidable (enabled s event)
  | .feedback _ _ _ => inferInstanceAs (Decidable (s.inCallback = true ∨ s.router.broken = false))
  | .wouldBlock => inferInstanceAs (Decidable (s.inCallback = true))
  | .timer _ _ | .packet _ =>
    inferInstanceAs (Decidable (s.inCallback = false ∧ s.router.broken = false))
  | .request _ => inferInstanceAs (Decidable (s.commandServer.broken = false))

def next (site : Site) (s : State) : Event → Except Fault State
  | .feedback now clientAddr datagram => do
      let router ← s.router.cmdFeedbackFromClient now clientAddr (Qstring.cString datagram)
      let announced := s.router.announce s.announced clientAddr (Qstring.cString datagram)
      .ok { s with router, announced, inCallback := true }
  | .wouldBlock => .ok { s with inCallback := false }
  | .timer now timeout => do
      let router ← s.router.checkAndRemoveUnresponsiveRoutes site.destroyRoutes now timeout
      let announced := s.announced.filter fun address => !destroyedAt s.router router address
      .ok { s with router, announced }
  | .packet clientAddr =>
      let forwarded := (routeOf s.router.routes clientAddr).map fun route => (clientAddr, route)
      .ok { s with forwarded := s.forwarded ++ forwarded.toList }
  | .request path => .ok { s with commandServer := s.commandServer.parse path }

def init (site : Site) : State :=
  let router := start site.spawning site.commandPort site.skipDefaultQh3serverSpawn
  { router, announced := router.entries.filterMap fun ptr => (router.heap ptr).map Route.address }

def machine (site : Site) : Transition.Machine State Event Fault where
  init := init site
  enabled := enabled
  next := next site

instance (site : Site) (s : State) (event : Event) : Decidable ((machine site).enabled s event) :=
  inferInstanceAs (Decidable (enabled s event))

/-- The router lists exactly those who are announced. -/
def InStep (s : State) : Prop := Lists s.router (· ∈ s.announced)

theorem nextAvailablePort_spec
    (found : nextAvailablePort available left index = (some port, index')) :
    minVal + index ≤ port ∧ port < minVal + index' := by
  induction left generalizing index with
  | zero => cases found
  | succ left ih =>
    simp only [nextAvailablePort] at found
    split at found
    · cases found
      omega
    · obtain ⟨low, high⟩ := ih found
      exact ⟨by omega, high⟩

theorem unsigned_injective (same : Qstring.unsigned n = Qstring.unsigned m) : n = m := by
  have first := Strtol.accumulate_unsigned n
  rw [same, Strtol.accumulate_unsigned] at first
  exact (congrArg Prod.fst first).symm

theorem createQh3serverRoute_cString (router : Qh3router) (now : Rat) (host port : Qstring) :
    router.createQh3serverRoute now host port =
      router.createQh3serverRoute now (Qstring.cString host) port := by
  simp only [createQh3serverRoute, Qstring.cString_of_nul_free (Qstring.cString_clean host)]

/-- Every route that has been created has a port below the next one. -/
theorem spawnServers_listed (env : Spawning) (listed : Listed router)
    (below : ∀ ptr ∈ router.entries, ∀ route, router.heap ptr = some route →
      ∃ port, port < minVal + index ∧ route.port = Qstring.unsigned port) :
    Listed (spawnServers env tries spawned index router) := by
  induction tries generalizing spawned index router with
  | zero => exact listed
  | succ tries ih =>
    simp only [spawnServers]
    split
    · cases chosen : nextAvailablePort env.available (maxVal - (minVal + index)) index with
      | mk port index' =>
        cases port with
        | none => exact listed
        | some port =>
          obtain ⟨low, high⟩ := nextAvailablePort_spec chosen
          simp only
          split
          · have cleanPort := Qstring.clean_of_digits (Qstring.unsigned_digits port)
            have absent : ¬ router.Holds router.entries
                (Qstring.cString env.host, Qstring.unsigned port) := by
              rintro ⟨ptr, inside, route, found, same⟩
              obtain ⟨earlier, bound, text⟩ := below ptr inside route found
              have samePort := unsigned_injective (text.symm.trans (congrArg Prod.snd same))
              omega
            rw [createQh3serverRoute_cString]
            obtain ⟨listed', _⟩ :=
              @createQh3serverRoute_listed router (Qstring.cString env.host) (Qstring.unsigned port)
              env.now listed (Qstring.cString_clean _) cleanPort absent
            refine ih listed' ?_
            intro ptr inside route found
            rcases (mem_entries_create ptr).mp inside with before | rfl
            · simp only [createQh3serverRoute,
                Function.update_of_ne (listed.allocated_absent ptr before)] at found
              obtain ⟨earlier, bound, text⟩ := below ptr before route found
              exact ⟨earlier, by omega, text⟩
            · simp only [createQh3serverRoute, Function.update_self, Option.some.injEq] at found
              subst found
              exact ⟨port, high, Qstring.cString_of_nul_free cleanPort⟩
          · refine ih listed ?_
            intro ptr inside route found
            obtain ⟨earlier, bound, text⟩ := below ptr inside route found
            exact ⟨earlier, by omega, text⟩
    · exact listed

theorem start_listed (env : Spawning) (commandPort : Qstring) (skip : Bool) :
    Listed (start env commandPort skip) := by
  have empty : Listed (start env commandPort true) := by
    constructor
    · exact List.nodup_nil
    · intro ptr inside
      cases inside
    · intro ptr route found
      cases found
    · intro ptr _
      rfl
    · intro p inside
      cases inside
  cases skip with
  | true => exact empty
  | false =>
    refine spawnServers_listed env empty ?_
    intro ptr inside
    cases inside

theorem init_inStep (site : Site) : InStep (init site) := by
  refine ⟨start_listed _ _ _, fun address => ?_⟩
  simp only [init, List.mem_filterMap, Option.map_eq_some_iff, Holds]

section Steps
variable {site : Site}

/-- What a step does to the router and to those it should list. -/
theorem step_cases (step : (machine site).Step s event t) :
    (∃ now clientAddr datagram,
      s.router.cmdFeedbackFromClient now clientAddr (Qstring.cString datagram) = .ok t.router ∧
        t.announced = s.router.announce s.announced clientAddr (Qstring.cString datagram)) ∨
    (∃ now timeout, s.router.checkAndRemoveUnresponsiveRoutes site.destroyRoutes now timeout =
    .ok t.router ∧
        t.announced = s.announced.filter fun address => !destroyedAt s.router t.router address) ∨
    (t.router = s.router ∧ t.announced = s.announced) := by
  have ok : next site s event = .ok t := step.2
  cases event with
  | feedback now clientAddr datagram =>
    cases result : s.router.cmdFeedbackFromClient now clientAddr (Qstring.cString datagram) with
    | error fault =>
      simp only [next, result, bind, Except.bind] at ok
      cases ok
    | ok router =>
      simp only [next, result, bind, Except.bind] at ok
      cases Except.ok.inj ok
      exact .inl ⟨now, clientAddr, datagram, result, rfl⟩
  | timer now timeout =>
    cases result : s.router.checkAndRemoveUnresponsiveRoutes site.destroyRoutes now timeout with
    | error fault =>
      simp only [next, result, bind, Except.bind] at ok
      cases ok
    | ok router =>
      simp only [next, result, bind, Except.bind] at ok
      cases Except.ok.inj ok
      exact .inr (.inl ⟨now, timeout, result, rfl⟩)
  | wouldBlock =>
    cases Except.ok.inj ok
    exact .inr (.inr ⟨rfl, rfl⟩)
  | packet clientAddr =>
    cases Except.ok.inj ok
    exact .inr (.inr ⟨rfl, rfl⟩)
  | request path =>
    cases Except.ok.inj ok
    exact .inr (.inr ⟨rfl, rfl⟩)

theorem step_inStep (lists : InStep s) (step : (machine site).Step s event t) : InStep t := by
  rcases step_cases step with ⟨now, clientAddr, datagram, ok, announced⟩ | ⟨now, timeout, ok,
    announced⟩ | ⟨router, announced⟩
  · rw [InStep, announced]
    exact cmdFeedbackFromClient_lists lists ok
  · obtain ⟨router, checked, shrinks⟩ := check_shrinks lists.1 site.destroyRoutes now timeout
    obtain rfl := Except.ok.inj (checked.symm.trans ok)
    have left := shrinks.lists lists
    simpa only [InStep, announced, List.mem_filter, Bool.not_eq_true'] using left
  · rw [InStep, router, announced]
    exact lists

theorem run_inStep (run : (machine site).Run es s) : InStep s :=
  run.invariant step_inStep (init_inStep site)

end Steps

/-- No entry is listed twice, no two entries are at one address, and whoever has
announced itself is in exactly one list until it takes leave or is destroyed. -/
theorem routes_listed_once (site : Site) : ∀ {es s}, (machine site).Run es s →
    s.router.routes.Nodup ∧ s.router.unresponsiveRoutes.Nodup ∧
    (∀ ptr ∈ s.router.routes, ptr ∉ s.router.unresponsiveRoutes) ∧
    (∀ p ∈ s.router.entries, ∀ q ∈ s.router.entries, ∀ r r', s.router.heap p = some r →
    s.router.heap q = some r' →
      r.address = r'.address → p = q) ∧
    ∀ address ∈ s.announced,
      (s.router.Holds s.router.routes address ∧ ¬ s.router.Holds s.router.unresponsiveRoutes address) ∨
      (s.router.Holds s.router.unresponsiveRoutes address ∧
        ¬ s.router.Holds s.router.routes address) := by
  intro es s run
  obtain ⟨listed, held⟩ := run_inStep run
  refine ⟨listed.routes_nodup, listed.unresponsive_nodup, fun ptr => listed.apart,
    listed.unique, ?_⟩
  intro address known
  have notBoth : ¬ (s.router.Holds s.router.routes address ∧
      s.router.Holds s.router.unresponsiveRoutes address) := by
    rintro ⟨⟨p, pIn, r, foundP, sameP⟩, ⟨q, qIn, r', foundQ, sameQ⟩⟩
    have same := listed.unique p (List.mem_append_left _ pIn) q
      (List.mem_append_right _ qIn) r r' foundP foundQ
      (sameP.trans sameQ.symm)
    exact listed.apart pIn (same ▸ qIn)
  obtain ⟨ptr, inside, route, found, same⟩ := (held address).mpr known
  rcases List.mem_append.mp inside with first | second
  · have here : s.router.Holds s.router.routes address := ⟨ptr, first, route, found, same⟩
    exact .inl ⟨here, fun there => notBoth ⟨here, there⟩⟩
  · have there : s.router.Holds s.router.unresponsiveRoutes address :=
      ⟨ptr, second, route, found, same⟩
    exact .inr ⟨there, fun here => notBoth ⟨here, there⟩⟩

namespace Sample

/-- Nothing but the command server, at 10.0.0.1:4003. -/
def site : Site where
  spawning := ⟨Qstring.literal "10.0.0.1", 0, fun _ => true, fun _ => true⟩
  commandPort := Qstring.literal "4003"
  skipDefaultQh3serverSpawn := true

def server (port : UInt16) : SockaddrIn := ⟨port, ⟨10, 0, 0, 2⟩⟩

def reports (now : Rat) (server : SockaddrIn) (name : String) : Event :=
  .feedback now server.bytes (Qstring.literal name ++ Qstring.unsigned server.sinPort.toNat)

end Sample

/-- A server that has been silent for too long reports again. -/
def Sample.silence : List Event :=
  [reports 0 (server 6000) "qh3server-start-", reports 1 (server 6001) "qh3server-start-",
    .wouldBlock, .timer 10 10, reports 11 (server 6000) "hb-"]

theorem revived_listed_once :
    let address := ((Sample.server 6000).sinAddr.dottedQuad, Qstring.unsigned 6000)
    ∃ s, (machine Sample.site).Run Sample.silence s ∧ s.router.routes = [1, 0] ∧
      address ∈ s.announced ∧
      s.router.Holds s.router.routes address ∧
        ¬ s.router.Holds s.router.unresponsiveRoutes address := by
  intro address
  have shown : ((machine Sample.site).exec (init Sample.site) Sample.silence).map
      (fun s => (s.router.routes, s.router.unresponsiveRoutes, decide (address ∈ s.announced))) =
        some ([1, 0], [], true) := by decide +kernel
  obtain ⟨s, run, same⟩ := Transition.Machine.exec_observe shown
  simp only [Prod.mk.injEq, decide_eq_true_eq] at same
  obtain ⟨routes, unresponsive, known⟩ := same
  obtain ⟨_, _, _, _, once⟩ := routes_listed_once Sample.site run
  refine ⟨s, run, routes, known, ?_⟩
  rcases once address known with active | ⟨⟨ptr, inside, _⟩, _⟩
  · exact active
  · rw [unresponsive] at inside
    cases inside

end Qh3router
end Gearsdk
