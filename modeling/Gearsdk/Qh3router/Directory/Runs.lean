import Gearsdk.Qh3router.Directory

/-! Whole runs of the router with the hash: the functions that tell Redis something
do to the router what they do without it, and every field is accounted for. -/
namespace Gearsdk.Qh3router.Directory
open Transition

variable {router router' : Qh3router} {commands : List HashCommand} {ptr : Nat} {route : Route}
variable {field value host port cmd : Qstring} {now : Rat}

/-! ### Feedback -/

theorem removeFromActiveRoutes_eq (ptr : Nat) :
    removeFromActiveRoutes router ptr =
      ({ router with routes := router.routes.filter (· ≠ ptr) }, decide (ptr ∈ router.routes),
        if ptr ∈ router.routes then deletion router ptr else []) := by
  rw [removeFromActiveRoutes, Qh3router.removeFromActiveRoutes_eq]
  simp only [decide_eq_true_eq]

theorem removeFromUnresponsiveRoutes_eq (ptr : Nat) :
    removeFromUnresponsiveRoutes router ptr =
      ({ router with unresponsiveRoutes := router.unresponsiveRoutes.filter (· ≠ ptr) },
        decide (ptr ∈ router.unresponsiveRoutes),
        if ptr ∈ router.unresponsiveRoutes then deletion router ptr else []) := by
  rw [removeFromUnresponsiveRoutes, Qh3router.removeFromUnresponsiveRoutes_eq]
  simp only [decide_eq_true_eq]

/-- What is told when a route reports that is listed. -/
def activation (router : Qh3router) (ptr : Nat) : List HashCommand :=
  if ptr ∈ router.routes then [] else deletion router ptr ++ (router.heap ptr).toList.map entry

theorem activation_accounts (listed : Listed router) (inside : ptr ∈ router.entries) :
    Accounts router (activation router ptr) (router.activate ptr) := by
  obtain ⟨route, found⟩ := listed.live ptr inside
  have perm := listed.activate inside
  have heap := router.heap_activate ptr
  rw [activation]
  split
  · rename_i active
    rw [Qh3router.activate, if_pos active]
    exact .refl router
  · have deleted : Accounts router (deletion router ptr) (router.activate ptr) :=
      .deleted found fun other inside _ => ⟨perm.mem_iff.mpr inside, congrFun heap other⟩
    have entered :
        Accounts (router.activate ptr) (((router.activate ptr).heap ptr).toList.map entry)
          (router.activate ptr) :=
      .entered (perm.mem_iff.mpr inside) ((congrFun heap ptr).trans found)
    rw [heap] at entered
    exact deleted.trans entered

/-- A reporting route that is listed is active afterwards, and entered. -/
theorem locate_spec (listed : Listed router) (cleanHost : Qstring.Clean host)
    (cleanPort : Qstring.Clean port) :
    (∃ ptr ∈ router.entries, ∃ route, router.heap ptr = some route ∧ route.address = (host, port) ∧
      router.locate host port = .ok (router.activate ptr, some ptr) ∧
        locate router host port = .ok (router.activate ptr, some ptr, activation router ptr)) ∨
    (router.locate host port = .ok (router, none) ∧
      locate router host port = .ok (router, none, [])) := by
  have active := findRoute_spec listed.clean cleanHost cleanPort
    (fun ptr inside => listed.live ptr (List.mem_append_left router.unresponsiveRoutes inside))
  have unresponsive := findRoute_spec listed.clean cleanHost cleanPort
    (fun ptr inside => listed.live ptr (List.mem_append_right router.routes inside))
  rcases active with ⟨ptr, inside, route, found, same, ok⟩ | ⟨notActive, none₁⟩
  · refine .inl ⟨ptr, List.mem_append_left _ inside, route, found, same, ?_, ?_⟩
    · simp only [Qh3router.locate, isInActiveRoutes, ok, activate, if_pos inside, bind, Except.bind]
    · simp only [locate, isInActiveRoutes, ok, activate, activation, if_pos inside, bind,
        Except.bind]
  · rcases unresponsive with ⟨ptr, inside, route, found, same, ok⟩ | ⟨-, none₂⟩
    · have inactive : ptr ∉ router.routes :=
        fun active => notActive ⟨ptr, active, route, found, same⟩
      refine .inl ⟨ptr, List.mem_append_right _ inside, route, found, same, ?_, ?_⟩
      · simp only [Qh3router.locate, isInActiveRoutes, none₁, isInUnresponsiveRoutes, ok,
          Qh3router.removeFromUnresponsiveRoutes_eq, inside, decide_true, if_true,
          Qh3router.pushToRoutes, if_neg inactive, activate, bind, Except.bind]
      · simp only [locate, isInActiveRoutes, none₁, isInUnresponsiveRoutes, ok,
          removeFromUnresponsiveRoutes_eq, inside, decide_true, if_true, pushToRoutes,
          Qh3router.pushToRoutes, if_neg inactive, activate, activation, bind, Except.bind]
    · refine .inr ⟨?_, ?_⟩
      · simp only [Qh3router.locate, isInActiveRoutes, none₁, isInUnresponsiveRoutes, none₂, bind,
          Except.bind]
      · simp only [locate, isInActiveRoutes, none₁, isInUnresponsiveRoutes, none₂, bind,
          Except.bind]

/-- The router keeps its entries and their addresses. -/
theorem silent_of_same (entries : router'.entries = router.entries)
    (heap : router'.heap = router.heap) :
    Accounts router [] router' :=
  .silent fun inside found => ⟨entries ▸ inside, _, (congrFun heap _).trans found, rfl⟩

theorem shutdownCmdCenter_accounts (ok : router.shutdownCmdCenter = .ok router') :
    Accounts router [] router' := by
  simp only [shutdownCmdCenter] at ok
  split at ok
  · split at ok
    · cases ok
    · cases Except.ok.inj ok
      exact silent_of_same rfl rfl
  · cases Except.ok.inj ok
    exact .refl router

theorem refreshHbTimestamp_accounts (found : router.heap ptr = some route)
    (ok : router.refreshHbTimestamp now ptr = .ok router') :
    Accounts router [] router' := by
  simp only [refreshHbTimestamp, deref_eq found, bind, Except.bind] at ok
  cases Except.ok.inj ok
  refine .silent fun {other route'} inside found' => ⟨inside, ?_⟩
  by_cases same : other = ptr
  · subst same
    cases Option.some.inj (found.symm.trans found')
    exact ⟨_, Function.update_self .., rfl⟩
  · exact ⟨route', (Function.update_of_ne same _ _).trans found', rfl⟩

theorem unlistedFeedback_accounts (listed : Listed router)
    (ok : router.unlistedFeedback now host port cmd = .ok router') :
    Accounts router [] router' := by
  simp only [unlistedFeedback] at ok
  split at ok
  · cases ok
  · split at ok
    · -- the command server
      split at ok
      · split at ok
        · cases ok
        · cases Except.ok.inj ok
          exact silent_of_same rfl rfl
      · split at ok
        · cases Except.ok.inj ok
          exact silent_of_same rfl rfl
        · cases Except.ok.inj ok
          exact .refl router
    · split at ok
      · cases Except.ok.inj ok
        refine .silent fun {other route'} inside found => ?_
        have old := listed.allocated_absent other inside
        exact ⟨(mem_entries_create other).mpr (.inl inside), route',
          (Function.update_of_ne old _ _).trans found, rfl⟩
      · cases Except.ok.inj ok
        exact .refl router

theorem routeFeedback_accounts (active : ptr ∈ router.routes) (found : router.heap ptr = some route)
    (ok : routeFeedback router now ptr port cmd = .ok (router', commands)) :
    router.routeFeedback now ptr port cmd = .ok router' ∧ Accounts router commands router' := by
  by_cases acknowledges : isCommand cmd "shut-ack-" port = true
  · rw [routeFeedback_acknowledged active acknowledges]
    simp only [routeFeedback, if_pos acknowledges, removeFromActiveRoutes_eq, active, decide_true,
      if_true] at ok
    change (router.forget ptr).shutdownCmdCenter.map (·, deletion router ptr) = _ at ok
    cases ended : (router.forget ptr).shutdownCmdCenter with
    | error fault =>
      rw [ended] at ok
      cases ok
    | ok after =>
      rw [ended] at ok
      cases Except.ok.inj ok
      have deleted : Accounts router (deletion router ptr) (router.forget ptr) := by
        refine .deleted found fun other inside different =>
          ⟨?_, Function.update_of_ne different _ _⟩
        rcases List.mem_append.mp inside with first | second
        · exact List.mem_append_left _ (List.mem_filter.mpr ⟨first, decide_eq_true different⟩)
        · exact List.mem_append_right _ second
      have whole := deleted.trans (shutdownCmdCenter_accounts ended)
      rw [List.append_nil] at whole
      exact ⟨rfl, whole⟩
  · simp only [routeFeedback, Qh3router.routeFeedback, if_neg acknowledges] at ok ⊢
    split at ok
    · cases refreshed : router.refreshHbTimestamp now ptr with
      | error fault =>
        rw [refreshed] at ok
        cases ok
      | ok after =>
        rw [refreshed] at ok
        cases Except.ok.inj ok
        rename_i heartbeat
        exact ⟨if_pos heartbeat, refreshHbTimestamp_accounts found refreshed⟩
    · rename_i other
      cases Except.ok.inj ok
      exact ⟨if_neg other, .refl router⟩

theorem cmdFeedbackFromClient_accounts (listed : Listed router)
    (ok : cmdFeedbackFromClient router now clientAddr cmd = .ok (router', commands)) :
    router.cmdFeedbackFromClient now clientAddr cmd = .ok router' ∧
      Accounts router commands router' := by
  simp only [cmdFeedbackFromClient, Qh3router.cmdFeedbackFromClient] at ok ⊢
  cases named : getnameinfo clientAddr with
  | none =>
    simp only [named] at ok ⊢
    cases Except.ok.inj ok
    exact ⟨rfl, .refl router⟩
  | some pair =>
    obtain ⟨host, port⟩ := pair
    obtain ⟨cleanHost, cleanPort⟩ := getnameinfo_clean named
    simp only [named] at ok ⊢
    rcases locate_spec listed cleanHost cleanPort with
      ⟨ptr, inside, route, found, -, plain, told⟩ | ⟨plain, told⟩
    · simp only [plain, told, bind, Except.bind] at ok ⊢
      cases reported : routeFeedback (router.activate ptr) now ptr port cmd with
      | error fault =>
        rw [reported] at ok
        cases ok
      | ok result =>
        rw [reported] at ok
        cases Except.ok.inj ok
        have live := (congrFun (router.heap_activate ptr) ptr).trans found
        obtain ⟨same, accounts⟩ := routeFeedback_accounts (mem_routes_activate ptr) live reported
        exact ⟨same, (activation_accounts listed inside).trans accounts⟩
    · simp only [plain, told, bind, Except.bind] at ok ⊢
      cases reported : router.unlistedFeedback now host port cmd with
      | error fault =>
        rw [reported] at ok
        cases ok
      | ok after =>
        rw [reported] at ok
        cases Except.ok.inj ok
        exact ⟨rfl, unlistedFeedback_accounts listed reported⟩

/-! ### The timer -/

theorem moveExpired_accounts {old : List Nat} (listed : Listed router)
    (active : ∀ ptr ∈ old, ptr ∈ router.routes) (nodup : old.Nodup) :
    (moveExpired router old).1 = router.moveExpired old ∧
      Accounts router (moveExpired router old).2 (router.moveExpired old) := by
  induction old generalizing router with
  | nil => exact ⟨rfl, .refl router⟩
  | cons ptr rest ih =>
    obtain ⟨absent, nodup⟩ := List.nodup_cons.mp nodup
    have here := active ptr List.mem_cons_self
    have inactive := listed.apart here
    obtain ⟨route, found⟩ := listed.live ptr (List.mem_append_left _ here)
    have perm := listed.deactivate here
    have told : moveExpired router (ptr :: rest) =
        ((moveExpired (router.deactivate ptr) rest).1,
          deletion router ptr ++ (moveExpired (router.deactivate ptr) rest).2) := by
      simp only [moveExpired, removeFromActiveRoutes_eq, here, decide_true, if_true,
        pushToUnresponsiveRoutes, if_neg inactive]
      rfl
    have moved : Listed (router.deactivate ptr) := listed.perm rfl rfl perm
    have deleted : Accounts router (deletion router ptr) (router.deactivate ptr) :=
      .deleted found fun other inside _ => ⟨perm.mem_iff.mpr inside, rfl⟩
    obtain ⟨same, accounts⟩ := ih moved (fun other inside => by
      refine List.mem_filter.mpr ⟨active other (List.mem_cons_of_mem _ inside), decide_eq_true ?_⟩
      rintro rfl
      exact absent inside) nodup
    rw [moveExpired_cons listed here, told]
    exact ⟨same, deleted.trans accounts⟩

theorem destroyExpired_accounts {old : List Nat} (listed : Listed router)
    (unresponsive : ∀ ptr ∈ old, ptr ∈ router.unresponsiveRoutes) (nodup : old.Nodup) :
    (destroyExpired router old).1 = router.destroyExpired old ∧
      Accounts router (destroyExpired router old).2 (router.destroyExpired old) := by
  induction old generalizing router with
  | nil => exact ⟨rfl, .refl router⟩
  | cons ptr rest ih =>
    obtain ⟨absent, nodup⟩ := List.nodup_cons.mp nodup
    have here := unresponsive ptr List.mem_cons_self
    obtain ⟨route, found⟩ := listed.live ptr (List.mem_append_right _ here)
    have entries := listed.remove_entries here
    have told : destroyExpired router (ptr :: rest) =
        ((destroyExpired (router.remove ptr) rest).1,
          deletion router ptr ++ (destroyExpired (router.remove ptr) rest).2) := by
      simp only [destroyExpired, removeFromUnresponsiveRoutes_eq, here, decide_true, if_true]
      rfl
    have deleted : Accounts router (deletion router ptr) (router.remove ptr) :=
      .deleted found fun other inside different =>
        ⟨entries ▸ List.mem_filter.mpr ⟨inside, decide_eq_true different⟩,
          Function.update_of_ne different _ _⟩
    obtain ⟨same, accounts⟩ := ih (listed.shrinks_remove here).listed (fun other inside => by
      refine List.mem_filter.mpr ⟨unresponsive other (List.mem_cons_of_mem _ inside),
        decide_eq_true ?_⟩
      rintro rfl
      exact absent inside) nodup
    rw [destroyExpired_cons here, told]
    exact ⟨same, deleted.trans accounts⟩

theorem checkAndRemoveUnresponsiveRoutes_accounts (listed : Listed router) (destroyRoutes : Bool)
    (now : Rat) (timeout : Int)
    (ok : checkAndRemoveUnresponsiveRoutes destroyRoutes router now timeout = .ok (router', commands)) :
    router.checkAndRemoveUnresponsiveRoutes destroyRoutes now timeout = .ok router' ∧
      Accounts router commands router' := by
  have live : ∀ ptr ∈ router.routes, ∃ route, router.heap ptr = some route :=
    fun ptr inside => listed.live ptr (List.mem_append_left _ inside)
  obtain ⟨old, found, sub⟩ := expired_spec now timeout live
  have nodup := sub.nodup listed.routes_nodup
  have moved := moveExpired_shrinks listed sub.subset nodup
  obtain ⟨same, accounts⟩ := moveExpired_accounts listed sub.subset nodup
  cases destroyRoutes with
  | false =>
    simp only [checkAndRemoveUnresponsiveRoutes, Qh3router.checkAndRemoveUnresponsiveRoutes, found,
      Bool.false_eq_true, if_false, bind, Except.bind] at ok ⊢
    cases Except.ok.inj ok
    rw [same]
    exact ⟨rfl, accounts⟩
  | true =>
    have live' : ∀ ptr ∈ (router.moveExpired old).unresponsiveRoutes,
      ∃ route, (router.moveExpired old).heap ptr = some route :=
      fun ptr inside => moved.listed.live ptr (List.mem_append_right _ inside)
    obtain ⟨old', found', sub'⟩ := expired_spec now (timeout * 2) live'
    obtain ⟨same', accounts'⟩ :=
      destroyExpired_accounts moved.listed sub'.subset (sub'.nodup moved.listed.unresponsive_nodup)
    simp only [checkAndRemoveUnresponsiveRoutes, Qh3router.checkAndRemoveUnresponsiveRoutes, found,
      same, found', if_true, bind, Except.bind] at ok ⊢
    cases Except.ok.inj ok
    rw [same']
    exact ⟨rfl, accounts.trans accounts'⟩

/-- What an event makes the router tell accounts for what it does to the router. -/
theorem spoken_accounts {site : Site} {s t : Qh3router.State} {event : Qh3router.Event}
    (listed : Listed s.router) (moved : Qh3router.next site s event = .ok t)
    (told : spoken site s event = .ok commands) :
    Accounts s.router commands t.router := by
  cases event with
  | feedback now clientAddr datagram =>
    cases reported : cmdFeedbackFromClient s.router now clientAddr (Qstring.cString datagram) with
    | error fault =>
      rw [spoken, reported] at told
      cases told
    | ok result =>
      obtain ⟨router, said⟩ := result
      rw [spoken, reported] at told
      cases Except.ok.inj told
      obtain ⟨same, accounts⟩ := cmdFeedbackFromClient_accounts listed reported
      simp only [Qh3router.next, same, bind, Except.bind] at moved
      cases Except.ok.inj moved
      exact accounts
  | timer now timeout =>
    cases checked : checkAndRemoveUnresponsiveRoutes site.destroyRoutes s.router now timeout with
    | error fault =>
      rw [spoken, checked] at told
      cases told
    | ok result =>
      obtain ⟨router, said⟩ := result
      rw [spoken, checked] at told
      cases Except.ok.inj told
      obtain ⟨same, accounts⟩ := checkAndRemoveUnresponsiveRoutes_accounts listed _ _ _ checked
      simp only [Qh3router.next, same, bind, Except.bind] at moved
      cases Except.ok.inj moved
      exact accounts
  | wouldBlock | packet _ | request _ =>
    cases Except.ok.inj told
    cases Except.ok.inj moved
    exact .refl s.router

/-! ### Runs -/

/-- The field and the value are the router's own. -/
def Own (config : Config) (field value : Qstring) : Prop :=
  .setHashValue field value ∈ config.fixed ++ [config.commandCenter]

theorem mem_updateRedisAboutServers {config : Config} {command : HashCommand} :
    command ∈ updateRedisAboutServers config router ↔
      command ∈ config.fixed ++ [config.commandCenter] ∨
        ∃ ptr ∈ router.entries, ∃ route, router.heap ptr = some route ∧ entry route = command := by
  have listed : ∀ list : List Nat, command ∈ (list.flatMap fun ptr =>
    (router.heap ptr).toList.map entry) ↔
      ∃ ptr ∈ list, ∃ route, router.heap ptr = some route ∧ entry route = command := by
    intro list
    simp only [List.mem_flatMap, List.mem_map, Option.mem_toList]
  simp only [updateRedisAboutServers, entries, List.mem_append, listed]
  constructor
  · rintro (((own | ⟨ptr, active, enters⟩) | ⟨ptr, unresponsive, enters⟩) | own)
    · exact .inl (.inl own)
    · exact .inr ⟨ptr, .inl active, enters⟩
    · exact .inr ⟨ptr, .inr unresponsive, enters⟩
    · exact .inl (.inr own)
  · rintro ((own | own) | ⟨ptr, active | unresponsive, enters⟩)
    · exact .inl (.inl (.inl own))
    · exact .inr own
    · exact .inl (.inl (.inr ⟨ptr, active, enters⟩))
    · exact .inl (.inr ⟨ptr, unresponsive, enters⟩)

/-- The fields of the router itself are no fields of servers, and differ. -/
theorem own_field {config : Config} {command : HashCommand}
    (own : command ∈ config.fixed ++ [config.commandCenter]) (port : Qstring) :
    command.field ≠ serverField port := by
  have server : (serverField port).head? = some 115 := by
    have head : (Qstring.literal "server-").head? = some 115 := by decide +kernel
    rw [serverField, List.head?_append, head, Option.some_or]
  intro same
  have heads := congrArg List.head? same
  rw [server] at heads
  simp only [Config.fixed, List.cons_append, List.nil_append, List.mem_cons, List.not_mem_nil,
    or_false] at own
  have router : (Qstring.literal "router").head? = some 114 := by decide +kernel
  have back : (Qstring.literal "router-return").head? = some 114 := by decide +kernel
  have center : (Qstring.literal "command_center").head? = some 99 := by decide +kernel
  rcases own with rfl | rfl | rfl
  · exact absurd (router.symm.trans heads) (by decide)
  · exact absurd (back.symm.trans heads) (by decide)
  · exact absurd (center.symm.trans heads) (by decide)

theorem serverField_inj {port' : Qstring} (clean : Qstring.Clean port)
    (clean' : Qstring.Clean port') (same : serverField port = serverField port') :
    port = port' := by
  rw [serverField, serverField, Qstring.cString_of_nul_free clean,
    Qstring.cString_of_nul_free clean'] at same
  exact List.append_cancel_left same

theorem eq_setHashValue {command : HashCommand} (same : command.field = field)
    (written : command.value = some value) :
    command = .setHashValue field value := by
  cases command with
  | setHashValue =>
    cases same
    cases written
    rfl
  | deleteHashField => cases written

/-- Every field belongs to a listed route or to the router itself, or was written by
others and not touched by the router since. -/
structure Vouched (config : Config) (s : State) : Prop where
  inStep : InStep s.state
  vouched : ∀ {field value}, s.servers field = some value →
    Enters s.state.router field value ∨ Own config field value ∨ s.foreign field = some value

section Steps
variable {site : Site} {config : Config} {left : Fields} {s t : State}

theorem Vouched.untouched (vouched : Vouched config s)
    (other : ∀ command ∈ commands, command.field ≠ field)
    (found : (s.tell commands).servers field = some value) :
    Enters s.state.router field value ∨ Own config field value ∨
      (s.tell commands).foreign field = some value := by
  have servers : (s.tell commands).servers field = s.servers field := applyAll_of_ne other
  have foreign : (s.tell commands).foreign field = s.foreign field := releaseAll_of_ne other
  rw [foreign]
  exact vouched.vouched (servers.symm.trans found)

theorem Vouched.spoke (vouched : Vouched config s) {event : Qh3router.Event}
    (step : (machine site config left).Step s (.router event) t) :
    ∃ commands state, Accounts s.state.router commands state.router ∧
      t = { s.tell commands with state } ∧ InStep state := by
  have possible : Qh3router.enabled s.state event := step.1
  have ok : next site config s (.router event) = .ok t := step.2
  cases moved : Qh3router.next site s.state event with
  | error fault =>
    simp only [next, moved, bind, Except.bind] at ok
    cases ok
  | ok state =>
    cases told : spoken site s.state event with
    | error fault =>
      simp only [next, moved, told, bind, Except.bind] at ok
      cases ok
    | ok commands =>
      simp only [next, moved, told, bind, Except.bind] at ok
      cases Except.ok.inj ok
      have inner : (Qh3router.machine site).Step s.state event state := ⟨possible, moved⟩
      exact ⟨commands, state, spoken_accounts vouched.inStep.1 moved told, rfl,
        step_inStep vouched.inStep inner⟩

theorem Vouched.step (vouched : Vouched config s)
    (step : (machine site config left).Step s event t) : Vouched config t := by
  cases event with
  | router event =>
    obtain ⟨commands, state, accounts, rfl, inStep⟩ := vouched.spoke step
    refine ⟨inStep, fun {field value} found => ?_⟩
    by_cases about : ∃ command ∈ commands, command.field = field
    · exact .inl (accounts.told about found)
    · have other : ∀ command ∈ commands, command.field ≠ field :=
        fun command inside same => about ⟨command, inside, same⟩
      rcases vouched.untouched other found with enters | rest
      · exact .inl (accounts.enters other enters)
      · exact .inr rest
  | update =>
    cases Except.ok.inj step.2
    refine ⟨vouched.inStep, fun {field value} found => ?_⟩
    by_cases about : ∃ command ∈ updateRedisAboutServers config s.state.router,
      command.field = field
    · obtain ⟨command, inside, same, applied⟩ := @applyAll_of_mem _ s.servers _ about
      have written : command.value = some value := applied.symm.trans found
      obtain rfl := eq_setHashValue same written
      rcases mem_updateRedisAboutServers.mp inside with own | enters
      · exact .inr (.inl own)
      · exact .inl enters
    · exact vouched.untouched (fun command inside same => about ⟨command, inside, same⟩) found
  | written field value =>
    cases Except.ok.inj step.2
    refine ⟨vouched.inStep, fun {other value'} found => ?_⟩
    by_cases same : other = field
    · subst same
      refine .inr (.inr ?_)
      dsimp only at found ⊢
      rw [Function.update_self] at found ⊢
      exact found
    · dsimp only at found ⊢
      rw [Function.update_of_ne same] at found ⊢
      exact vouched.vouched found
  | lapses =>
    cases Except.ok.inj step.2
    exact ⟨vouched.inStep, fun {field value} found => absurd found (Option.some_ne_none value).symm⟩

theorem init_vouched (site : Site) (config : Config) (left : Fields) :
    Vouched config (init site config left) := by
  refine ⟨init_inStep site, fun {field value} found => ?_⟩
  by_cases about : ∃ command ∈ config.fixed, command.field = field
  · obtain ⟨command, inside, same, applied⟩ := @applyAll_of_mem _ left _ about
    have written : command.value = some value := applied.symm.trans found
    obtain rfl := eq_setHashValue same written
    exact .inr (.inl (List.mem_append_left _ inside))
  · have other : ∀ command ∈ config.fixed, command.field ≠ field :=
      fun command inside same => about ⟨command, inside, same⟩
    refine .inr (.inr ?_)
    have servers : left.applyAll config.fixed field = left field := applyAll_of_ne other
    have foreign : left.releaseAll config.fixed field = left field := releaseAll_of_ne other
    exact foreign.trans (servers.symm.trans found)

theorem vouched_of_run (run : (machine site config left).Run es s) : Vouched config s :=
  run.invariant (fun vouched step => vouched.step step) (init_vouched site config left)

end Steps

/-- Every field of the hash belongs to a listed route or to the router itself, or was
written by others and not touched by the router since. At every turn of the timer
each listed route is entered, unless a later one with the same port takes its field.
A route that leaves the lists leaves nothing behind in its field. -/
theorem directory_accounted (run : (machine site config left).Run es s) :
    (∀ field value, s.servers field = some value →
      Enters s.state.router field value ∨ Own config field value ∨ s.foreign field = some value) ∧
    (∀ t, (machine site config left).Step s .update t →
      ∀ ptr ∈ s.state.router.entries, ∀ route, s.state.router.heap ptr = some route →
        ∃ other ∈ t.state.router.entries, ∃ route', t.state.router.heap other = some route' ∧
          route'.port = route.port ∧
          t.servers (serverField route.port) = some (hostPort route'.host route'.port)) ∧
    ∀ event t, (machine site config left).Step s (.router event) t →
      ∀ ptr ∈ s.state.router.entries, ∀ route, s.state.router.heap ptr = some route →
        ptr ∉ t.state.router.entries →
        ∀ value, t.servers (serverField route.port) = some value →
          Enters t.state.router (serverField route.port) value := by
  have vouched := vouched_of_run run
  refine ⟨fun field value => vouched.vouched, fun t step ptr inside route found => ?_,
    fun event t step ptr inside route found gone value there => ?_⟩
  · cases Except.ok.inj step.2
    have listed := vouched.inStep.1
    have member : entry route ∈ updateRedisAboutServers config s.state.router :=
      mem_updateRedisAboutServers.mpr (.inr ⟨ptr, inside, route, found, rfl⟩)
    obtain ⟨command, told, same, applied⟩ := @applyAll_of_mem _ s.servers _ ⟨_, member, rfl⟩
    rcases mem_updateRedisAboutServers.mp told with own | ⟨other, inside', route', found', rfl⟩
    · exact absurd same (own_field own route.port)
    · have port := serverField_inj (listed.clean other route' found').2
        (listed.clean ptr route found).2 same
      exact ⟨other, inside', route', found', port, applied⟩
  · obtain ⟨commands, state, accounts, rfl, -⟩ := vouched.spoke step
    rcases accounts.kept inside found with stays | about
    · exact absurd stays.1 gone
    · exact accounts.told about there

namespace Sample

def config : Config := ⟨Qstring.literal "10.0.0.1", Qstring.literal "4000", 4001, 4003⟩

/-- A server enters itself, announces itself and leaves. -/
def visit : List Event :=
  [.written (serverField (Qstring.literal "6000")) (Qstring.literal "10.0.0.2:6000"),
    .router (Qh3router.Sample.reports 0 (Qh3router.Sample.server 6000) "qh3server-start-"),
    .router .wouldBlock, .update]

def leaves : Qh3router.Event :=
  Qh3router.Sample.reports 5 (Qh3router.Sample.server 6000) "shut-ack-"

end Sample

theorem directory_accounted_visit :
    ∃ s t, (machine Sample.site Sample.config fun _ => none).Run Sample.visit s ∧
      s.servers (serverField (Qstring.literal "6000")) = some (Qstring.literal "10.0.0.2:6000") ∧
      (machine Sample.site Sample.config fun _ => none).Step s (.router Sample.leaves) t ∧
      t.servers (serverField (Qstring.literal "6000")) = none := by
  have there : ((machine Sample.site Sample.config fun _ =>
    none).exec (init Sample.site Sample.config fun _ => none) Sample.visit).map
      (fun s => (s.state.router.entries, (s.state.router.heap 0).map Route.port,
        s.servers (serverField (Qstring.literal "6000")))) =
        some ([0], some (Qstring.literal "6000"), some (Qstring.literal "10.0.0.2:6000")) := by
          decide +kernel
  have gone : ((machine Sample.site Sample.config fun _ =>
    none).exec (init Sample.site Sample.config fun _ => none)
      (Sample.visit ++ [.router Sample.leaves])).map (fun t => t.state.router.entries) =
        some [] := by decide +kernel
  obtain ⟨t, whole, none⟩ := Machine.exec_observe gone
  obtain ⟨s, run, step⟩ := whole.snoc_inv
  obtain ⟨s', run', same⟩ := Machine.exec_observe there
  cases run.unique run'
  obtain ⟨entries, rest⟩ := Prod.mk.inj same
  obtain ⟨port, listed⟩ := Prod.mk.inj rest
  obtain ⟨route, found, ended⟩ := Option.map_eq_some_iff.mp port
  refine ⟨s, t, run, listed, step, Option.eq_none_iff_forall_ne_some.mpr fun value left => ?_⟩
  have inside : 0 ∈ s.state.router.entries := entries ▸ List.mem_singleton_self 0
  have outside : ∀ ptr, ptr ∉ t.state.router.entries := fun ptr => none ▸ List.not_mem_nil
  have cleared := (directory_accounted run).2.2 _ t step 0 inside route found (outside 0) value
  rw [ended] at cleared
  obtain ⟨ptr, member, -⟩ := cleared left
  exact outside ptr member

end Gearsdk.Qh3router.Directory
