import Gearsdk.Qh3router.Runs

/-! The hash `servers:<ip>` in Redis, in which the router keeps a field for each of
its routes. A route is entered when it is active again and at every turn of a timer,
and taken out when it leaves a list. Other processes write into the same hash. -/
namespace Gearsdk.Qh3router

/-- `HSET` and `HDEL`. -/
inductive HashCommand where
  | setHashValue (field value : Qstring)
  | deleteHashField (field : Qstring)
  deriving DecidableEq

namespace HashCommand

def field : HashCommand → Qstring
  | setHashValue field _ | deleteHashField field => field

def value : HashCommand → Option Qstring
  | setHashValue _ value => some value
  | deleteHashField _ => none

end HashCommand

abbrev Fields := Qstring → Option Qstring

def Fields.apply (fields : Fields) (command : HashCommand) : Fields :=
  Function.update fields command.field command.value

def Fields.applyAll (fields : Fields) (commands : List HashCommand) : Fields :=
  commands.foldl Fields.apply fields

/-- The fields that no command is about. -/
def Fields.releaseAll (fields : Fields) (commands : List HashCommand) : Fields :=
  commands.foldl (fun fields command => Function.update fields command.field none) fields

/-- `server-<port>` -/
def serverField (port : Qstring) : Qstring := Qstring.literal "server-" ++ Qstring.cString port

/-- `<host>:<port>` -/
def hostPort (host port : Qstring) : Qstring :=
  Qstring.cString host ++ Qstring.literal ":" ++ Qstring.cString port

def entry (route : Route) : HashCommand :=
  .setHashValue (serverField route.port) (hostPort route.host route.port)

namespace Directory

/-- The route is read after it has left its list, and lives still. -/
def deletion (router : Qh3router) (ptr : Nat) : List HashCommand :=
  (router.heap ptr).toList.map fun route => .deleteHashField (serverField route.port)

def removeFromActiveRoutes (router : Qh3router) (ptr : Nat) : Qh3router × Bool × List HashCommand :=
  let (kept, removed) := router.removeFromActiveRoutes ptr
  (kept, removed, if removed then deletion router ptr else [])

def removeFromUnresponsiveRoutes (router : Qh3router) (ptr : Nat) :
    Qh3router × Bool × List HashCommand :=
  let (kept, removed) := router.removeFromUnresponsiveRoutes ptr
  (kept, removed, if removed then deletion router ptr else [])

def pushToRoutes (router : Qh3router) (ptr : Nat) : Qh3router × List HashCommand :=
  (router.pushToRoutes ptr, if ptr ∈ router.routes then [] else (router.heap ptr).toList.map entry)

def locate (router : Qh3router) (host port : Qstring) :
    Except Fault (Qh3router × Option Nat × List HashCommand) := do
  match ← router.isInActiveRoutes host port with
  | some ptr => .ok (router, some ptr, [])
  | none =>
      match ← router.isInUnresponsiveRoutes host port with
      | none => .ok (router, none, [])
      | some ptr =>
          let (router, removed, deleted) := removeFromUnresponsiveRoutes router ptr
          let (router, entered) := if removed then pushToRoutes router ptr else (router, [])
          .ok (router, some ptr, deleted ++ entered)

def routeFeedback (router : Qh3router) (now : Rat) (ptr : Nat) (port cmd : Qstring) :
    Except Fault (Qh3router × List HashCommand) :=
  if isCommand cmd "shut-ack-" port then
    let (router, removed, deleted) := removeFromActiveRoutes router ptr
    let (router, removed, deleted) :=
      if removed then (router, true, deleted) else removeFromUnresponsiveRoutes router ptr
    if removed then (router.destroyRoute ptr).shutdownCmdCenter.map (·, deleted)
      else .ok (router, deleted)
  else if isCommand cmd "hb-" port then (router.refreshHbTimestamp now ptr).map (·, [])
  else .ok (router, [])

def cmdFeedbackFromClient (router : Qh3router) (now : Rat) (clientAddr : Sockaddr) (cmd : Qstring) :
    Except Fault (Qh3router × List HashCommand) :=
  match getnameinfo clientAddr with
  | none => .ok (router, [])
  | some (host, port) => do
      match ← locate router host port with
      | (router, some ptr, commands) =>
          (routeFeedback router now ptr port cmd).map fun (router, later) =>
            (router, commands ++ later)
      | (router, none, commands) => (router.unlistedFeedback now host port cmd).map (·, commands)

def moveExpired (router : Qh3router) : List Nat → Qh3router × List HashCommand
  | [] => (router, [])
  | ptr :: rest =>
      let (router, removed, deleted) := removeFromActiveRoutes router ptr
      let (router, later) :=
        moveExpired (if removed then router.pushToUnresponsiveRoutes ptr else router) rest
      (router, deleted ++ later)

def destroyExpired (router : Qh3router) : List Nat → Qh3router × List HashCommand
  | [] => (router, [])
  | ptr :: rest =>
      let (router, removed, deleted) := removeFromUnresponsiveRoutes router ptr
      let (router, later) :=
        destroyExpired (if removed then router.destroyRoute ptr else router) rest
      (router, deleted ++ later)

def checkAndRemoveUnresponsiveRoutes (destroyRoutes : Bool) (router : Qh3router) (now : Rat)
    (timeout : Int) :
    Except Fault (Qh3router × List HashCommand) := do
  let (router, deleted) := moveExpired router (← router.expired now timeout router.routes)
  if destroyRoutes then
    let (router, later) :=
      destroyExpired router (← router.expired now (timeout * 2) router.unresponsiveRoutes)
    .ok (router, deleted ++ later)
  else .ok (router, deleted)

/-- The fields that say where the router itself can be reached. -/
structure Config where
  host : Qstring
  port : Qstring
  routerPortReturn : Nat
  commandPort : Nat

def Config.fixed (config : Config) : List HashCommand :=
  [.setHashValue (Qstring.literal "router") (hostPort config.host config.port),
    .setHashValue (Qstring.literal "router-return")
      (hostPort config.host (Qstring.unsigned config.routerPortReturn))]

def Config.commandCenter (config : Config) : HashCommand :=
  .setHashValue (Qstring.literal "command_center")
    (hostPort config.host (Qstring.unsigned config.commandPort))

/-- The callback of the timer of `update_redis_about_servers`. -/
def updateRedisAboutServers (config : Config) (router : Qh3router) : List HashCommand :=
  config.fixed ++ (router.routes.flatMap fun ptr => (router.heap ptr).toList.map entry) ++
    (router.unresponsiveRoutes.flatMap fun ptr => (router.heap ptr).toList.map entry) ++
      [config.commandCenter]

structure State where
  state : Qh3router.State
  servers : Fields
  /-- The hash has a lifetime. -/
  expires : Bool
  /-- What the router has not written over or deleted of what others have written,
  before its start or since. -/
  foreign : Fields

inductive Event where
  | router (event : Qh3router.Event)
  | update
  | written (field value : Qstring)
  | lapses

def enabled (s : State) : Event → Prop
  | .router event => Qh3router.enabled s.state event
  | .update => s.state.inCallback = false ∧ s.state.router.broken = false
  | .written _ _ => True
  | .lapses => s.expires = true

instance (s : State) : ∀ event, Decidable (enabled s event)
  | .router event => inferInstanceAs (Decidable (Qh3router.enabled s.state event))
  | .update =>
    inferInstanceAs (Decidable (s.state.inCallback = false ∧ s.state.router.broken = false))
  | .written _ _ => .isTrue trivial
  | .lapses => inferInstanceAs (Decidable (s.expires = true))

/-- The commands of the router. -/
def State.tell (s : State) (commands : List HashCommand) : State :=
  { s with
    servers := s.servers.applyAll commands
    foreign := s.foreign.releaseAll commands }

/-- What an event makes the router tell Redis. -/
def spoken (site : Site) (s : Qh3router.State) : Qh3router.Event → Except Fault (List HashCommand)
  | .feedback now clientAddr datagram =>
      (cmdFeedbackFromClient s.router now clientAddr (Qstring.cString datagram)).map Prod.snd
  | .timer now timeout =>
    (checkAndRemoveUnresponsiveRoutes site.destroyRoutes s.router now timeout).map Prod.snd
  | .wouldBlock | .packet _ | .request _ => .ok []

def next (site : Site) (config : Config) (s : State) : Event → Except Fault State
  | .router event => do
      let state ← Qh3router.next site s.state event
      let commands ← spoken site s.state event
      .ok { s.tell commands with state }
  | .update => .ok { s.tell (updateRedisAboutServers config s.state.router) with expires := true }
  | .written field value =>
      .ok { s with
        servers := Function.update s.servers field (some value)
        foreign := Function.update s.foreign field (some value) }
  | .lapses => .ok { s with servers := fun _ => none, expires := false, foreign := fun _ => none }

/-- The hash is what others have left there, with the router's own fields. -/
def init (site : Site) (config : Config) (left : Fields) : State :=
  let start : State :=
    { state := Qh3router.init site, servers := left, expires := true, foreign := left }
  start.tell config.fixed

def machine (site : Site) (config : Config) (left : Fields) :
    Transition.Machine State Event Fault where
  init := init site config left
  enabled := enabled
  next := next site config

instance (s : State) (event : Event) : Decidable ((machine site config left).enabled s event) :=
  inferInstanceAs (Decidable (enabled s event))

variable {router router' middle : Qh3router} {commands later : List HashCommand}
variable {ptr : Nat} {route : Route}
variable {fields : Fields} {field value port : Qstring}

/-! ### Commands -/

theorem applyAll_append (fields : Fields) (commands later : List HashCommand) :
    fields.applyAll (commands ++ later) = (fields.applyAll commands).applyAll later :=
  List.foldl_append

theorem applyAll_of_ne (other : ∀ command ∈ commands, command.field ≠ field) :
    fields.applyAll commands field = fields field := by
  induction commands generalizing fields with
  | nil => rfl
  | cons command rest ih =>
    obtain ⟨here, rest'⟩ := List.forall_mem_cons.mp other
    calc fields.applyAll (command :: rest) field
        = (fields.apply command) field := ih rest'
      _ = fields field := Function.update_of_ne here.symm _ _

/-- A field that some command is about has the value of such a command. -/
theorem applyAll_of_mem (about : ∃ command ∈ commands, command.field = field) :
    ∃ command ∈ commands, command.field = field ∧
      fields.applyAll commands field = command.value := by
  induction commands generalizing fields with
  | nil =>
    obtain ⟨command, inside, -⟩ := about
    cases inside
  | cons command rest ih =>
    by_cases again : ∃ command ∈ rest, command.field = field
    · obtain ⟨last, inside, same, applied⟩ := @ih (fields.apply command) again
      exact ⟨last, List.mem_cons_of_mem _ inside, same, applied⟩
    · have first : command.field = field := by
        obtain ⟨about, inside, same⟩ := about
        rcases List.mem_cons.mp inside with rfl | later
        · exact same
        · exact absurd ⟨about, later, same⟩ again
      refine ⟨command, List.mem_cons_self, first, ?_⟩
      have other : ∀ command ∈ rest, command.field ≠ field :=
        fun about inside same => again ⟨about, inside, same⟩
      calc fields.applyAll (command :: rest) field
          = (fields.apply command) field := applyAll_of_ne other
        _ = command.value := by rw [← first, Fields.apply, Function.update_self]

theorem releaseAll_of_ne (other : ∀ command ∈ commands, command.field ≠ field) :
    fields.releaseAll commands field = fields field := by
  induction commands generalizing fields with
  | nil => rfl
  | cons command rest ih =>
    obtain ⟨here, rest'⟩ := List.forall_mem_cons.mp other
    exact (ih rest').trans (Function.update_of_ne here.symm _ _)

/-! ### What the commands of the router make of its routes -/

/-- The value is the address of a listed route with this port. -/
def Enters (router : Qh3router) (field value : Qstring) : Prop :=
  ∃ ptr ∈ router.entries, ∃ route, router.heap ptr = some route ∧
    entry route = .setHashValue field value

/-- The route is listed at its address. -/
def Stays (router : Qh3router) (ptr : Nat) (route : Route) : Prop :=
  ptr ∈ router.entries ∧ ∃ route', router.heap ptr = some route' ∧ route'.address = route.address

theorem entry_congr {route route' : Route} (same : route.address = route'.address) :
    entry route = entry route' := by
  obtain ⟨host, port⟩ := Prod.mk.inj same
  rw [entry, entry, host, port]

/-- Whatever the commands are about is a listed route's or no field afterwards, and
they are about the field of every route that is listed no longer. -/
structure Accounts (before : Qh3router) (commands : List HashCommand) (after : Qh3router) :
    Prop where
  kept : ∀ {ptr route}, ptr ∈ before.entries → before.heap ptr = some route →
    Stays after ptr route ∨ ∃ command ∈ commands, command.field = serverField route.port
  told : ∀ {fields : Fields} {field value}, (∃ command ∈ commands, command.field = field) →
    fields.applyAll commands field = some value → Enters after field value

theorem Accounts.enters (accounts : Accounts router commands router')
    (other : ∀ command ∈ commands, command.field ≠ field) (enters : Enters router field value) :
    Enters router' field value := by
  obtain ⟨ptr, inside, route, found, same⟩ := enters
  rcases accounts.kept inside found with
    ⟨inside', route', found', address⟩ | ⟨command, about, deleted⟩
  · exact ⟨ptr, inside', route', found', (entry_congr address).trans same⟩
  · refine absurd (deleted.trans ?_) (other command about)
    exact congrArg HashCommand.field same

theorem Accounts.trans (first : Accounts router commands middle)
    (second : Accounts middle later router') :
    Accounts router (commands ++ later) router' where
  kept := by
    intro ptr route inside found
    rcases first.kept inside found with ⟨inside', route', found', address⟩ | ⟨command, about, same⟩
    · have port : route'.port = route.port := congrArg Prod.snd address
      rcases second.kept inside' found' with
        ⟨inside'', route'', found'', address'⟩ | ⟨command, about, same⟩
      · exact .inl ⟨inside'', route'', found'', address'.trans address⟩
      · exact .inr ⟨command, List.mem_append_right _ about, by rw [same, port]⟩
    · exact .inr ⟨command, List.mem_append_left _ about, same⟩
  told := by
    intro fields field value about applied
    rw [applyAll_append] at applied
    by_cases again : ∃ command ∈ later, command.field = field
    · exact second.told again applied
    · have other : ∀ command ∈ later, command.field ≠ field :=
        fun command inside same => again ⟨command, inside, same⟩
      rw [applyAll_of_ne other] at applied
      refine second.enters other (first.told ?_ applied)
      obtain ⟨command, inside, same⟩ := about
      rcases List.mem_append.mp inside with early | late
      · exact ⟨command, early, same⟩
      · exact absurd same (other command late)

theorem Accounts.silent
    (stays : ∀ {ptr route}, ptr ∈ router.entries → router.heap ptr = some route →
    Stays router' ptr route) :
    Accounts router [] router' where
  kept inside found := .inl (stays inside found)
  told := by
    rintro fields field value ⟨command, inside, -⟩
    cases inside

theorem Accounts.refl (router : Qh3router) : Accounts router [] router :=
  .silent fun inside found => ⟨inside, _, found, rfl⟩

theorem Accounts.deleted (found : router.heap ptr = some route)
    (others : ∀ other ∈ router.entries, other ≠ ptr → other ∈ router'.entries ∧
    router'.heap other = router.heap other) :
    Accounts router (deletion router ptr) router' := by
  have commands : deletion router ptr = [.deleteHashField (serverField route.port)] := by
    rw [deletion, found]
    rfl
  rw [commands]
  constructor
  · intro other route' inside found'
    by_cases same : other = ptr
    · subst same
      cases Option.some.inj (found.symm.trans found')
      exact .inr ⟨_, List.mem_singleton_self _, rfl⟩
    · obtain ⟨inside', heap⟩ := others other inside same
      exact .inl ⟨inside', route', heap.trans found', rfl⟩
  · rintro fields field value ⟨command, inside, same⟩ applied
    obtain rfl := List.mem_singleton.mp inside
    subst same
    rw [Fields.applyAll, List.foldl_cons, List.foldl_nil, Fields.apply,
      Function.update_self] at applied
    cases applied

/-- The field of a route that is active again is deleted and written. -/
theorem Accounts.entered (inside : ptr ∈ router'.entries) (found : router'.heap ptr = some route) :
    Accounts router' ((router'.heap ptr).toList.map entry) router' := by
  rw [found]
  constructor
  · exact fun inside found => .inl ⟨inside, _, found, rfl⟩
  · rintro fields field value ⟨command, about, same⟩ applied
    obtain rfl := List.mem_singleton.mp about
    subst same
    refine ⟨ptr, inside, route, found, ?_⟩
    change fields.applyAll [entry route] (entry route).field = some value at applied
    rw [Fields.applyAll, List.foldl_cons, List.foldl_nil, Fields.apply,
      Function.update_self] at applied
    cases applied
    rfl

end Directory
end Gearsdk.Qh3router
