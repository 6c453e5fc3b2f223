import Gearsdk.QzookeeperTs

/-! Whether the configuration of a TypeScript server comes to hold the values of its
nodes. What a key will hold once all replies on their way have come is right, or the
node is going to be read again. -/
namespace Gearsdk.QzookeeperTs
open Serverconfig

/-- The node of a key. -/
def nodeOf (s : State) (key : Qstring) : Qstring := s.zkRootFolder ++ 47 :: key

def valueOf (s : State) (path : Qstring) : Qstring := (s.nodes path).getD defaultValue

/-- The client is connected and nothing is pending. -/
structure Quiet (s : State) : Prop where
  connected : s.client.session = .connected
  requests : s.client.requests = []
  deliveries : s.client.deliveries = []
  orphans : s.orphans = []
  retries : s.retries = []

/-- Every loaded key holds the value of its node. -/
def Current (s : State) : Prop :=
  ∀ key value, s.configs[key]? = some value → value = valueOf s (nodeOf s key)

def Converged (s : State) : Prop := Quiet s → Current s

/-- What a key holds after a callback. -/
def stores (key : Qstring) (held : Option Qstring) : Delivery → Option Qstring
  | .reply (.load own _) (.data value) => if modZkKey own = key then some value else held
  | .reply (.load own _) .noNode => if modZkKey own = key then some defaultValue else held
  | .reply (.reread path) (.data value) =>
    if modZkKeyOf path = key then held.map fun _ => value else held
  | .reply (.load ..) .error | .reply (.reread _) .noNode | .reply (.reread _) .error
  | .reply (.watch _) _ | .event _ => held

/-- What a key will hold once the callbacks have run for all that was received. -/
def eventual (s : State) (key : Qstring) : Option Qstring :=
  s.client.deliveries.foldl (stores key) s.configs[key]?

/-- The node whose value a request asks for. -/
def Request.reads (zkRootFolder : Qstring) : Request → Option Qstring
  | .load key _ => some (zkKey zkRootFolder key)
  | .reread path => some path
  | .watch _ => none

def Asked (s : State) (requests : List Request) (path : Qstring) : Prop :=
  ∃ request ∈ requests, request.reads s.zkRootFolder = some path

/-- The node is going to be read. -/
def Pending (s : State) (path : Qstring) : Prop :=
  .event path ∈ s.client.deliveries ∨ Asked s s.client.requests path

def Tracked (s : State) : Prop :=
  s.client.session ≠ .expired → ∀ key value, eventual s key = some value →
    value = valueOf s (nodeOf s key) ∨ (s.nodes (nodeOf s key)).isSome ∧ Pending s (nodeOf s key)

/-- What a step has to meet for the configuration to follow the nodes. -/
def Careful (s : State) : Event → Prop
  | .change path value => s.client.session ≠ .expired → ∀ key held, nodeOf s key = path →
    eventual s key = some held →
      held = value ∨ path ∈ s.client.watches ∨ Pending s path
  | .disconnected sent => ∀ key held, s.configs[key]? = some held →
    held = valueOf s (nodeOf s key) ∨
      s.client.listened = false ∧ (s.nodes (nodeOf s key)).isSome ∧
        (.event (nodeOf s key) ∈ s.client.deliveries ∨
        Asked s (s.client.requests.drop sent) (nodeOf s key))
  | .sessionExpired => s.client.listened = true → Current s
  | .closed => Current s
  | .serve true => ∀ path rest, s.client.requests = .reread path :: rest →
    ∀ key, (eventual s key).isSome →
      (modZkKeyOf path = key ↔ nodeOf s key = path)
  | .serve false => ∀ request rest, s.client.requests = request :: rest → ∀ key held,
      request.reads s.zkRootFolder = some (nodeOf s key) → eventual s key = some held →
      held = valueOf s (nodeOf s key) ∨ .event (nodeOf s key) ∈ s.client.deliveries ∨
        Asked s rest (nodeOf s key)
  | .connected | .orphaned | .deliver | .retry | .load _ => True

variable {s s' : State} {nodes : Qstring → Option Qstring} {zkRootFolder : Qstring}

theorem converged_of_tracked (tracked : Tracked s) : Converged s := by
  intro quiet key value held
  have alive : s.client.session ≠ .expired := by
    rw [quiet.connected]
    exact nofun
  have final : eventual s key = some value := by
    rw [eventual, quiet.deliveries, List.foldl_nil, held]
  rcases tracked alive key value final with current | ⟨-, event | ⟨request, asked, -⟩⟩
  · exact current
  · rw [quiet.deliveries] at event
    cases event
  · rw [quiet.requests] at asked
    cases asked

theorem Tracked.init (zkRootFolder : Qstring) (nodes : Qstring → Option Qstring) :
    Tracked (machine zkRootFolder nodes).init := by
  intro _ key value held
  have nothing : (∅ : Configs)[key]? = none := OrderedMap.lookup_empty key
  rw [eventual, show (machine zkRootFolder nodes).init.configs = ∅ from rfl, nothing] at held
  cases held

/-! ### Steps that ask -/

theorem Asked.append {requests : List Request} (asked : Asked s requests path)
    (more : List Request) :
    Asked s (requests ++ more) path := by
  obtain ⟨request, member, reads⟩ := asked
  exact ⟨request, List.mem_append_left _ member, reads⟩

theorem Tracked.ask (tracked : Tracked s) (requests : List Request) : Tracked (ask s requests) := by
  intro alive key value held
  refine (tracked alive key value held).imp id fun pending =>
    ⟨pending.1, pending.2.imp id fun asked => ?_⟩
  exact Asked.append asked requests

theorem Tracked.failed (tracked : Tracked s) (requests : List Request) :
    Tracked (failed s requests) := tracked

theorem Tracked.setWatcher (tracked : Tracked s) (path : Qstring) : Tracked (setWatcher s path) :=
  Tracked.ask (s := { s with activeWatchers := s.activeWatchers.insert path }) tracked [.watch path]

theorem Tracked.connected (tracked : Tracked s) (connecting : s.client.session ≠ .expired) :
    Tracked (connected s) := by
  have restored (paths : List Qstring) {s : State} (tracked : Tracked s) :
      Tracked (paths.foldl QzookeeperTs.setWatcher s) := by
    induction paths generalizing s with
    | nil => exact tracked
    | cons path paths ih => exact ih (tracked.setWatcher path)
  exact restored _ fun _ => tracked connecting

theorem Tracked.retry (tracked : Tracked s) : Tracked (retry s) := by
  rw [QzookeeperTs.retry]
  split
  · exact tracked
  · rename_i key retryCount rest _
    have before : Tracked { s with retries := rest } := tracked
    dsimp only
    split
    · exact before.ask [.load key retryCount]
    · exact before

theorem Tracked.load (tracked : Tracked s) (doc : Json) : Tracked (load s doc) := by
  rw [QzookeeperTs.load]
  split
  · exact tracked
  · exact tracked.ask _

/-! ### Replies -/

theorem eventual_append (s : State) (delivery : Delivery) (key : Qstring) :
    (s.client.deliveries ++ [delivery]).foldl (stores key) s.configs[key]? =
      stores key (eventual s key) delivery := by
  rw [List.foldl_append, List.foldl_cons, List.foldl_nil, eventual]

theorem lookup_tryUpdateValue (configs : Configs) (path data key : Qstring) :
    (tryUpdateValue configs path data)[key]? =
      if modZkKeyOf path = key then configs[key]?.map fun _ => data else configs[key]? := by
  rw [tryUpdateValue]
  by_cases own : modZkKeyOf path = key
  · subst own
    rw [if_pos rfl]
    by_cases loaded : modZkKeyOf path ∈ configs
    · obtain ⟨value, found⟩ := OrderedMap.mem_iff_lookup.mp loaded
      rw [if_pos loaded, OrderedMap.lookup_insert, if_pos rfl, found, Option.map_some]
    · rw [if_neg loaded, OrderedMap.not_mem_iff_lookup.mp loaded, Option.map_none]
  · rw [if_neg own]
    split
    · rw [OrderedMap.lookup_insert, if_neg own]
    · rfl

/-- A callback stores what it was going to store. -/
theorem Tracked.receive (tracked : Tracked s) {request : Request} {result : Result}
    {rest : List Delivery} (head : s.client.deliveries = .reply request result :: rest)
    (configs : Configs)
    (stored : ∀ key, configs[key]? = stores key s.configs[key]? (.reply request result)) :
    Tracked { s with client := { s.client with deliveries := rest }, configs } := by
  intro alive key value held
  have same : eventual s key = some value := by
    rw [eventual, head, List.foldl_cons, ← stored]; exact held
  refine (tracked alive key value same).imp id fun pending =>
    ⟨pending.1, pending.2.imp (fun event => ?_) id⟩
  rw [head] at event
  exact (List.mem_cons.mp event).resolve_left nofun

theorem Tracked.deliver (tracked : Tracked s) : Tracked (deliver s) := by
  rw [QzookeeperTs.deliver]
  split
  · exact tracked
  · rename_i delivery rest head
    cases delivery with
    | event path =>
      intro alive key value held
      have same : eventual s key = some value := by rw [eventual, head, List.foldl_cons]; exact held
      refine (tracked alive key value same).imp id fun pending => ⟨pending.1, ?_⟩
      rcases pending.2 with event | asked
      · rw [head] at event
        rcases List.mem_cons.mp event with fired | later
        · cases fired
          exact .inr ⟨.reread _, List.mem_append_right _ (List.mem_cons_self ..), rfl⟩
        · exact .inl later
      · exact .inr (asked.append _)
    | reply request result =>
      cases request with
      | watch path => exact tracked.receive head s.configs fun _ => rfl
      | reread path =>
        cases result with
        | data value => exact tracked.receive head _ fun key => lookup_tryUpdateValue ..
        | noNode | error => exact tracked.receive head s.configs fun _ => rfl
      | load own retryCount =>
        cases result with
        | data value =>
          exact (tracked.receive head _ fun key => OrderedMap.lookup_insert ..).setWatcher _
        | noNode => exact tracked.receive head _ fun key => OrderedMap.lookup_insert ..
        | error => exact (tracked.receive head s.configs fun _ => rfl).failed _

/-! ### The service -/

theorem nodeOf_inj {key other : Qstring} : nodeOf s key = nodeOf s other ↔ key = other := by
  rw [nodeOf, nodeOf, List.append_cancel_left_eq, List.cons.injEq, and_iff_right rfl]

theorem Asked.other {requests : List Request} {request : Request}
    (asked : Asked s (request :: requests) path)
    (other : request.reads s.zkRootFolder ≠ some path) : Asked s requests path := by
  obtain ⟨first, member, reads⟩ := asked
  rcases List.mem_cons.mp member with rfl | later
  · exact absurd reads other
  · exact ⟨first, later, reads⟩

/-- A reply brings all keys of the node up to date, or none where the request failed. -/
theorem Tracked.answered (tracked : Tracked s) {request : Request} {result : Result}
    {rest : List Request} (head : s.client.requests = request :: rest)
    (fresh : ∀ key value, stores key (eventual s key) (.reply request result) = some value →
      value = valueOf s (nodeOf s key) ∨ eventual s key = some value ∧
        (request.reads s.zkRootFolder = some (nodeOf s key) → (s.nodes (nodeOf s key)).isSome →
          .event (nodeOf s key) ∈ s.client.deliveries ∨ Asked s rest (nodeOf s key))) :
    Tracked { s with client := { s.client with
      requests := rest
      deliveries := s.client.deliveries ++ [.reply request result] } } := by
  intro alive key value held
  rcases fresh key value ((eventual_append s _ key).symm.trans held) with current | ⟨before, other⟩
  · exact .inl current
  · refine (tracked alive key value before).imp id fun pending => ⟨pending.1, ?_⟩
    rcases pending.2 with event | asked
    · exact .inl (List.mem_append_left _ event)
    · by_cases own : request.reads s.zkRootFolder = some (nodeOf s key)
      · exact (other own pending.1).imp (List.mem_append_left _) id
      · rw [head] at asked
        exact .inr (asked.other own)

theorem Tracked.watched (tracked : Tracked s) {rest : List Request}
    (head : s.client.requests = .watch path :: rest) (watches : List Qstring) :
    Tracked { s with client := { s.client with requests := rest, watches } } := by
  intro alive key value held
  refine (tracked alive key value held).imp id fun pending =>
    ⟨pending.1, pending.2.imp id fun asked => ?_⟩
  rw [head] at asked
  exact asked.other nofun

/-- Where the root is one component, a path below it is taken for the key that was
loaded from it. -/
theorem own_of_single {name own : Qstring} (single : s.zkRootFolder = 47 :: name)
    (component : 47 ∉ name) (below : path = nodeOf s own) (key : Qstring) :
    modZkKeyOf path = key ↔ nodeOf s key = path := by
  have parts : path.splitOn 47 = [] :: name :: own.splitOn 47 := by
    rw [below, nodeOf, single, List.cons_append, ← List.nil_append (47 :: (name ++ 47 :: own)),
      List.splitOn_append_cons_self_of_not_mem List.not_mem_nil,
      List.splitOn_append_cons_self_of_not_mem component]
  have root : 47 :: name ++ [47] <+: path := ⟨own, by rw [below, nodeOf, single]; simp⟩
  have taken : modZkKeyOf path = own := by
    rw [modZkKeyOf, parts]
    rw [below, nodeOf, single] at root ⊢
    simp only [List.cons_append] at root ⊢
    rw [replaceFirst, if_pos (List.isPrefixOf_iff_prefix.mpr root)]
    simp
  rw [taken, below, nodeOf_inj, eq_comm]

theorem stores_error (key : Qstring) (held : Option Qstring) (request : Request) :
    stores key held (.reply request .error) = held := by
  cases request with
  | load | reread | watch => rfl

theorem Tracked.unanswered (tracked : Tracked s) {request : Request} {rest : List Request}
    (head : s.client.requests = request :: rest) (careful : Careful s (.serve false)) :
    Tracked { s with client := { s.client with
      requests := rest
      deliveries := s.client.deliveries ++ [.reply request .error] } } := by
  refine tracked.answered head fun key value held => ?_
  rw [stores_error] at held
  by_cases own : request.reads s.zkRootFolder = some (nodeOf s key)
  · exact (careful request rest head key value own held).imp id fun pending =>
      ⟨held, fun _ _ => pending⟩
  · exact .inr ⟨held, fun reads => absurd reads own⟩

/-- The watcher's value goes to the key of its node. -/
theorem Tracked.reread (tracked : Tracked s) {rest : List Request}
    (head : s.client.requests = .reread path :: rest) (careful : Careful s (.serve true)) :
    Tracked { s with client := { s.client with
      requests := rest
      deliveries := s.client.deliveries ++ [.reply (.reread path) (read s path)] } } := by
  refine tracked.answered head fun key value held => ?_
  rw [read] at held
  cases found : s.nodes path with
  | none =>
    rw [found] at held
    refine .inr ⟨held, fun reads known => ?_⟩
    rw [← Option.some.inj reads, found] at known
    contradiction
  | some current =>
    rw [found, stores] at held
    have own := careful path rest head key
    split at held
    · rename_i key'
      obtain ⟨before, earlier, rfl⟩ := Option.map_eq_some_iff.mp held
      have node := (own (by rw [earlier]; rfl)).mp key'
      rw [valueOf, node, found]
      exact .inl rfl
    · rename_i other
      refine .inr ⟨held, fun reads _ => absurd ?_ other⟩
      exact (own (by rw [held]; rfl)).mpr (Option.some.inj reads).symm

/-- A value that is loaded is the one of the node, or stands for its absence. -/
theorem Tracked.loading (tracked : Tracked s) {own : Key} {retryCount : Nat} {rest : List Request}
    (head : s.client.requests = .load own retryCount :: rest) :
    Tracked { s with client := { s.client with
      requests := rest
      deliveries := s.client.deliveries ++
        [.reply (.load own retryCount) (read s (zkKey s.zkRootFolder own))] } } := by
  refine tracked.answered head fun key value held => ?_
  have stored : stores key (eventual s key)
    (.reply (.load own retryCount) (read s (zkKey s.zkRootFolder own))) =
      if modZkKey own = key then some (valueOf s (nodeOf s (modZkKey own)))
        else eventual s key := by
    have node : zkKey s.zkRootFolder own = nodeOf s (modZkKey own) := rfl
    rw [read, node, valueOf]
    cases s.nodes (nodeOf s (modZkKey own)) with
    | none | some => rfl
  rw [stored] at held
  split at held
  · rename_i here
    exact .inl (here ▸ (Option.some.inj held).symm)
  · rename_i other
    exact .inr ⟨held, fun reads _ => absurd (nodeOf_inj.mp (Option.some.inj reads)) other⟩

theorem Tracked.serve (tracked : Tracked s) (careful : Careful s (.serve ok)) :
    Tracked (serve s ok) := by
  rw [QzookeeperTs.serve]
  split
  · exact tracked
  · rename_i request rest head
    cases request with
    | watch path =>
      rw [answer]
      split
      · exact tracked.watched head _
      · exact tracked.watched head s.client.watches
    | reread path =>
      cases ok with
      | true => exact tracked.reread head careful
      | false => exact tracked.unanswered head careful
    | load own retryCount =>
      cases ok with
      | true => exact tracked.loading head
      | false => exact tracked.unanswered head careful

/-! ### The nodes and the connection -/

theorem eventual_change (s : State) (path value : Qstring) (key : Qstring) :
    eventual (next s (.change path value)) key = eventual s key := by
  have silent (events : Nat) (held : Option Qstring) :
      (List.replicate events (Delivery.event path)).foldl (stores key) held = held := by
    induction events with
    | zero => rfl
    | succ events ih => exact ih
  simp only [eventual, next, Client.change]
  split
  · rfl
  · rw [List.foldl_append, silent]

/-- A node whose watch is set is read again after it has changed. -/
theorem Tracked.change (tracked : Tracked s) (careful : Careful s (.change path value)) :
    Tracked (next s (.change path value)) := by
  intro alive key held final
  have session : s.client.session ≠ .expired := by
    intro dead
    have unchanged : (next s (.change path value)).client = s.client := if_pos dead
    exact alive (unchanged ▸ dead)
  rw [eventual_change] at final
  have client : (next s (.change path value)).client =
      { s.client with
        watches := s.client.watches.filter (· ≠ path)
        deliveries := s.client.deliveries ++
          List.replicate (s.client.watches.count path) (.event path) } :=
    if_neg session
  have kept {other : Qstring} (pending : Pending s other) :
      Pending (next s (.change path value)) other := by
    rw [Pending, client]
    exact pending.imp (List.mem_append_left _) id
  have node : nodeOf (next s (.change path value)) key = nodeOf s key := rfl
  rw [node]
  by_cases own : nodeOf s key = path
  · have now : (next s (.change path value)).nodes path = some value := if_pos rfl
    rw [own, valueOf, now]
    rcases careful session key held own final with same | armed | pending
    · exact .inl same
    · refine .inr ⟨rfl, .inl ?_⟩
      rw [client]
      exact List.mem_append_right _ (List.mem_replicate.mpr ⟨(List.count_pos_iff.mpr armed).ne', rfl⟩)
    · exact .inr ⟨rfl, kept pending⟩
  · have untouched : (next s (.change path value)).nodes (nodeOf s key) = s.nodes (nodeOf s key) :=
      if_neg own
    rw [valueOf, untouched]
    exact (tracked session key held final).imp id fun pending => ⟨pending.1, kept pending.2⟩

theorem Tracked.of_current (current : Current s) (unread : s.client.deliveries = []) :
    Tracked s := by
  intro _ key value held
  rw [eventual, unread] at held
  exact .inl (current key value held)

theorem Tracked.reconnect (current : Current s) : Tracked (reconnect s) :=
  Tracked.of_current current rfl

/-- Replies that are lost do not come to be stored. -/
theorem foldl_events (deliveries : List Delivery) (key : Qstring) (held : Option Qstring) :
    (deliveries.filter (·.request?.isNone)).foldl (stores key) held = held := by
  induction deliveries with
  | nil => rfl
  | cons delivery deliveries ih =>
    rw [List.filter_cons]
    cases delivery with
    | event path => exact ih
    | reply request result => exact ih

theorem Tracked.disconnected (careful : Careful s (.disconnected sent)) :
    Tracked (disconnected s sent) := by
  rw [QzookeeperTs.disconnected]
  split
  · rename_i listened
    refine Tracked.reconnect fun key held found => ?_
    exact (careful key held found).resolve_right fun other =>
      absurd (listened.symm.trans other.1) nofun
  · intro _ key held final
    rw [eventual, connectionLoss, QzookeeperTs.failed, foldl_events] at final
    refine (careful key held final).imp id fun pending =>
      ⟨pending.2.1, pending.2.2.imp (fun event => ?_) id⟩
    exact List.mem_filter.mpr ⟨event, rfl⟩

theorem Tracked.sessionExpired (careful : Careful s .sessionExpired) :
    Tracked (sessionExpired s) := by
  rw [QzookeeperTs.sessionExpired]
  split
  · rename_i listened
    exact Tracked.reconnect (careful listened)
  · exact fun alive => absurd rfl alive

theorem step_tracked (tracked : Tracked s) (step : (machine zkRootFolder nodes).Step s e s')
    (careful : Careful s e) :
    Tracked s' := by
  obtain ⟨possible, rfl⟩ : ready s e = true ∧ next s e = s' := ⟨step.1, Except.ok.inj step.2⟩
  cases e with
  | change path value => exact tracked.change careful
  | connected =>
    refine tracked.connected ?_
    rw [of_decide_eq_true possible]
    exact nofun
  | disconnected sent => exact Tracked.disconnected careful
  | sessionExpired => exact Tracked.sessionExpired careful
  | closed => exact Tracked.reconnect careful
  | orphaned => exact tracked
  | serve ok => exact tracked.serve careful
  | deliver => exact tracked.deliver
  | retry => exact tracked.retry
  | load doc => exact tracked.load doc

/-- The configuration comes to follow the nodes in every run with careful steps. -/
theorem reread_converges (careful : (machine zkRootFolder nodes).Meets Careful es) :
    (machine zkRootFolder nodes).Always Converged es := by
  have always : (machine zkRootFolder nodes).Always Tracked es := by
    refine Transition.Machine.Meets.always (Tracked.init zkRootFolder nodes) ?_ careful
    exact fun _ tracked step meets => step_tracked tracked step meets
  exact fun fs t inside reached => converged_of_tracked (always fs t inside reached)

namespace Sample

def size : Qstring := Qstring.literal "/qh3server/room/size"

def file : Json := .object [(Qstring.literal "room", .array [.string (Qstring.literal "size")])]

def created : Event := .change size (Qstring.literal "4")

def resized : Event := .change size (Qstring.literal "8")

/-- The client connects and asks for its one key. -/
def asked : List Event := [.connected, .load file]

/-- The node is not there when it is read, and is created later. -/
def absent : List Event := asked ++ [.serve true, .deliver, created]

/-- The node changes after its value is read and before its watch is set. -/
def overtaken : List Event := created :: asked ++ [.serve true, .deliver, resized, .serve true]

/-- The value and the watch of the one key are there. -/
def followed : List Event := created :: asked ++ [.serve true, .deliver, .serve true]

/-- The node changes while the client is not connected. -/
def missed : List Event := followed ++ [.disconnected 0, resized, .connected, .serve true]

/-- The node changes once more after the client has connected again. -/
def refollowed : List Event :=
  followed ++ [.disconnected 0, .connected, .serve true, resized, .deliver, .serve true,
    .serve true, .deliver]

def nowhere : Qstring → Option Qstring := fun _ => none

abbrev start : Transition.Machine State Event Empty :=
  machine (Qstring.literal "/qh3server") nowhere

/-- The client is quiet while the key holds a value that its node has not. -/
def stale (s : State) : Bool :=
  s.client.session = .connected && s.client.requests = [] && s.client.deliveries = [] &&
    s.orphans = [] &&
    s.retries = [] && s.configs.toList.any fun entry => entry.2 ≠ valueOf s (nodeOf s entry.1)

theorem not_converged (found : stale s = true) : ¬ Converged s := by
  simp only [stale, Bool.and_eq_true, decide_eq_true_eq, List.any_eq_true] at found
  obtain ⟨⟨⟨⟨⟨connected, requests⟩, deliveries⟩, orphans⟩, retries⟩, ⟨key, held⟩, member, other⟩ :=
    found
  intro converged
  refine other (converged ⟨connected, requests, deliveries, orphans, retries⟩ key held ?_)
  exact Std.TreeMap.mem_toList_iff_getElem?_eq_some.mp member

end Sample

/-- A node that is not there has no watch, the value and the watch are two requests,
and a value is not read again with the watches that a new client sets. -/
theorem reread_fails :
    (∃ s, (machine (Qstring.literal "/qh3server") Sample.nowhere).Run Sample.absent s ∧
      ¬ Converged s) ∧
      (∃ s, (machine (Qstring.literal "/qh3server") Sample.nowhere).Run Sample.overtaken s ∧
        ¬ Converged s) ∧
      ∃ s, (machine (Qstring.literal "/qh3server") Sample.nowhere).Run Sample.missed s ∧
        ¬ Converged s := by
  have absent : (Sample.start.exec Sample.start.init Sample.absent).map Sample.stale =
    some true := by decide +kernel
  have overtaken : (Sample.start.exec Sample.start.init Sample.overtaken).map Sample.stale =
      some true := by
    decide +kernel
  have missed : (Sample.start.exec Sample.start.init Sample.missed).map Sample.stale =
    some true := by decide +kernel
  refine ⟨?_, ?_, ?_⟩
  · obtain ⟨s, run, found⟩ := Transition.Machine.exec_observe absent
    exact ⟨s, run, Sample.not_converged found⟩
  · obtain ⟨s, run, found⟩ := Transition.Machine.exec_observe overtaken
    exact ⟨s, run, Sample.not_converged found⟩
  · obtain ⟨s, run, found⟩ := Transition.Machine.exec_observe missed
    exact ⟨s, run, Sample.not_converged found⟩

namespace Sample

/-- Enough for a careful step. -/
def test (s : State) : Event → Bool
  | .change path _ => path ∈ s.client.watches || (s.configs.toList = [] && s.client.deliveries = [])
  | .disconnected _ | .sessionExpired | .closed =>
      s.configs.toList.all fun entry => entry.2 = valueOf s (nodeOf s entry.1)
  | .serve true =>
      match s.client.requests with
      | .reread path :: _ =>
          s.zkRootFolder = Qstring.literal "/qh3server" &&
            (Qstring.literal "/qh3server/").isPrefixOf path
      | _ => true
  | .serve false => false
  | .connected | .orphaned | .deliver | .retry | .load _ => true

theorem current_of_test
    (passed : (s.configs.toList.all fun entry => entry.2 = valueOf s (nodeOf s entry.1)) = true) :
    Current s := by
  intro key value found
  exact of_decide_eq_true (List.all_eq_true.mp passed (key,
    value) (Std.TreeMap.mem_toList_iff_getElem?_eq_some.mpr found))

theorem careful_of_test (s : State) (e : Event) (passed : test s e = true) : Careful s e := by
  cases e with
  | change path value =>
    intro _ key held _ final
    rcases Bool.or_eq_true_iff.mp passed with armed | unloaded
    · exact .inr (.inl (of_decide_eq_true armed))
    · obtain ⟨empty, unread⟩ := Bool.and_eq_true_iff.mp unloaded
      rw [eventual, of_decide_eq_true unread] at final
      have member := Std.TreeMap.mem_toList_iff_getElem?_eq_some.mpr final
      rw [of_decide_eq_true empty] at member
      cases member
  | disconnected sent => exact fun key held found => .inl (current_of_test passed key held found)
  | sessionExpired => exact fun _ => current_of_test passed
  | closed => exact current_of_test passed
  | serve ok =>
    cases ok with
    | false => contradiction
    | true =>
      intro path rest head key _
      simp only [test, head, Bool.and_eq_true, decide_eq_true_eq,
        List.isPrefixOf_iff_prefix] at passed
      obtain ⟨root, own, below⟩ := passed
      have single : s.zkRootFolder = 47 :: Qstring.literal "qh3server" :=
        root.trans (by decide +kernel)
      have slash : Qstring.literal "/qh3server/" = Qstring.literal "/qh3server" ++ [47] := by
        decide +kernel
      have node : path = nodeOf s own := by
        rw [← below, nodeOf, root, slash, List.append_assoc]
        rfl
      exact own_of_single single (by decide +kernel) node key
  | connected | orphaned | deliver | retry | load => trivial

end Sample

theorem refollowed_converges :
    (machine (Qstring.literal "/qh3server") Sample.nowhere).Meets Careful Sample.refollowed ∧
      (machine (Qstring.literal "/qh3server") Sample.nowhere).Always Converged Sample.refollowed := by
  have passed : Sample.start.checks Sample.test Sample.start.init Sample.refollowed = true := by
    decide +kernel
  have careful :
    (machine (Qstring.literal "/qh3server") Sample.nowhere).Meets Careful Sample.refollowed :=
    fun _ _ _ inside run => Transition.Machine.meets_of_checks Sample.careful_of_test passed inside run
  exact ⟨careful, reread_converges careful⟩

end Gearsdk.QzookeeperTs
