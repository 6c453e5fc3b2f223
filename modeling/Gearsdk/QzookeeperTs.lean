import Gearsdk.Serverconfig
import Gearsdk.Transition

/-! The ZooKeeper client of the TypeScript servers with the configuration that
listens to it. The library sends the requests of a client in order and runs their
callbacks; the value of a node and its watch are two requests. -/
namespace Gearsdk.QzookeeperTs
open Serverconfig

/-- A request with what its callback is about: a value of `get_data`, the value
that a watcher reads again, or the watch of a node. -/
inductive Request where
  | load (key : Key) (retryCount : Nat)
  | reread (path : Qstring)
  | watch (path : Qstring)
  deriving DecidableEq

inductive Result where
  | data (value : Qstring)
  | noNode
  | error
  deriving DecidableEq

inductive Delivery where
  | reply (request : Request) (result : Result)
  | event (path : Qstring)
  deriving DecidableEq

inductive Session where
  | connecting | connected | expired
  deriving DecidableEq

structure Client where
  /-- The listeners of the constructor are on the first client only. -/
  listened : Bool := false
  session : Session := .connecting
  /-- The watchers that `reconnect` sets once the client is connected. -/
  watchersToRestore : List Qstring := []
  requests : List Request := []
  /-- A path stands here once for each watcher. -/
  watches : List Qstring := []
  /-- Events stay until the session is connected again. -/
  deliveries : List Delivery := []

/-- The watches of a node fire at its next change. A session that expired has none. -/
def Client.change (client : Client) (path : Qstring) : Client :=
  if client.session = .expired then client
  else
    { client with
      watches := client.watches.filter (· ≠ path)
      deliveries := client.deliveries ++ List.replicate (client.watches.count path) (.event path) }

structure State where
  zkRootFolder : Qstring
  nodes : Qstring → Option Qstring
  client : Client := { listened := true }
  /-- Requests of clients that were closed. -/
  orphans : List Request := []
  retries : List (Key × Nat) := []
  activeWatchers : List Qstring := []
  configs : Configs := ∅

def retryAttempts : Nat := 3

def defaultValue : Qstring := Qstring.literal "\x7b\x7d"

/-! ### `serverconfig` -/

/-- `String.prototype.replace` of a text by nothing: the first place only. -/
def replaceFirst (pattern : Qstring) : Qstring → Qstring
  | [] => []
  | c :: rest =>
      if pattern.isPrefixOf (c :: rest) then (c :: rest).drop pattern.length
        else c :: replaceFirst pattern rest

def modZkKeyOf (path : Qstring) : Qstring :=
  match path.splitOn 47 with
  | _ :: root :: _ => replaceFirst (47 :: root ++ [47]) path
  | _ => path

def tryUpdateValue (configs : Configs) (path data : Qstring) : Configs :=
  if modZkKeyOf path ∈ configs then configs.insert (modZkKeyOf path) data else configs

/-- `Object.entries` -/
def entries : Json → List (Qstring × Json)
  | .object members => members
  | .array elements => elements.mapIdx fun i element => (Qstring.decimal i, element)
  | _ => []

def strings : Json → Option (List Qstring)
  | .array elements => elements.mapM fun
      | .string bytes => some bytes
      | _ => none
  | _ => none

/-- The keys of `iterate_and_load_keys`. -/
def keysOf (doc : Json) : Option (List Key) := do
  let groups ← (entries doc).mapM fun entry => (strings entry.2).map fun names =>
    names.map (entry.1, ·)
  some groups.flatten

/-! ### `qzookeeper` -/

def ask (s : State) (requests : List Request) : State :=
  { s with client := { s.client with requests := s.client.requests ++ requests } }

def setWatcher (s : State) (path : Qstring) : State :=
  ask { s with activeWatchers := s.activeWatchers.insert path } [.watch path]

/-- The callbacks of requests that fail: a value is asked for again after a while,
the others print an error. -/
def failed (s : State) (requests : List Request) : State :=
  { s with
    retries := s.retries ++ requests.filterMap fun
      | .load key retryCount => some (key, retryCount + 1)
      | .reread _ | .watch _ => none }

def Delivery.request? : Delivery → Option Request
  | .reply request _ => some request
  | .event _ => none

/-- Requests that have not been answered, or whose reply has not come yet. -/
def Client.outstanding (client : Client) : List Request :=
  client.deliveries.filterMap Delivery.request? ++ client.requests

def reconnect (s : State) : State :=
  { s with
    orphans := s.orphans ++ s.client.outstanding
    client := { watchersToRestore := s.activeWatchers } }

/-- The connection is lost, and with it the requests that were sent. -/
def connectionLoss (s : State) (sent : Nat) : State :=
  failed { s with
    client := { s.client with
      session := .connecting
      requests := s.client.requests.drop sent
      deliveries := s.client.deliveries.filter (·.request?.isNone) } }
    (s.client.deliveries.filterMap Delivery.request? ++ s.client.requests.take sent)

def disconnected (s : State) (sent : Nat) : State :=
  if s.client.listened then reconnect (connectionLoss s sent) else connectionLoss s sent

def expire (s : State) : State :=
  failed { s with client := { listened := s.client.listened, session := .expired } } s.client.outstanding

def sessionExpired (s : State) : State :=
  if s.client.listened then reconnect (expire s) else expire s

/-- The watchers are set by the continuation of `connect`. -/
def connected (s : State) : State :=
  let watchersToRestore := s.client.watchersToRestore
  let s := { s with client := { s.client with session := .connected, watchersToRestore := [] } }
  watchersToRestore.foldl setWatcher s

def read (s : State) (path : Qstring) : Result :=
  match s.nodes path with
  | some value => .data value
  | none => .noNode

/-- The service answers a request of the client, or the request fails. -/
def answer (s : State) (request : Request) (ok : Bool) : Client :=
  match request with
  | .load key _ =>
      { s.client with deliveries := s.client.deliveries ++
          [.reply request (if ok then read s (zkKey s.zkRootFolder key) else .error)] }
  | .reread path =>
      { s.client with
        deliveries := s.client.deliveries ++ [.reply request (if ok then read s path else .error)] }
  | .watch path => if ok then { s.client with watches := s.client.watches ++ [path] } else s.client

def serve (s : State) (ok : Bool) : State :=
  match s.client.requests with
  | [] => s
  | request :: rest => { s with client := { answer s request ok with requests := rest } }

/-- The callback of `attempt_get_data`. -/
def loaded (s : State) (key : Key) (retryCount : Nat) : Result → State
  | .data value =>
    setWatcher { s with configs := s.configs.insert (modZkKey key) value } (zkKey s.zkRootFolder key)
  | .noNode => { s with configs := s.configs.insert (modZkKey key) defaultValue }
  | .error => failed s [.load key retryCount]

/-- A callback runs with what the library has received. -/
def callback (s : State) : Delivery → State
  | .event path => ask s [.reread path, .watch path]
  | .reply (.load key retryCount) result => loaded s key retryCount result
  | .reply (.reread path) (.data value) => { s with configs := tryUpdateValue s.configs path value }
  | .reply (.reread _) _ | .reply (.watch _) _ => s

def deliver (s : State) : State :=
  match s.client.deliveries with
  | [] => s
  | delivery :: rest => callback { s with client := { s.client with deliveries := rest } } delivery

/-- `attempt_get_data` by its timer. A key whose attempts are used up is not loaded. -/
def retry (s : State) : State :=
  match s.retries with
  | [] => s
  | (key, retryCount) :: rest =>
      let s := { s with retries := rest }
      if retryCount ≤ retryAttempts then ask s [.load key retryCount] else s

def load (s : State) (doc : Json) : State :=
  match keysOf doc with
  | none => s
  | some keys => ask s (keys.map fun key => .load key 1)

/-! ### Runs -/

inductive Event where
  | change (path value : Qstring)
  | connected
  | disconnected (sent : Nat)
  | sessionExpired
  /-- The first client reports once more that it is disconnected. -/
  | closed
  | orphaned
  | serve (ok : Bool)
  | deliver
  | retry
  | load (doc : Json)

def ready (s : State) : Event → Bool
  | .change .. | .load _ => true
  | .connected => s.client.session = .connecting
  | .disconnected _ | .sessionExpired => s.client.session ≠ .expired
  | .closed => !s.client.listened
  | .orphaned => s.orphans ≠ []
  | .serve _ => s.client.session = .connected && s.client.requests ≠ []
  | .deliver => s.client.session = .connected && s.client.deliveries ≠ []
  | .retry => s.retries ≠ []

def next (s : State) : Event → State
  | .change path value =>
      { s with
        nodes := fun other => if other = path then some value else s.nodes other
        client := s.client.change path }
  | .connected => connected s
  | .disconnected sent => disconnected s sent
  | .sessionExpired => sessionExpired s
  | .closed => reconnect s
  | .orphaned => failed { s with orphans := s.orphans.tail } s.orphans.head?.toList
  | .serve ok => serve s ok
  | .deliver => deliver s
  | .retry => retry s
  | .load doc => load s doc

def machine (zkRootFolder : Qstring) (nodes : Qstring → Option Qstring) :
    Transition.Machine State Event Empty where
  init := { zkRootFolder, nodes }
  enabled s e := ready s e = true
  next s e := .ok (next s e)

instance (zkRootFolder : Qstring) (nodes : Qstring → Option Qstring) (s : State) (e : Event) :
    Decidable ((machine zkRootFolder nodes).enabled s e) := inferInstanceAs (Decidable (_ = true))

end Gearsdk.QzookeeperTs
