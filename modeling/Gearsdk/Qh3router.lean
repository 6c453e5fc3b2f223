import Gearsdk.Crc32
import Gearsdk.Qaddress
import Mathlib.Data.Rat.Init

/-! The router in front of the HTTP/3 servers: what it does with a client's
datagram, with a server's reply, and with what servers report to it. -/
namespace Gearsdk

structure Route where
  host : Qstring
  port : Qstring
  serverId : Nat
  lastHbReceivedTime : Rat
  deriving DecidableEq

structure Qh3router where
  /-- Routes by address. A destroyed route leaves nothing behind, and no later one
  takes its address. -/
  heap : Nat → Option Route
  allocated : Nat := 0
  routes : List Nat := []
  unresponsiveRoutes : List Nat := []
  commandRoute : Option Route
  serverCounter : Nat := 0
  /-- Requests to the command server: its host, its port and the path. -/
  requests : List (Qstring × Qstring × Qstring) := []
  /-- Set by `ev_break`: the loop ends once the running callback returns. -/
  broken : Bool := false

namespace Qh3router

inductive Fault where
  | outOfBounds
  | useAfterFree
  | nullCommandRoute
  | routesNotEmpty
  deriving DecidableEq

def inBounds (access : Option α) : Except Fault α := access.elim (.error .outOfBounds) .ok

/-- The position is the checksum of the client's address modulo the number of
active routes. -/
def routeOf (routes : List Nat) (peerAddr : Sockaddr) : Option Nat :=
  routes[Crc32.checksum peerAddr % routes.length]?

/-- One round of the loop: what is in `buf` afterwards, and what goes out to which
route. A datagram is cut to the size of `buf`. -/
def recvCb (routes : List Nat) (buf datagram : List UInt8) (peerAddr : Sockaddr) :
    Except Fault (List UInt8 × Option (Nat × List UInt8)) := do
  let read := min datagram.length buf.length
  let buf ← inBounds (Buffer.write buf 0 (datagram.take read))
  if routes = [] then .ok (buf, none)
  else
    let buf ← inBounds (Buffer.write buf read peerAddr)
    let target := routeOf routes (Buffer.read buf read peerAddr.length)
    .ok (buf, target.map fun route => (route, Buffer.read buf 0 (read + peerAddr.length)))

def originalClientAddrSz : Nat := 6

/-- One round of the loop: what goes out to which address. -/
def recvReturnCb (routes : List Nat) (buf datagram : List UInt8) (peerAddr : Sockaddr) :
    Except Fault (List UInt8 × Option (Sockaddr × List UInt8)) := do
  let read := min datagram.length buf.length
  let buf ← inBounds (Buffer.write buf 0 (datagram.take read))
  if routes = [] then .ok (buf, none)
  else if read < originalClientAddrSz then .error .outOfBounds
  else
    let read := read - originalClientAddrSz
    let portFromPacket := ntohs (buf.getD read 0) (buf.getD (read + 1) 0)
    let clientInfo ← inBounds (updatePort peerAddr portFromPacket)
    let clientInfo ← inBounds (Buffer.write clientInfo 4 (Buffer.read buf (read + 2) 4))
    .ok (buf, some (clientInfo, Buffer.read buf 0 read))

def deref (router : Qh3router) (route : Nat) : Except Fault Route :=
  match router.heap route with
  | some route => .ok route
  | none => .error .useAfterFree

def hasAddress (route : Route) (host port : Qstring) : Bool :=
  Qstring.operatorEq route.host host && Qstring.operatorEq route.port port

def findRoute (router : Qh3router) (host port : Qstring) : List Nat → Except Fault (Option Nat)
  | [] => .ok none
  | ptr :: rest => do
      let route ← router.deref ptr
      if hasAddress route host port then .ok (some ptr) else findRoute router host port rest

def isInActiveRoutes (router : Qh3router) (host port : Qstring) : Except Fault (Option Nat) :=
  router.findRoute host port router.routes

def isInUnresponsiveRoutes (router : Qh3router) (host port : Qstring) : Except Fault (Option Nat) :=
  router.findRoute host port router.unresponsiveRoutes

/-- Whether something was removed stands beside the router. -/
def removeFromActiveRoutes (router : Qh3router) (ptr : Nat) : Qh3router × Bool :=
  let kept := router.routes.filter (· ≠ ptr)
  ({ router with routes := kept }, router.routes.length ≠ kept.length)

def removeFromUnresponsiveRoutes (router : Qh3router) (ptr : Nat) : Qh3router × Bool :=
  let kept := router.unresponsiveRoutes.filter (· ≠ ptr)
  ({ router with unresponsiveRoutes := kept }, router.unresponsiveRoutes.length ≠ kept.length)

def pushToUnresponsiveRoutes (router : Qh3router) (ptr : Nat) : Qh3router :=
  if ptr ∈ router.unresponsiveRoutes then router
  else { router with unresponsiveRoutes := router.unresponsiveRoutes ++ [ptr] }

def pushToRoutes (router : Qh3router) (ptr : Nat) : Qh3router :=
  if ptr ∈ router.routes then router else { router with routes := router.routes ++ [ptr] }

def createQh3serverRoute (router : Qh3router) (now : Rat) (host port : Qstring) : Qh3router :=
  { router with
    heap := Function.update router.heap router.allocated (some ⟨Qstring.cString host,
      Qstring.cString port, router.serverCounter, now⟩)
    allocated := router.allocated + 1
    serverCounter := router.serverCounter + 1
    routes := router.routes ++ [router.allocated] }

def destroyRoute (router : Qh3router) (ptr : Nat) : Qh3router :=
  { router with heap := Function.update router.heap ptr none }

def refreshHbTimestamp (router : Qh3router) (now : Rat) (ptr : Nat) : Except Fault Qh3router := do
  let route ← router.deref ptr
  .ok { router with
    heap := Function.update router.heap ptr (some { route with lastHbReceivedTime := now }) }

/-- `format_string("shut-ack-%s", port)` and its like. -/
def command (name : String) (port : Qstring) : Qstring :=
  Qstring.literal name ++ Qstring.cString port

def isCommand (cmd : Qstring) (name : String) (port : Qstring) : Bool :=
  Qstring.compare cmd (command name port) = 0

/-- An unresponsive route that reports is active again, whatever it reports. -/
def locate (router : Qh3router) (host port : Qstring) : Except Fault (Qh3router × Option Nat) := do
  match ← router.isInActiveRoutes host port with
  | some ptr => .ok (router, some ptr)
  | none =>
      match ← router.isInUnresponsiveRoutes host port with
      | none => .ok (router, none)
      | some ptr =>
          let (router, removed) := router.removeFromUnresponsiveRoutes ptr
          .ok (if removed then router.pushToRoutes ptr else router, some ptr)

/-- The request that ends the command server once no route is left. -/
def shutdownCmdCenter (router : Qh3router) : Except Fault Qh3router :=
  if router.routes = [] ∧ router.unresponsiveRoutes = [] then
    match router.commandRoute with
    | none => .error .nullCommandRoute
    | some center => .ok { router with
        requests := router.requests ++
          [(center.host, center.port, Qstring.literal "/shutdown_cmd_center")] }
  else .ok router

def routeFeedback (router : Qh3router) (now : Rat) (ptr : Nat) (port cmd : Qstring) :
    Except Fault Qh3router :=
  if isCommand cmd "shut-ack-" port then
    let (router, removed) := router.removeFromActiveRoutes ptr
    let (router, removed) := if removed then (router, true)
      else router.removeFromUnresponsiveRoutes ptr
    if removed then (router.destroyRoute ptr).shutdownCmdCenter else .ok router
  else if isCommand cmd "hb-" port then router.refreshHbTimestamp now ptr
  else .ok router

def unlistedFeedback (router : Qh3router) (now : Rat) (host port cmd : Qstring) :
    Except Fault Qh3router :=
  match router.commandRoute with
  | none => .error .nullCommandRoute
  | some center =>
      if hasAddress center host port then
        if isCommand cmd "shut-ack-" port then
          if router.routes ≠ [] then .error .routesNotEmpty
          else .ok { router with commandRoute := none, broken := true }
        else if isCommand cmd "hb-" port then
          .ok { router with commandRoute := some { center with lastHbReceivedTime := now } }
        else .ok router
      else if isCommand cmd "qh3server-start-" port then
        .ok (router.createQh3serverRoute now host port)
      else .ok router

def cmdFeedbackFromClient (router : Qh3router) (now : Rat) (clientAddr : Sockaddr) (cmd : Qstring) :
    Except Fault Qh3router :=
  match getnameinfo clientAddr with
  | none => .ok router
  | some (host, port) => do
      match ← router.locate host port with
      | (router, some ptr) => router.routeFeedback now ptr port cmd
      | (router, none) => router.unlistedFeedback now host port cmd

/-- The routes that have not reported for as long as `timeout`. -/
def expired (router : Qh3router) (now timeout : Rat) : List Nat → Except Fault (List Nat)
  | [] => .ok []
  | ptr :: rest => do
      let route ← router.deref ptr
      let later ← expired router now timeout rest
      .ok (if now - route.lastHbReceivedTime < timeout then later else ptr :: later)

def moveExpired (router : Qh3router) : List Nat → Qh3router
  | [] => router
  | ptr :: rest =>
      let (router, removed) := router.removeFromActiveRoutes ptr
      moveExpired (if removed then router.pushToUnresponsiveRoutes ptr else router) rest

def destroyExpired (router : Qh3router) : List Nat → Qh3router
  | [] => router
  | ptr :: rest =>
      let (router, removed) := router.removeFromUnresponsiveRoutes ptr
      destroyExpired (if removed then router.destroyRoute ptr else router) rest

/-- The timer's callback. `destroyRoutes` is `DESTROY_ROUTES_ON_URESPONSIVE_LIST`. -/
def checkAndRemoveUnresponsiveRoutes (destroyRoutes : Bool) (router : Qh3router) (now : Rat)
    (timeout : Int) :
    Except Fault Qh3router := do
  let router := router.moveExpired (← router.expired now timeout router.routes)
  if destroyRoutes then
    .ok (router.destroyExpired (← router.expired now (timeout * 2) router.unresponsiveRoutes))
  else .ok router

/-- `port_range`: the ports from `minVal` to below `maxVal`. -/
def minVal : Nat := 5100

def maxVal : Nat := 5200

/-- `index` ports have been tried, `left` are to try. -/
def nextAvailablePort (available : Nat → Bool) : (left index : Nat) → Option Nat × Nat
  | 0, index => (none, index)
  | left + 1, index =>
      if available (minVal + index) then (some (minVal + index), index + 1)
      else nextAvailablePort available left (index + 1)

/-- What the environment does while the router starts its servers. -/
structure Spawning where
  host : Qstring
  now : Rat
  available : Nat → Bool
  succeeds : Nat → Bool

def noOfDefaultServersToSpawn : Nat := 5

/-- The loop that starts the servers. It gives up after `tries`. -/
def spawnServers (env : Spawning) : (tries spawned index : Nat) → Qh3router → Qh3router
  | 0, _, _, router => router
  | tries + 1, spawned, index, router =>
      if spawned < noOfDefaultServersToSpawn then
        match nextAvailablePort env.available (maxVal - (minVal + index)) index with
        | (none, _) => router
        | (some port, index) =>
            if env.succeeds port then
              spawnServers env tries (spawned + 1) index
                (router.createQh3serverRoute env.now env.host (Qstring.unsigned port))
            else spawnServers env tries spawned index router
      else router

/-- The router as `run` starts it, with the route of the command server. -/
def start (env : Spawning) (commandPort : Qstring) (skipDefaultQh3serverSpawn : Bool) : Qh3router :=
  let router : Qh3router :=
    { heap := fun _ => none, serverCounter := 1,
      commandRoute := some ⟨Qstring.cString env.host, Qstring.cString commandPort, 0, env.now⟩ }
  if skipDefaultQh3serverSpawn then router else spawnServers env 1000 0 0 router

end Qh3router
end Gearsdk
