import Gearsdk.Json.Roundtrip
import Gearsdk.Message
import Mathlib.Data.List.Basic
import Std.Data.ExtTreeMap.Lemmas

/-! The messages of the user service and of the server list. A string of a
message is shorter than 2^31 bytes: no longer text gets into a `qstring`. -/
namespace Gearsdk
open Std Qstring

/-- `message_parser::parse`: a message that does not deserialise is given up. -/
def MessageParser.parse (tooBig : Qstring → Bool) (deserialize : Json → Option α) (buf : Qstring) :
    Option α :=
  (Json.parse tooBig buf).bind deserialize

structure MsgRoomConfigList where
  configs : List MsgRoomConfig := []

/-- Elements that are no configurations are left out. -/
def MsgRoomConfigList.deserialize : Json → Option MsgRoomConfigList
  | .array elements => some ⟨elements.filterMap MsgRoomConfig.deserialize⟩
  | _ => none

def MsgRoomConfigList.serialize (list : MsgRoomConfigList) : Json :=
  .array (list.configs.map fun config => .object config.serialize)

structure RqMsgUserBase where
  pid : Qstring := []
  token : Qstring := []

def RqMsgUserBase.deserialize (obj : Json) : Option RqMsgUserBase :=
  let initial : RqMsgUserBase := {}
  if obj.isObject then
    some {
      pid := ((obj.member? "pid").bind Json.getString).getD initial.pid
      token := ((obj.member? "token").bind Json.getString).getD initial.token }
  else none

def RqMsgUserBase.serialize (msg : RqMsgUserBase) : List (Qstring × Json) :=
  [(literal "pid", .string msg.pid), (literal "token", .string msg.token)]

structure RqMsgUserGet extends RqMsgUserBase where
  sysName : Qstring := []
  nodeName : Qstring := []
  release : Qstring := []
  arch : Qstring := []

def RqMsgUserGet.deserialize (obj : Json) : Option RqMsgUserGet := do
  let base ← RqMsgUserBase.deserialize obj
  let device ← (obj.member? "device").filter Json.isObject
  let sysName ← (device.member? "sys_name").bind Json.getString
  let nodeName ← (device.member? "node_name").bind Json.getString
  let release ← (device.member? "release").bind Json.getString
  let arch ← (device.member? "arch").bind Json.getString
  some { base with sysName, nodeName, release, arch }

def RqMsgUserGet.serialize (msg : RqMsgUserGet) : List (Qstring × Json) :=
  msg.toRqMsgUserBase.serialize ++
    [(literal "device", .object
      [(literal "sys_name", .string msg.sysName), (literal "node_name", .string msg.nodeName),
        (literal "release", .string msg.release), (literal "arch", .string msg.arch)])]

structure ResMsgUserBase where
  pid : Qstring := []
  /-- A null pointer is `none`. -/
  roomList : Option MsgRoomConfigList := none

def ResMsgUserBase.deserialize (obj : Json) : Option ResMsgUserBase := do
  let pid ← (obj.member? "pid").bind Json.getString
  some { pid, roomList := (obj.member? "room_list").bind MsgRoomConfigList.deserialize }

def ResMsgUserBase.serialize (msg : ResMsgUserBase) : List (Qstring × Json) :=
  (literal "pid", .string msg.pid) ::
    (msg.roomList.map fun list => (literal "room_list", list.serialize)).toList

structure ResMsgGservers where
  gservers : ExtTreeMap Qstring (List Qstring) := ∅

namespace ResMsgGservers

/-- `gservers[addr].push_back(port)` -/
def pushBack (gservers : ExtTreeMap Qstring (List Qstring)) (addr port : Qstring) :
    ExtTreeMap Qstring (List Qstring) :=
  gservers.insert addr (gservers.getD addr [] ++ [port])

def addServer (gservers : ExtTreeMap Qstring (List Qstring)) (serverObj : Json) :
    Option (ExtTreeMap Qstring (List Qstring)) := do
  let addr ← (serverObj.member? "addr").bind Json.getString
  match serverObj.member? "ports" with
  | some (.array portsArray) =>
      portsArray.foldlM (fun gservers port => (Json.getString port).map (pushBack gservers addr)) gservers
  | _ => none

def deserialize : Json → Option ResMsgGservers
  | .array elements => (elements.foldlM addServer ∅).map ResMsgGservers.mk
  | _ => none

def serialize (msg : ResMsgGservers) : Json :=
  .array (msg.gservers.toList.map fun kv => .object
    [(literal "addr", .string kv.1),
      (literal "ports", .array (kv.2.map fun port => .string (cString port)))])

end ResMsgGservers

structure ResMsgUserGet extends ResMsgUserBase where
  lastLogin : Qstring := []
  userName : Qstring := []
  token : Qstring := []
  gservers : ResMsgGservers := {}

def ResMsgUserGet.deserialize (obj : Json) : Option ResMsgUserGet := do
  let initial : ResMsgUserGet := {}
  let base ← ResMsgUserBase.deserialize obj
  let gservers ← (obj.member? "gservers").bind ResMsgGservers.deserialize
  some { base with
    lastLogin := ((obj.member? "last_login").bind Json.getString).getD initial.lastLogin
    userName := ((obj.member? "user_name").bind Json.getString).getD initial.userName
    token := ((obj.member? "token").bind Json.getString).getD initial.token
    gservers }

def ResMsgUserGet.serialize (msg : ResMsgUserGet) : List (Qstring × Json) :=
  msg.toResMsgUserBase.serialize ++
    [(literal "last_login", .string msg.lastLogin), (literal "user_name", .string msg.userName),
      (literal "token", .string msg.token), (literal "gservers", msg.gservers.serialize)]

/-! ### Round trips -/

theorem MessageParser.parse_getJsonString (tooBig : Qstring → Bool) {deserialize : Json → Option α}
    (plain : obj.Plain) (decoded : deserialize obj = some msg) :
    MessageParser.parse tooBig deserialize (Json.getJsonString obj) = some msg := by
  rw [MessageParser.parse, Json.parse_getJsonString tooBig plain, Option.bind_some, decoded]

theorem MsgRoomConfig.plain_serialize (fits : MsgRoomConfig.Fits config) :
    (Json.object config.serialize).Plain := by
  obtain ⟨min, max, betx, rewardx⟩ := fits
  simp only [serialize, Json.Plain, Json.PlainMembers, and_true]
  omega

structure MsgRoomConfigList.Fits (list : MsgRoomConfigList) : Prop where
  configs : ∀ config ∈ list.configs, config.Fits

theorem MsgRoomConfigList.plain_serialize (fits : MsgRoomConfigList.Fits list) :
    list.serialize.Plain := by
  simp only [serialize, Json.Plain, Json.plainElements_iff, List.forall_mem_map]
  exact fun config inside => MsgRoomConfig.plain_serialize (fits.configs config inside)

theorem MsgRoomConfigList.deserialize_serialize (fits : MsgRoomConfigList.Fits list) :
    deserialize list.serialize = some list := by
  have all : (list.configs.map fun config =>
      Json.object config.serialize).filterMap MsgRoomConfig.deserialize = list.configs := by
    rw [List.filterMap_map]
    refine (List.filterMap_congr (g := some) ?_).trans List.filterMap_some
    intro config inside
    exact MsgRoomConfig.deserialize_serialize config (fits.configs config inside)
  simp only [serialize, deserialize, all]

structure RqMsgUserBase.Fits (msg : RqMsgUserBase) : Prop where
  pid : Clean msg.pid
  token : Clean msg.token

theorem RqMsgUserBase.deserialize_append (fits : RqMsgUserBase.Fits msg)
    (more : List (Qstring × Json)) :
    deserialize (.object (msg.serialize ++ more)) = some msg := by
  have pid : (Json.object (msg.serialize ++ more)).member? "pid" = some (.string msg.pid) := rfl
  have token : (Json.object (msg.serialize ++ more)).member? "token" = some (.string msg.token) :=
    rfl
  simp only [deserialize, Json.isObject, if_true, pid, token, Option.bind_some,
    Json.getString_string, cString_of_nul_free fits.pid, cString_of_nul_free fits.token,
    Option.getD_some]

structure RqMsgUserGet.Fits (msg : RqMsgUserGet) : Prop extends msg.toRqMsgUserBase.Fits where
  sysName : Clean msg.sysName
  nodeName : Clean msg.nodeName
  release : Clean msg.release
  arch : Clean msg.arch

theorem RqMsgUserGet.deserialize_serialize (fits : RqMsgUserGet.Fits msg) :
    deserialize (.object msg.serialize) = some msg := by
  have base : RqMsgUserBase.deserialize (.object msg.serialize) = some msg.toRqMsgUserBase :=
    RqMsgUserBase.deserialize_append fits.toFits _
  let device : Json :=
    .object [(literal "sys_name", .string msg.sysName), (literal "node_name", .string msg.nodeName),
    (literal "release", .string msg.release), (literal "arch", .string msg.arch)]
  have found : (Json.object msg.serialize).member? "device" = some device := rfl
  have sysName : device.member? "sys_name" = some (.string msg.sysName) := rfl
  have nodeName : device.member? "node_name" = some (.string msg.nodeName) := rfl
  have release : device.member? "release" = some (.string msg.release) := rfl
  have arch : device.member? "arch" = some (.string msg.arch) := rfl
  have isObject : device.isObject = true := rfl
  simp only [deserialize, base, found, Option.filter_some, isObject, if_true, sysName, nodeName,
    release, arch, Option.bind_some, Json.getString_string, cString_of_nul_free fits.sysName,
    cString_of_nul_free fits.nodeName, cString_of_nul_free fits.release,
    cString_of_nul_free fits.arch, bind]

structure ResMsgUserBase.Fits (msg : ResMsgUserBase) : Prop where
  pid : Clean msg.pid
  roomList : ∀ list ∈ msg.roomList, MsgRoomConfigList.Fits list

/-- The base class writes its own members only. -/
theorem ResMsgUserBase.member_append (msg : ResMsgUserBase) (more : List (Qstring × Json))
    (other : literal "pid" ≠ literal name ∧ literal "room_list" ≠ literal name) :
    (Json.object (msg.serialize ++ more)).member? name = (Json.object more).member? name := by
  obtain ⟨pid, roomList⟩ := msg
  cases roomList with
  | none =>
    simp only [serialize, Option.map_none, Option.toList_none, Json.member?, List.cons_append,
      List.nil_append]
    rw [List.find?_cons_of_neg (by simpa only [decide_eq_true_eq] using other.1)]
  | some list =>
    simp only [serialize, Option.map_some, Option.toList_some, Json.member?, List.cons_append,
      List.nil_append]
    rw [List.find?_cons_of_neg (by simpa only [decide_eq_true_eq] using other.1),
      List.find?_cons_of_neg (by simpa only [decide_eq_true_eq] using other.2)]

theorem ResMsgUserBase.deserialize_append (fits : ResMsgUserBase.Fits msg)
    (others : ((Json.object more).member? "room_list") = none) :
    deserialize (.object (msg.serialize ++ more)) = some msg := by
  have pid : (Json.object (msg.serialize ++ more)).member? "pid" = some (.string msg.pid) := rfl
  have rooms :
      ((Json.object (msg.serialize ++
      more)).member? "room_list").bind MsgRoomConfigList.deserialize = msg.roomList := by
    obtain ⟨text, roomList⟩ := msg
    cases roomList with
    | none =>
      change ((Json.object more).member? "room_list").bind MsgRoomConfigList.deserialize = none
      rw [others]
      rfl
    | some list => exact MsgRoomConfigList.deserialize_serialize (fits.roomList list rfl)
  simp only [deserialize, pid, rooms, Option.bind_some, Json.getString_string,
    cString_of_nul_free fits.pid, bind]

/-- As `get_gservers` builds the map: an address is there with its first port. -/
structure ResMsgGservers.Fits (msg : ResMsgGservers) : Prop where
  addr : ∀ kv ∈ msg.gservers.toList, Clean kv.1
  ports : ∀ kv ∈ msg.gservers.toList, kv.2 ≠ [] ∧ ∀ port ∈ kv.2, Clean port

namespace ResMsgGservers
variable {gservers : ExtTreeMap Qstring (List Qstring)}

theorem insert_insert (addr : Qstring) (first second : List Qstring) :
    (gservers.insert addr first).insert addr second = gservers.insert addr second := by
  apply ExtTreeMap.ext_getElem?
  intro k
  simp only [ExtTreeMap.getElem?_insert]
  split <;> rfl

theorem pushBack_all (addr : Qstring) (filled : ports ≠ []) :
    ports.foldl (fun gservers port => pushBack gservers addr port) gservers =
      gservers.insert addr (gservers.getD addr [] ++ ports) := by
  induction ports generalizing gservers with
  | nil => exact absurd rfl filled
  | cons port rest ih =>
    rw [List.foldl_cons]
    by_cases last : rest = []
    · subst last
      rfl
    · rw [ih last, pushBack, ExtTreeMap.getD_insert_self, insert_insert, List.append_assoc]
      rfl

theorem addServer_written (clean : Clean addr) (filled : ports ≠ [])
    (cleanPorts : ∀ port ∈ ports, Clean port) (fresh : gservers[addr]? = none) :
    addServer gservers (.object [(literal "addr", .string addr),
      (literal "ports", .array (ports.map fun port => .string (cString port)))]) =
        some (gservers.insert addr ports) := by
  have read : ∀ gservers : ExtTreeMap Qstring (List Qstring),
      (ports.map fun port => Json.string (cString port)).foldlM
        (fun gservers port => (Json.getString port).map (pushBack gservers addr)) gservers =
      some (ports.foldl (fun gservers port => pushBack gservers addr port) gservers) := by
    clear filled
    induction ports with
    | nil => exact fun _ => rfl
    | cons port rest ih =>
      intro gservers
      obtain ⟨here, later⟩ := List.forall_mem_cons.mp cleanPorts
      simp only [List.map_cons, List.foldlM_cons, Json.getString_string, cString_of_nul_free here,
        Option.map_some, bind, Option.bind_some, List.foldl_cons]
      exact ih later _
  have old : gservers.getD addr [] = [] := by
    rw [ExtTreeMap.getD_eq_getD_getElem?, fresh]
    rfl
  have addr' : (Json.object [(literal "addr", .string addr),
      (literal "ports", .array (ports.map fun port => .string (cString port)))]).member? "addr" =
        some (.string addr) := rfl
  have ports' : (Json.object [(literal "addr", .string addr),
      (literal "ports", .array (ports.map fun port => .string (cString port)))]).member? "ports" =
        some (.array (ports.map fun port => .string (cString port))) := rfl
  simp only [addServer, addr', ports', Json.getString_string, cString_of_nul_free clean,
    Option.bind_some, bind, read]
  rw [pushBack_all addr filled, old, List.nil_append]

/-- Entries with addresses of their own are added one by one. -/
theorem addServer_all {entries : List (Qstring × List Qstring)} (clean : ∀ kv ∈ entries, Clean kv.1)
    (ports : ∀ kv ∈ entries, kv.2 ≠ [] ∧ ∀ port ∈ kv.2, Clean port)
    (distinct : entries.Pairwise fun first second => first.1 ≠ second.1)
    (fresh : ∀ kv ∈ entries, gservers[kv.1]? = none) :
    (entries.map fun kv => Json.object [(literal "addr", .string kv.1),
      (literal "ports",
        .array (kv.2.map fun port => .string (cString port)))]).foldlM addServer gservers =
      some (entries.foldl (fun gservers kv => gservers.insert kv.1 kv.2) gservers) := by
  induction entries generalizing gservers with
  | nil => rfl
  | cons kv rest ih =>
    obtain ⟨cleanHere, cleanLater⟩ := List.forall_mem_cons.mp clean
    obtain ⟨⟨filled, cleanPorts⟩, portsLater⟩ := List.forall_mem_cons.mp ports
    obtain ⟨apart, distinctLater⟩ := List.pairwise_cons.mp distinct
    obtain ⟨freshHere, freshLater⟩ := List.forall_mem_cons.mp fresh
    simp only [List.map_cons, List.foldlM_cons,
      addServer_written cleanHere filled cleanPorts freshHere, bind, Option.bind_some,
      List.foldl_cons]
    refine ih cleanLater portsLater distinctLater ?_
    intro other inside
    have different : ¬ Ord.compare kv.1 other.1 = .eq :=
      fun same => apart other inside (Std.compare_eq_iff_eq.mp same)
    rw [ExtTreeMap.getElem?_insert, if_neg different]
    exact freshLater other inside

/-- A map is put together again from its entries. -/
theorem foldl_toList (gservers : ExtTreeMap Qstring (List Qstring)) :
    gservers.toList.foldl (fun gservers kv =>
      gservers.insert kv.1 kv.2) (∅ : ExtTreeMap Qstring (List Qstring)) = gservers := by
  rw [← ExtTreeMap.ofList_eq_foldl]
  apply ExtTreeMap.ext_getElem?
  intro k
  cases found : gservers[k]? with
  | some ports =>
    have inside := ExtTreeMap.mem_toList_iff_getElem?_eq_some.mpr found
    exact ExtTreeMap.getElem?_ofList_of_mem
      (Std.compare_eq_iff_eq.mpr rfl) ExtTreeMap.distinct_keys_toList inside
  | none =>
    apply ExtTreeMap.getElem?_ofList_of_contains_eq_false
    rw [Bool.eq_false_iff]
    intro inside
    obtain ⟨⟨_, ports⟩, member, rfl⟩ := List.mem_map.mp (List.contains_iff_mem.mp inside)
    rw [ExtTreeMap.mem_toList_iff_getElem?_eq_some.mp member] at found
    cases found

theorem plain_serialize (msg : ResMsgGservers) : msg.serialize.Plain := by
  simp only [serialize, Json.Plain, Json.plainElements_iff, List.forall_mem_map, Json.PlainMembers,
    true_and, and_true]
  exact fun _ _ _ _ => trivial

theorem deserialize_serialize (fits : Fits msg) : deserialize msg.serialize = some msg := by
  have distinct : msg.gservers.toList.Pairwise fun first second => first.1 ≠ second.1 :=
    ExtTreeMap.distinct_keys_toList.imp fun apart same => apart (Std.compare_eq_iff_eq.mpr same)
  have empty : ∀ kv ∈ msg.gservers.toList, (∅ : ExtTreeMap Qstring (List Qstring))[kv.1]? = none :=
    fun kv _ => ExtTreeMap.getElem?_empty
  rw [serialize, deserialize, addServer_all fits.addr fits.ports distinct empty, foldl_toList,
    Option.map_some]

end ResMsgGservers

structure ResMsgUserGet.Fits (msg : ResMsgUserGet) : Prop extends msg.toResMsgUserBase.Fits where
  lastLogin : Clean msg.lastLogin
  userName : Clean msg.userName
  token : Clean msg.token
  gservers : msg.gservers.Fits

theorem ResMsgUserGet.deserialize_serialize (fits : ResMsgUserGet.Fits msg) :
    deserialize (.object msg.serialize) = some msg := by
  have base : ResMsgUserBase.deserialize (.object msg.serialize) = some msg.toResMsgUserBase :=
    ResMsgUserBase.deserialize_append fits.toFits rfl
  have own (name : String) (other : literal "pid" ≠ literal name ∧
    literal "room_list" ≠ literal name) :=
    msg.toResMsgUserBase.member_append
      [(literal "last_login", .string msg.lastLogin), (literal "user_name", .string msg.userName),
        (literal "token", .string msg.token), (literal "gservers", msg.gservers.serialize)] other
  have lastLogin : (Json.object msg.serialize).member? "last_login" =
    some (.string msg.lastLogin) := own "last_login" (by decide)
  have userName : (Json.object msg.serialize).member? "user_name" = some (.string msg.userName) :=
    own "user_name" (by decide)
  have token : (Json.object msg.serialize).member? "token" = some (.string msg.token) :=
    own "token" (by decide)
  have gservers : (Json.object msg.serialize).member? "gservers" = some msg.gservers.serialize :=
    own "gservers" (by decide)
  simp only [deserialize, base, lastLogin, userName, token, gservers, Option.bind_some,
    Json.getString_string, cString_of_nul_free fits.lastLogin, cString_of_nul_free fits.userName,
    cString_of_nul_free fits.token, ResMsgGservers.deserialize_serialize fits.gservers,
    Option.getD_some, bind]

theorem ResMsgUserBase.plain_serialize (fits : ResMsgUserBase.Fits msg) :
    Json.PlainMembers msg.serialize := by
  rw [Json.plainMembers_iff]
  intro member inside
  simp only [serialize, List.mem_cons, Option.mem_toList, Option.map_eq_some_iff] at inside
  rcases inside with rfl | ⟨list, found, rfl⟩
  · trivial
  · exact MsgRoomConfigList.plain_serialize (fits.roomList list found)

theorem ResMsgUserGet.plain_serialize (fits : ResMsgUserGet.Fits msg) :
    (Json.object msg.serialize).Plain := by
  have base := Json.plainMembers_iff.mp (ResMsgUserBase.plain_serialize fits.toFits)
  rw [Json.Plain, Json.plainMembers_iff, serialize, List.forall_mem_append]
  refine ⟨base, ?_⟩
  simp only [List.forall_mem_cons, List.not_mem_nil, false_imp_iff, implies_true, and_true]
  exact ⟨trivial, trivial, trivial, msg.gservers.plain_serialize⟩

/-- Every message of the user service that is written to a text is read back from it. -/
theorem user_messages_round_trip (tooBig : Qstring → Bool) :
    (∀ msg : MsgRoomConfig, msg.Fits →
      MessageParser.parse tooBig MsgRoomConfig.deserialize
        (Json.getJsonString (.object msg.serialize)) = some msg) ∧
    (∀ msg : MsgRoomConfigList, msg.Fits →
      MessageParser.parse tooBig MsgRoomConfigList.deserialize (Json.getJsonString msg.serialize) =
        some msg) ∧
    (∀ msg : RqMsgUserBase, msg.Fits →
      MessageParser.parse tooBig RqMsgUserBase.deserialize
        (Json.getJsonString (.object msg.serialize)) = some msg) ∧
    (∀ msg : RqMsgUserGet, msg.Fits →
      MessageParser.parse tooBig RqMsgUserGet.deserialize
        (Json.getJsonString (.object msg.serialize)) = some msg) ∧
    (∀ msg : ResMsgUserBase, msg.Fits →
      MessageParser.parse tooBig ResMsgUserBase.deserialize
        (Json.getJsonString (.object msg.serialize)) = some msg) ∧
    (∀ msg : ResMsgUserGet, msg.Fits →
      MessageParser.parse tooBig ResMsgUserGet.deserialize
        (Json.getJsonString (.object msg.serialize)) = some msg) ∧
    (∀ msg : ResMsgGservers, msg.Fits →
      MessageParser.parse tooBig ResMsgGservers.deserialize (Json.getJsonString msg.serialize) =
        some msg) := by
  refine ⟨?_, ?_, ?_, ?_, ?_, ?_, ?_⟩
  · intro msg fits
    exact MessageParser.parse_getJsonString tooBig (MsgRoomConfig.plain_serialize fits)
      (MsgRoomConfig.deserialize_serialize msg fits)
  · intro msg fits
    exact MessageParser.parse_getJsonString tooBig (MsgRoomConfigList.plain_serialize fits)
      (MsgRoomConfigList.deserialize_serialize fits)
  · intro msg fits
    have decoded := RqMsgUserBase.deserialize_append fits []
    rw [List.append_nil] at decoded
    exact MessageParser.parse_getJsonString tooBig ⟨trivial, trivial, trivial⟩ decoded
  · intro msg fits
    refine MessageParser.parse_getJsonString tooBig ?_ (RqMsgUserGet.deserialize_serialize fits)
    exact ⟨trivial, trivial, ⟨trivial, trivial, trivial, trivial, trivial⟩, trivial⟩
  · intro msg fits
    have decoded : ResMsgUserBase.deserialize (.object (msg.serialize ++ [])) = some msg :=
      ResMsgUserBase.deserialize_append fits rfl
    rw [List.append_nil] at decoded
    exact MessageParser.parse_getJsonString tooBig (ResMsgUserBase.plain_serialize fits) decoded
  · intro msg fits
    exact MessageParser.parse_getJsonString tooBig (ResMsgUserGet.plain_serialize fits)
      (ResMsgUserGet.deserialize_serialize fits)
  · intro msg fits
    exact MessageParser.parse_getJsonString tooBig msg.plain_serialize
      (ResMsgGservers.deserialize_serialize fits)

/-- A user with one room configuration and a server with two ports. -/
theorem user_messages_round_trip_guest :
    let msg : ResMsgUserGet := {
      pid := literal "4a3f", roomList := some ⟨[{}]⟩, userName := literal "guest-\"4a3f\"",
      gservers := ⟨(∅ : ExtTreeMap Qstring (List Qstring)).insert (literal "10.0.0.7")
        [literal "5000", literal "5001"]⟩ }
    MessageParser.parse (fun _ => false) ResMsgUserGet.deserialize
      (Json.getJsonString (.object msg.serialize)) = some msg := by
  intro msg
  have rooms : ∀ list ∈ msg.roomList, MsgRoomConfigList.Fits list := by
    rintro list ⟨⟩
    constructor
    intro config inside
    obtain rfl := List.mem_singleton.mp inside
    constructor <;> decide
  have fits : msg.Fits := by
    refine
      { pid := by decide, roomList := rooms, lastLogin := by decide, userName := by decide,
        token := by decide, gservers := ?_ }
    constructor <;> decide +kernel
  exact (user_messages_round_trip fun _ => false).2.2.2.2.2.1 msg fits

end Gearsdk
