import Gearsdk.Http3Server.Answers
import Gearsdk.Serverconfig.Notifications

/-! A sample server while its configuration changes. The room configurations are deleted before
the new value of their node is parsed. -/
namespace Gearsdk
open Qstring Serverconfig Http3Server

namespace Http3SampleServer

/-- A server that has been initialised, with what it observes. -/
structure Configured where
  server : Http3SampleServer
  zkconfig : Configs := ∅

namespace Configured

def refreshRoomconfigMeta (c : Configured) : Except Http3Server.Fault Configured := do
  let roomConfigListStr := getString c.zkconfig (literal "gserver/roomconfig") []
  let roomConfigList :=
    MessageParser.parse c.server.tooBig MsgRoomConfigList.deserialize roomConfigListStr
  Http3Server.assertThat c.server.ndebug roomConfigList.isSome
  return { c with server := { c.server with roomConfigList } }

def configchanged (c : Configured) (path : Qstring) : Except Http3Server.Fault Configured :=
  if Qstring.compare path (literal "/qh3server/gserver/roomconfig") = 0 then c.refreshRoomconfigMeta
    else .ok c

/-- The observer hears of a change of a value that has been loaded. -/
def zkValueChangeListener (c : Configured) (path data : Qstring) :
    Except Http3Server.Fault Configured :=
  match tryUpdateValue c.zkconfig path data with
  | none => .ok c
  | some zkconfig => ({ c with zkconfig } : Configured).configchanged path

/-- A notification brings its path and its data as C strings. -/
def notified (c : Configured) (path data : Qstring) : Except Http3Server.Fault Configured :=
  c.zkValueChangeListener (cString path) (cString data)

/-- The answer to a request, with what the services answer by then. -/
def parse (c : Configured) (services : Http3SampleServer) (request response : ConnIoReqRes) :
    Http3Server.Handled :=
  ({ services with roomConfigList := c.server.roomConfigList } : Http3SampleServer).parse request response

/-- A notification leaves the room configurations, and each later request is answered as it
would have been without it. -/
def Harmless (c : Configured) (path data : Qstring) : Prop :=
  ∃ after, c.notified path data = .ok after ∧
    after.server.roomConfigList = c.server.roomConfigList ∧
    ∀ services request response, after.parse services request response =
      c.parse services request response

/-- A notification is for the node of the room configurations, and its value has been loaded. -/
def Refreshed (c : Configured) (path : Qstring) : Prop :=
  cString path = literal "/qh3server/gserver/roomconfig" ∧ literal "gserver/roomconfig" ∈ c.zkconfig

theorem configchanged_other (other : path ≠ literal "/qh3server/gserver/roomconfig")
    (clean : Clean path) (c : Configured) :
    c.configchanged path = .ok c := by
  have different : Qstring.compare path (literal "/qh3server/gserver/roomconfig") ≠ 0 := by
    rw [Ne, Qstring.compare_iff (by decide +kernel), cString_of_nul_free clean]
    exact other
  rw [configchanged, if_neg different]

theorem zkconfig_configchanged (handled : configchanged c path = .ok after) :
    after.zkconfig = c.zkconfig := by
  rw [configchanged] at handled
  split at handled
  · rw [refreshRoomconfigMeta] at handled
    cases built : Http3Server.assertThat c.server.ndebug
        (MessageParser.parse c.server.tooBig MsgRoomConfigList.deserialize
          (getString c.zkconfig (literal "gserver/roomconfig") [])).isSome with
    | error fault =>
      rw [built] at handled
      contradiction
    | ok =>
      rw [built] at handled
      rw [← Except.ok.inj handled]
  · rw [Except.ok.inj handled]

/-- The values change as they do where nothing observes them. -/
theorem zkconfig_listener (handled : zkValueChangeListener c path data = .ok after) :
    after.zkconfig = Serverconfig.zkValueChangeListener c.zkconfig path data := by
  rw [zkValueChangeListener] at handled
  rw [Serverconfig.zkValueChangeListener]
  split at handled
  · rename_i kept
    rw [kept, ← Except.ok.inj handled]
    rfl
  · rename_i zkconfig updated
    rw [updated, zkconfig_configchanged handled]
    rfl

/-- The new value is what is parsed. -/
theorem notified_refreshed (c : Configured) (reached : c.Refreshed path) (data : Qstring) :
    c.notified path data =
      (Http3Server.assertThat c.server.ndebug
        (MessageParser.parse c.server.tooBig MsgRoomConfigList.deserialize
          (cString data)).isSome).map fun _ =>
          { server := { c.server with
              roomConfigList := MessageParser.parse c.server.tooBig MsgRoomConfigList.deserialize
                (cString data) }
            zkconfig := c.zkconfig.insert (literal "gserver/roomconfig") (cString data) } := by
  obtain ⟨same, loaded⟩ := reached
  have key : keyOf (literal "/qh3server/gserver/roomconfig") = literal "gserver/roomconfig" := by
    decide +kernel
  have heard : Qstring.compare (literal "/qh3server/gserver/roomconfig")
      (literal "/qh3server/gserver/roomconfig") = 0 := by
    decide +kernel
  have text : getString (c.zkconfig.insert (literal "gserver/roomconfig") (cString data))
    (literal "gserver/roomconfig") [] =
      cString data := by
    simp only [getString, OrderedMap.lookup_insert, if_true]
  simp only [notified, same, zkValueChangeListener, tryUpdateValue, key, loaded, if_true,
    configchanged, heard, refreshRoomconfigMeta, text]
  cases Http3Server.assertThat c.server.ndebug
    (MessageParser.parse c.server.tooBig MsgRoomConfigList.deserialize (cString data)).isSome <;>
      rfl

/-- Every other notification is a matter of the values alone. -/
theorem notified_passed (c : Configured) (passed : ¬ c.Refreshed path) (data : Qstring) :
    ∃ zkconfig, c.notified path data = .ok { c with zkconfig } := by
  simp only [notified, zkValueChangeListener, tryUpdateValue]
  split
  · exact ⟨c.zkconfig, rfl⟩
  · rename_i zkconfig updated
    refine ⟨zkconfig, configchanged_other (fun same => passed ⟨same, ?_⟩) (cString_clean path) _⟩
    have key : keyOf (literal "/qh3server/gserver/roomconfig") = literal "gserver/roomconfig" := by
      decide +kernel
    rw [same, key] at updated
    by_contra absent
    simp [absent] at updated

/-- A value that does not parse harms wherever it is parsed at all. -/
theorem harmless_iff_passed (c : Configured) (loaded : c.server.roomConfigList = some list)
    (bad : MessageParser.parse c.server.tooBig MsgRoomConfigList.deserialize (cString data) = none) :
    c.Harmless path data ↔ ¬ c.Refreshed path := by
  constructor
  · rintro ⟨after, handled, kept, _⟩ reached
    rw [c.notified_refreshed reached, bad] at handled
    cases built : Http3Server.assertThat c.server.ndebug (none : Option MsgRoomConfigList).isSome with
    | error fault =>
      rw [built] at handled
      contradiction
    | ok =>
      rw [built] at handled
      obtain rfl := Except.ok.inj handled
      rw [loaded] at kept
      contradiction
  · intro passed
    obtain ⟨zkconfig, handled⟩ := c.notified_passed passed data
    exact ⟨_, handled, rfl, fun _ _ _ => rfl⟩

/-- A server with an empty list of room configurations, built without assertions. -/
def emptyList : Configured where
  server := { plainServer with ndebug := true, roomConfigList := some {} }
  zkconfig := (∅ : Configs).insert (literal "gserver/roomconfig") (literal "[]")

theorem otherNode_harmless :
    emptyList.server.roomConfigList = some {} ∧
      MessageParser.parse emptyList.server.tooBig MsgRoomConfigList.deserialize
        (cString (literal "[")) = none ∧
      emptyList.Harmless (literal "/qh3router/gserver/roomconfig") (literal "[") := by
  have bad : MessageParser.parse emptyList.server.tooBig MsgRoomConfigList.deserialize
      (cString (literal "[")) = none := by
    have unread : (MessageParser.parse emptyList.server.tooBig MsgRoomConfigList.deserialize
      (cString (literal "["))).isNone =
        true := by decide +kernel
    exact Option.isNone_iff_eq_none.mp unread
  have elsewhere : cString (literal "/qh3router/gserver/roomconfig") ≠
      literal "/qh3server/gserver/roomconfig" := by
    decide +kernel
  exact ⟨rfl, bad, (harmless_iff_passed emptyList rfl bad).mpr fun reached => elsewhere reached.1⟩

/-- A login of a device that names itself. -/
def userGet : ConnIoReqRes :=
  { (({} : ConnIoReqRes).addHeaders [(literal ":path", literal "/user_get")]) with
    data := literal ("\x7b\"device\":\x7b\"sys_name\":\"s\",\"node_name\":\"n\"," ++
      "\"release\":\"r\",\"arch\":\"a\"\x7d\x7d") }

def faultOf : Except Http3Server.Fault α → Option Http3Server.Fault
  | .error fault => some fault
  | .ok _ => none

theorem ok_of_toOption {result : Except ε α} (found : result.toOption = some value) :
    result = .ok value := by
  cases result with
  | error => contradiction
  | ok => exact congrArg Except.ok (Option.some.inj found)

/-- After a list that does not end, the next login follows a null pointer. -/
theorem unfinished_list_harms :
    (∃ after, emptyList.notified (literal "/qh3server/gserver/roomconfig") (literal "[") = .ok after ∧
      after.server.roomConfigList = none ∧
      faultOf (emptyList.parse emptyList.server userGet {}) = none ∧
      faultOf (after.parse emptyList.server userGet {}) = some .nullDereference) ∧
      ¬ emptyList.Harmless (literal "/qh3server/gserver/roomconfig") (literal "[") := by
  have seen : (emptyList.notified (literal "/qh3server/gserver/roomconfig")
    (literal "[")).toOption.map (fun after =>
      (after.server.roomConfigList.isNone, faultOf (after.parse emptyList.server userGet {}))) =
      some (true, some .nullDereference) := by decide +kernel
  have before : faultOf (emptyList.parse emptyList.server userGet {}) = none := by decide +kernel
  obtain ⟨after, found, same⟩ := Option.map_eq_some_iff.mp seen
  have handled := ok_of_toOption found
  obtain ⟨lost, faults⟩ := Prod.mk.inj same
  refine ⟨⟨after, handled, Option.isNone_iff_eq_none.mp lost, before, faults⟩, ?_⟩
  rintro ⟨other, again, kept, _⟩
  obtain rfl := Except.ok.inj (handled.symm.trans again)
  exact (Option.some_ne_none ({} : MsgRoomConfigList)).symm
    ((Option.isNone_iff_eq_none.mp lost).symm.trans kept)

end Configured
end Http3SampleServer
end Gearsdk
