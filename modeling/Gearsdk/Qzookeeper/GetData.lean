import Gearsdk.Qzookeeper
import Gearsdk.Responder

/-! What `get_data` gives to its callers. A value comes to the caller through a member that
all calls share, and a reply without a value leaves the member as it is. -/
namespace Gearsdk.Qzookeeper
open Zookeeper Qstring

/-- A node has no value if it was created without one. A failure comes without a value. -/
inductive Reply where
  | success (value : Option Qstring)
  | failure (rc : Int)

namespace Reply

def rc : Reply → Int
  | success _ => zok
  | failure rc => rc

def value : Reply → Option Qstring
  | success value => value
  | failure _ => none

end Reply

/-- A call with the connection as the caller finds it and the reply, if the call comes to ask. -/
structure DataCall where
  zh : Option Handle
  connectionState : Option ConnectionState
  zkPath : Qstring
  defaultValue : Qstring
  reply : Reply

/-- The return value of a call that does not come to ask. -/
def DataCall.refusal (call : DataCall) : Option Int :=
  match call.zh with
  | none => some (-1)
  | some h => if call.connectionState ≠ some .connected then some (-2)
    else if h.isUnrecoverable then some (-1) else none

/-- `get_data` with the wait for the reply: the return value and the result. -/
def callGetData (zk : Qzookeeper) (call : DataCall) : Qzookeeper × Int × Qstring :=
  match getData { zk with zh := call.zh, connectionState := call.connectionState } call.zkPath with
  | (zk, some rc) => (zk, rc, cString call.defaultValue)
  | (zk, none) =>
      let zk := zk.myDataCompletion call.reply.rc call.reply.value
      (zk, zk.opResult, cString zk.getResult)

def dataReader : Responder Qzookeeper DataCall (Int × Qstring) where
  init := {}
  call := callGetData

/-- Each call is answered by its own reply. The last value that was read is remembered
and not used. -/
def ownReplies : Responder Qstring DataCall (Int × Qstring) where
  init := []
  call last call :=
    match call.refusal with
    | some rc => (last, rc, call.defaultValue)
    | none =>
        ((call.reply.value.map cString).getD last, call.reply.rc, call.reply.value.getD call.defaultValue)

/-- A call that asks is answered with a value, or else wants the last value for its default. No
text that is copied has a NUL. -/
structure Own (last : Qstring) (call : DataCall) : Prop where
  refused : call.refusal ≠ none → Clean call.defaultValue
  valued : call.refusal = none → ∀ value, call.reply.value = some value → Clean value
  unvalued : call.refusal = none → call.reply.value = none → last = call.defaultValue

/-- No call is under way, and the shared member has the last value. -/
structure Remembers (zk : Qzookeeper) (last : Qstring) : Prop where
  free : zk.opInProgress = false
  result : zk.getResult = last
  clean : Clean last

variable {zk : Qzookeeper} {last : Qstring}

/-- What a call leaves of the client, and what it is answered. -/
theorem callGetData_spec (free : zk.opInProgress = false) (call : DataCall) :
    (∃ rc opResult, call.refusal = some rc ∧
      callGetData zk call = ({ zk with zh := call.zh, connectionState := call.connectionState, opResult },
        rc, cString call.defaultValue)) ∨
    call.refusal = none ∧ ∃ zh,
      callGetData zk call =
        ({ zk with
            zh, connectionState := call.connectionState, opInProgress := false, opResult :=
              call.reply.rc
            getResult := (call.reply.value.map cString).getD zk.getResult },
          call.reply.rc, cString ((call.reply.value.map cString).getD zk.getResult)) := by
  obtain ⟨zh, connectionState, zkPath, defaultValue, reply⟩ := call
  cases zh with
  | none => exact .inl ⟨-1, zk.opResult, rfl, rfl⟩
  | some h =>
    by_cases connected : connectionState = some .connected
    · subst connected
      cases lost : h.isUnrecoverable with
      | true =>
        refine .inl ⟨-1, -1, by simp [DataCall.refusal, lost], ?_⟩
        simp [callGetData, getData, free, lost]
      | false =>
        refine .inr ⟨by simp [DataCall.refusal, lost], some { h with asked := some zkPath }, ?_⟩
        simp [callGetData, getData, free, lost, myDataCompletion]
    · refine .inl ⟨-2, zk.opResult, by simp [DataCall.refusal, connected], ?_⟩
      simp [callGetData, getData, connected]

theorem Remembers.kept_clean (remembers : zk.Remembers last) (value : Option Qstring) :
    Clean ((value.map cString).getD last) := by
  cases value with
  | none => exact remembers.clean
  | some value => exact cString_clean value

theorem Remembers.answer_iff (remembers : zk.Remembers last) (call : DataCall) :
    (dataReader.call zk call).2 = (ownReplies.call last call).2 ↔ Own last call := by
  rcases callGetData_spec remembers.free call with ⟨rc, opResult, refused, spec⟩ | ⟨asked, zh, spec⟩
  · have same : Own last call ↔ Clean call.defaultValue := by
      refine ⟨fun own => own.refused (by rw [refused]; exact Option.some_ne_none rc),
        fun clean => ⟨fun _ => clean, ?_, ?_⟩⟩
      all_goals
        intro asked
        rw [refused] at asked
        contradiction
    simp only [dataReader, ownReplies, spec, refused, same, Prod.mk.injEq, true_and,
      cString_eq_self_iff]
  · simp only [dataReader, ownReplies, spec, asked, remembers.result, Prod.mk.injEq, true_and]
    cases replied : call.reply.value with
    | none =>
      simp only [Option.map_none, Option.getD_none, cString_of_nul_free remembers.clean]
      refine ⟨fun same => ⟨fun refused => absurd asked refused, ?_, fun _ _ => same⟩,
        fun own => own.unvalued asked replied⟩
      intro _ value valued
      rw [replied] at valued
      contradiction
    | some value =>
      simp only [Option.map_some, Option.getD_some, cString_of_nul_free (cString_clean value),
        cString_eq_self_iff]
      constructor
      · intro clean
        refine ⟨fun refused => absurd asked refused, fun _ other valued => ?_, fun _ unvalued => ?_⟩
        · obtain rfl := Option.some.inj (replied.symm.trans valued)
          exact clean
        · rw [replied] at unvalued
          contradiction
      · intro own
        exact own.valued asked value replied

theorem Remembers.next (remembers : zk.Remembers last) (call : DataCall) :
    (dataReader.call zk call).1.Remembers (ownReplies.call last call).1 := by
  rcases callGetData_spec remembers.free call with ⟨rc, opResult, refused, spec⟩ | ⟨asked, zh, spec⟩
  · simp only [dataReader, ownReplies, spec, refused]
    exact ⟨remembers.free, remembers.result, remembers.clean⟩
  · simp only [dataReader, ownReplies, spec, asked]
    exact ⟨rfl, by rw [remembers.result], remembers.kept_clean _⟩

/-- Calls are answered by their own replies just as long as every call that is answered without a
value has the value that was read last for its default. -/
theorem getData_own_replies_iff (calls : List DataCall) :
    dataReader.answers calls = ownReplies.answers calls ↔
      ∀ before call later, calls = before ++ call :: later → Own (ownReplies.after before) call :=
  Responder.answers_eq_iff (R := Remembers) ⟨rfl, rfl, by decide⟩ (fun call remembers =>
    remembers.answer_iff call)
    (fun call remembers _ => remembers.next call) calls

/-- A node is read that has a value, then one that does not exist and one without a value. -/
def valuelessNodes : List DataCall :=
  let read (zkPath : String) (reply : Reply) : DataCall :=
    ⟨some { state := .connected }, some .connected, literal zkPath, literal "\x7b\x7d", reply⟩
  [read "/qh3server/game/name" (.success (some (literal "uno"))),
    read "/qh3server/game/mode" (.failure znonode), read "/qh3server/game/seats" (.success none)]

theorem valuelessNodes_stale :
    dataReader.answers valuelessNodes =
      [(zok, literal "uno"), (znonode, literal "uno"), (zok, literal "uno")] ∧
    ownReplies.answers valuelessNodes =
      [(zok, literal "uno"), (znonode, literal "\x7b\x7d"), (zok, literal "\x7b\x7d")] ∧
    dataReader.answers valuelessNodes ≠ ownReplies.answers valuelessNodes := by
  decide +kernel

end Gearsdk.Qzookeeper
