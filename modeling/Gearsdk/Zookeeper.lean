import Gearsdk.Qstring

/-! A ZooKeeper handle with one-shot watches. The watch of a node fires at the
first change after a read that armed it. What the library has for its completion
thread is delivered in order: reports of the connection, fired watches, and the
replies to asynchronous reads. -/
namespace Gearsdk.Zookeeper

inductive ConnectionState where
  | closed | connecting | associating | connected | readonly | expiredSession | authFailed | notConnected
  deriving DecidableEq

def zok : Int := 0
def zconnectionloss : Int := -4
def zoperationtimeout : Int := -7
def znonode : Int := -101
def zclosing : Int := -116

inductive Delivery where
  | session (state : ConnectionState)
  | changed (path : Qstring)
  | data (rc : Int) (value : Option Qstring)
  deriving DecidableEq

structure Handle where
  /-- The session, 0 before there is one. -/
  clientId : Nat := 0
  state : ConnectionState := .connecting
  watches : List Qstring := []
  /-- Watches that fired while the handle was not connected. -/
  missed : List Qstring := []
  /-- The read that is under way. -/
  asked : Option Qstring := none
  deliveries : List Delivery := []

namespace Handle

def isUnrecoverable (h : Handle) : Bool := h.state = .expiredSession || h.state = .authFailed

def arm (h : Handle) (path : Qstring) : Handle := { h with watches := h.watches.insert path }

/-- A node changes. A lost session has no watches at the service any more. -/
def change (h : Handle) (path : Qstring) : Handle :=
  if path ∈ h.watches ∧ ¬ h.isUnrecoverable then
    if h.state = .connected then
      { h with watches := h.watches.filter (· ≠ path), deliveries := h.deliveries ++ [.changed path] }
    else { h with watches := h.watches.filter (· ≠ path), missed := h.missed ++ [path] }
  else h

/-- The library gets the connection into another state. A session that is
resumed hears of the changes that it missed; a read that is under way fails with
the connection. -/
def report (h : Handle) (newId : Nat) : ConnectionState → Handle
  | .connected =>
      { h with
        clientId := if h.clientId = 0 then newId else h.clientId
        state := .connected
        missed := []
        deliveries := h.deliveries ++ .session .connected :: h.missed.map .changed }
  | state =>
      { h with
        state
        asked := none
        deliveries := h.deliveries ++
          .session state :: if h.asked.isSome then [.data zconnectionloss none] else [] }

/-- What a synchronous read returns, where `rc` is what the network makes of it. -/
def reply (h : Handle) (nodes : Qstring → Option Qstring) (path : Qstring) (rc : Int) : Int :=
  if rc ≠ zok then rc
  else if h.state ≠ .connected then zconnectionloss
  else if (nodes path).isNone then znonode
  else zok

/-- The service answers the read that is under way. -/
def serve (h : Handle) (nodes : Qstring → Option Qstring) (rc : Int) : Handle :=
  match h.asked with
  | none => h
  | some path =>
      let h := { h with asked := none }
      if h.reply nodes path rc = zok then
        { h.arm path with deliveries := h.deliveries ++ [.data zok (nodes path)] }
      else { h with deliveries := h.deliveries ++ [.data (h.reply nodes path rc) none] }

/-- A change of the node is on its way to the watcher. -/
def Fired (h : Handle) (path : Qstring) : Prop := .changed path ∈ h.deliveries ∨ path ∈ h.missed

def isData : Delivery → Bool
  | .data .. => true
  | _ => false

/-- How many reads are under way or wait to be completed. -/
def replies (h : Handle) : Nat := h.deliveries.countP isData + if h.asked.isSome then 1 else 0

variable {h : Handle} {target : ConnectionState} {path other : Qstring} {nodes : Qstring → Option Qstring}

@[simp] theorem state_change (h : Handle) (path : Qstring) : (h.change path).state = h.state := by
  simp only [change]
  split
  · split <;> rfl
  · rfl

@[simp] theorem asked_change (h : Handle) (path : Qstring) : (h.change path).asked = h.asked := by
  simp only [change]
  split
  · split <;> rfl
  · rfl

theorem missed_change (connected : h.state = .connected) (path : Qstring) :
    (h.change path).missed = h.missed := by
  simp only [change, connected, if_true]
  split <;> rfl

theorem data_change :
    .data rc value ∈ (h.change path).deliveries ↔ .data rc value ∈ h.deliveries := by
  simp only [change]
  split
  · split <;> simp
  · rfl

theorem replies_change (h : Handle) (path : Qstring) : (h.change path).replies = h.replies := by
  simp only [change, replies]
  split
  · split <;> simp [isData]
  · rfl

theorem Fired.change (fired : h.Fired other) (path : Qstring) : (h.change path).Fired other := by
  simp only [Handle.change]
  split
  · split
    · exact fired.imp (List.mem_append_left _) id
    · exact fired.imp id (List.mem_append_left _)
  · exact fired

/-- An armed watch fires. -/
theorem fired_change (armed : path ∈ h.watches) (alive : ¬ h.isUnrecoverable) :
    (h.change path).Fired path := by
  rw [change, if_pos ⟨armed, alive⟩]
  split
  · exact .inl (List.mem_append_right _ List.mem_cons_self)
  · exact .inr (List.mem_append_right _ List.mem_cons_self)

theorem report_eq (h : Handle) (newId : Nat) (other : target ≠ .connected) :
    h.report newId target =
      { h with
        state := target
        asked := none
        deliveries := h.deliveries ++
          .session target :: if h.asked.isSome then [.data zconnectionloss none] else [] } := by
  cases target with
  | connected => exact absurd rfl other
  | closed | connecting | associating | readonly | expiredSession | authFailed | notConnected => rfl

theorem Fired.report (fired : h.Fired path) (newId : Nat) (target : ConnectionState) :
    (h.report newId target).Fired path := by
  by_cases connected : target = .connected
  · subst connected
    refine .inl (List.mem_append.mpr (fired.imp id fun missed => ?_))
    exact List.mem_cons_of_mem _ (List.mem_map_of_mem missed)
  · rw [report_eq h newId connected]
    exact fired.imp (List.mem_append_left _) id

theorem data_report (member : .data zok value ∈ (h.report newId target).deliveries) :
    .data zok value ∈ h.deliveries := by
  by_cases connected : target = .connected
  · subst connected
    simpa [report] using member
  · rw [report_eq h newId connected] at member
    dsimp only at member
    split at member <;> simpa [zok, zconnectionloss] using member

theorem replies_report (h : Handle) (newId : Nat) (target : ConnectionState) :
    (h.report newId target).replies = h.replies := by
  by_cases connected : target = .connected
  · subst connected
    have events : (h.missed.map Delivery.changed).countP isData = 0 := by
      simp [isData, Function.comp_def]
    change (h.deliveries ++ Delivery.session .connected ::
      h.missed.map Delivery.changed).countP isData + _ = _
    rw [List.countP_append, List.countP_cons, events]
    rfl
  · rw [report_eq h newId connected]
    cases asked : h.asked <;> simp [replies, isData, List.countP_cons, asked]

theorem missed_report (newId : Nat) (connected : (h.report newId target).state = .connected) :
    (h.report newId target).missed = [] := by
  by_cases same : target = .connected
  · subst same
    rfl
  · rw [report_eq h newId same] at connected
    exact absurd connected same

theorem asked_report (asked : (h.report newId target).asked = some path) : h.asked = some path := by
  by_cases connected : target = .connected
  · subst connected
    exact asked
  · rw [report_eq h newId connected] at asked
    cases asked

theorem not_asked (free : h.replies = 0) : h.asked = none := by
  cases asked : h.asked with
  | none => rfl
  | some path => simp [replies, asked] at free

theorem no_data (free : h.replies = 0) : .data rc value ∉ h.deliveries := by
  intro member
  have counted : h.deliveries.countP isData ≤ 0 := Nat.le_of_add_right_le (Nat.le_of_eq free)
  exact absurd rfl (List.countP_eq_zero.mp (Nat.le_zero.mp counted) _ member)

theorem reply_zok (read : h.reply nodes path rc = zok) :
    rc = zok ∧ h.state = .connected ∧ ∃ value, nodes path = some value := by
  simp only [reply] at read
  split at read
  · rename_i failed
    exact absurd read failed
  · rename_i ok
    split at read
    · cases read
    · rename_i connected
      split at read
      · cases read
      · rename_i present
        refine ⟨Classical.not_not.mp ok, Classical.not_not.mp connected, ?_⟩
        exact Option.ne_none_iff_exists'.mp (by simpa using present)

/-- The reply that a read gets. -/
theorem serve_eq (asked : h.asked = some path) (nodes : Qstring → Option Qstring) (rc : Int) :
    ∃ watches code value, h.serve nodes rc =
        { h with asked := none, watches, deliveries := h.deliveries ++ [.data code value] } ∧
      (code = zok → rc = zok ∧ value = nodes path ∧ value.isSome) := by
  have state : ({ h with asked := none } : Handle).reply nodes path rc = h.reply nodes path rc :=
    rfl
  simp only [serve, asked, state]
  split
  · rename_i read
    obtain ⟨rfl, -, value, found⟩ := reply_zok read
    exact ⟨_, _, _, rfl, fun _ => ⟨rfl, rfl, by simp [found]⟩⟩
  · rename_i failed
    exact ⟨_, _, _, rfl, fun ok => absurd ok failed⟩

theorem serve_idle (idle : h.asked = none) (nodes : Qstring → Option Qstring) (rc : Int) :
    h.serve nodes rc = h := by
  simp only [serve, idle]

theorem replies_serve (h : Handle) (nodes : Qstring → Option Qstring) (rc : Int) :
    (h.serve nodes rc).replies = h.replies := by
  cases asked : h.asked with
  | none => rw [serve_idle asked]
  | some path =>
    obtain ⟨watches, code, value, served, -⟩ := serve_eq asked nodes rc
    simp [served, replies, isData, List.countP_cons, asked]

end Handle
end Gearsdk.Zookeeper
