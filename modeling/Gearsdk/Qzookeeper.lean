import Gearsdk.Serverconfig
import Gearsdk.Zookeeper

/-! The ZooKeeper client of a server with the configuration that listens to it.
The callbacks run on the completion thread of the handle, the reads of the
loading thread wait for them. -/
namespace Gearsdk
open Zookeeper Serverconfig

structure Qzookeeper where
  zh : Option Handle := some {}
  myid : Nat := 0
  connectionState : Option ConnectionState := none
  retryCount : Nat := 0
  running : Bool := true
  pendingConfigUpdates : List Qstring := []
  opInProgress : Bool := false
  opResult : Int := 0
  getResult : Qstring := []

namespace Qzookeeper

def qzkMaxRetriesForApi : Nat := 5

def sizeofBuffer : Nat := 4 * 1024

/-- Only a timeout is tried again. -/
def retryWithBackoff (operation : Nat → Int) : (left attempt : Nat) → Int
  | 0, _ => zoperationtimeout
  | left + 1, attempt =>
      let rc := operation attempt
      if rc = zok then zok
      else if rc = zoperationtimeout then retryWithBackoff operation left (attempt + 1)
      else rc

/-- What the watcher reads of a node: as much as fits its buffer. -/
def buffer (nodes : Qstring → Option Qstring) (path : Qstring) : Qstring :=
  ((nodes path).getD []).take sizeofBuffer

def readWithBackoff (nodes : Qstring → Option Qstring) (h : Handle) (path : Qstring)
    (rcs : Nat → Int) : Int :=
  retryWithBackoff (fun attempt => h.reply nodes path (rcs attempt)) qzkMaxRetriesForApi 0

/-- A read of the watcher, which arms the watch of the node again. -/
def zooWget (nodes : Qstring → Option Qstring) (h : Handle) (path : Qstring) (rcs : Nat → Int) :
    Int × Handle × Qstring :=
  let rc := readWithBackoff nodes h path rcs
  if rc = zok then (rc, h.arm path, buffer nodes path) else (rc, h, [])

def broadcastValueChangeToAll (configs : Configs) (path data : Qstring) : Configs :=
  zkValueChangeListener configs path (Qstring.cString data)

def myDataCompletion (zk : Qzookeeper) (rc : Int) (value : Option Qstring) : Qzookeeper :=
  { zk with
    getResult := (value.map Qstring.cString).getD zk.getResult
    opResult := rc
    opInProgress := false }

/-- A read that is under way is completed when its handle is closed. -/
def closeZk (zk : Qzookeeper) : Qzookeeper :=
  match zk.zh with
  | none => zk
  | some _ =>
      let zk := if zk.opInProgress then zk.myDataCompletion zclosing none else zk
      { zk with zh := none }

def retryConnection (zk : Qzookeeper) : Qzookeeper :=
  match zk.zh with
  | some _ => zk
  | none =>
      let useFresh := zk.connectionState = some .expiredSession ∨
        zk.connectionState = some .authFailed ∨
        zk.connectionState = some .notConnected
      { zk with retryCount := zk.retryCount + 1,
                zh := some { clientId := if useFresh then 0 else zk.myid } }

def isServing (zk : Qzookeeper) : Prop :=
  zk.connectionState = some .connecting ∨ zk.connectionState = some .associating ∨
    zk.connectionState = some .connected

instance (zk : Qzookeeper) : Decidable zk.isServing := inferInstanceAs (Decidable (_ ∨ _))

/-- The timer of the connection thread. -/
def connectionCheck (zk : Qzookeeper) : Qzookeeper :=
  if zk.isServing then zk
  else
    let zk := zk.closeZk
    if zk.retryCount < 5 then zk.retryConnection else { zk with running := false }

/-- The pending paths are read one after the other until a read fails. -/
def updatePending (nodes : Qstring → Option Qstring) (rcs : Nat → Nat → Int) :
    (paths : List Qstring) → (i : Nat) → Handle → Configs → Bool × Handle × Configs
  | [], _, h, configs => (true, h, configs)
  | path :: rest, i, h, configs =>
      let (rc, h, data) := zooWget nodes h path (rcs i)
      if rc = zok then
        updatePending nodes rcs rest (i + 1) h (broadcastValueChangeToAll configs path data)
      else (false, h, configs)

/-- `watcher` for a session event. -/
def watcherSession (nodes : Qstring → Option Qstring) (rcs : Nat → Nat → Int) (h : Handle)
    (state : ConnectionState) (zk : Qzookeeper) (configs : Configs) : Qzookeeper × Configs :=
  let zk := { zk with connectionState := some state, zh := some h }
  match state with
  | .connected =>
      if zk.myid = 0 ∨ zk.myid ≠ h.clientId then
        let zk := { zk with myid := h.clientId }
        let (applied, h, configs) := updatePending nodes rcs zk.pendingConfigUpdates 0 h configs
        let zk := { zk with zh := some h }
        if applied then ({ zk with pendingConfigUpdates := [], retryCount := 0 }, configs)
        else (zk.closeZk, configs)
      else (zk, configs)
  | .authFailed | .expiredSession => (zk.closeZk, configs)
  | _ => (zk, configs)

/-- `watcher` for a changed node. -/
def watcherChanged (nodes : Qstring → Option Qstring) (rcs : Nat → Int) (h : Handle)
    (path : Qstring) (zk : Qzookeeper) (configs : Configs) : Qzookeeper × Configs :=
  let zk := { zk with connectionState := some .connected }
  let (rc, h, data) := zooWget nodes h path rcs
  if rc = zok then ({ zk with zh := some h }, broadcastValueChangeToAll configs path data)
  else ({ zk with zh := some h, pendingConfigUpdates := zk.pendingConfigUpdates ++ [path] }, configs)

/-- The completion thread runs the first callback of its handle. -/
def deliver (nodes : Qstring → Option Qstring) (rcs : Nat → Nat → Int) (zk : Qzookeeper)
    (configs : Configs) :
    Qzookeeper × Configs :=
  match zk.zh with
  | none => (zk, configs)
  | some h =>
      match h.deliveries with
      | [] => (zk, configs)
      | .session state :: rest =>
        watcherSession nodes rcs { h with deliveries := rest } state zk configs
      | .changed path :: rest =>
        watcherChanged nodes (rcs 0) { h with deliveries := rest } path zk configs
      | .data rc value :: rest =>
        ({ zk with zh := some { h with deliveries := rest } }.myDataCompletion rc value, configs)

/-- The part of `get_data` before it waits, with what it returns if it does not
come to wait. -/
def getData (zk : Qzookeeper) (zkPath : Qstring) : Qzookeeper × Option Int :=
  match zk.zh with
  | none => (zk, some (-1))
  | some h =>
      if zk.connectionState ≠ some .connected then (zk, some (-2))
      else if zk.opInProgress then (zk, some (-5))
      else
        let zk := { zk with opInProgress := true, opResult := -1 }
        if h.isUnrecoverable then ({ zk with opInProgress := false }, some (-1))
        else ({ zk with zh := some { h with asked := some zkPath } }, none)

/-- The pending paths up to the first that cannot be read. -/
def readsPending (nodes : Qstring → Option Qstring) (rcs : Nat → Nat → Int) (h : Handle) :
    (paths : List Qstring) → (i : Nat) → List Qstring
  | [], _ => []
  | path :: rest, i =>
    if readWithBackoff nodes h path (rcs i) = zok then path :: readsPending nodes rcs h rest (i + 1)
      else []

def isNewSession (zk : Qzookeeper) (h : Handle) : Bool := zk.myid = 0 || zk.myid ≠ h.clientId

/-- The nodes that the next callback reads. -/
def reads (nodes : Qstring → Option Qstring) (rcs : Nat → Nat → Int) (zk : Qzookeeper)
    (h : Handle) : List Qstring :=
  match h.deliveries with
  | .changed path :: _ => if readWithBackoff nodes h path (rcs 0) = zok then [path] else []
  | .session .connected :: _ =>
      if zk.isNewSession h then readsPending nodes rcs h zk.pendingConfigUpdates 0 else []
  | _ => []

/-- Whether the next callback closes the handle. -/
def closes (nodes : Qstring → Option Qstring) (rcs : Nat → Nat → Int) (zk : Qzookeeper)
    (h : Handle) : Bool :=
  match h.deliveries with
  | .session .authFailed :: _ | .session .expiredSession :: _ => true
  | .session .connected :: _ => zk.isNewSession h && reads nodes rcs zk h ≠ zk.pendingConfigUpdates
  | _ => false

def refresh (nodes : Qstring → Option Qstring) (paths : List Qstring) (configs : Configs) :
    Configs :=
  paths.foldl (fun configs path => broadcastValueChangeToAll configs path (buffer nodes path)) configs

variable {nodes : Qstring → Option Qstring} {rcs : Nat → Nat →
  Int} {h : Handle} {zk : Qzookeeper} {configs : Configs}
  {path : Qstring} {first : Delivery} {rest : List Delivery}

theorem retryWithBackoff_zok {operation : Nat → Int}
    (read : retryWithBackoff operation left attempt = zok) :
    ∃ i, operation i = zok := by
  induction left generalizing attempt with
  | zero => cases read
  | succ left ih =>
    simp only [retryWithBackoff] at read
    split at read
    · exact ⟨attempt, ‹_›⟩
    · split at read
      · exact ih read
      · contradiction

theorem readWithBackoff_zok (read : readWithBackoff nodes h path once = zok) :
    h.state = .connected ∧ ∃ value, nodes path = some value := by
  obtain ⟨attempt, replied⟩ := retryWithBackoff_zok read
  exact (Handle.reply_zok replied).2

/-- What reads return depends on the state of the connection alone. -/
theorem readWithBackoff_congr (h' h : Handle) (same : h'.state = h.state) (path : Qstring)
    (once : Nat → Int) :
    readWithBackoff nodes h' path once = readWithBackoff nodes h path once := by
  simp only [readWithBackoff, Handle.reply, same]

theorem readsPending_congr (h' h : Handle) (same : h'.state = h.state) (paths : List Qstring)
    (i : Nat) :
    readsPending nodes rcs h' paths i = readsPending nodes rcs h paths i := by
  induction paths generalizing i with
  | nil => rfl
  | cons path rest ih => simp only [readsPending, readWithBackoff_congr h' h same, ih]

theorem updatePending_spec (nodes : Qstring → Option Qstring) (rcs : Nat → Nat → Int)
    (paths : List Qstring) (i : Nat) (h : Handle) (configs : Configs) :
    ∃ watches, updatePending nodes rcs paths i h configs =
      (decide (readsPending nodes rcs h paths i = paths), { h with watches },
        refresh nodes (readsPending nodes rcs h paths i) configs) := by
  induction paths generalizing i h configs with
  | nil => exact ⟨h.watches, rfl⟩
  | cons path rest ih =>
    simp only [updatePending, readsPending, zooWget]
    by_cases read : readWithBackoff nodes h path (rcs i) = zok
    · simp only [read, if_true]
      obtain ⟨watches, spec⟩ :=
        ih (i + 1) (h.arm path) (broadcastValueChangeToAll configs path (buffer nodes path))
      refine ⟨watches, spec.trans ?_⟩
      have same : readsPending nodes rcs (h.arm path) rest (i + 1) =
        readsPending nodes rcs h rest (i + 1) :=
        readsPending_congr (h.arm path) h rfl ..
      simp only [same, List.cons.injEq, true_and]
      rfl
    · simp only [read, if_false]
      exact ⟨h.watches, by simp [refresh]⟩

theorem readsPending_value (member : path ∈ readsPending nodes rcs h paths i) :
    ∃ value, nodes path = some value := by
  induction paths generalizing i with
  | nil => cases member
  | cons first rest ih =>
    simp only [readsPending] at member
    split at member
    · rcases List.mem_cons.mp member with rfl | later
      · exact (readWithBackoff_zok ‹_›).2
      · exact ih later
    · cases member

theorem reads_value (member : path ∈ reads nodes rcs zk h) : ∃ value, nodes path = some value := by
  simp only [reads] at member
  split at member
  · split at member
    · obtain rfl := List.mem_singleton.mp member
      exact (readWithBackoff_zok ‹_›).2
    · cases member
  · split at member
    · exact readsPending_value member
    · cases member
  · cases member

/-- A key comes out of a refresh with what was read last for it, or untouched. -/
theorem lookup_refresh (found : (refresh nodes paths configs)[key]? = some value) :
    (∃ path ∈ paths, keyOf path = key ∧ key ∈ configs ∧ value = Qstring.cString (buffer nodes path)) ∨
      (∀ path ∈ paths, keyOf path ≠ key) ∧ configs[key]? = some value := by
  induction paths generalizing configs with
  | nil => exact .inr ⟨nofun, found⟩
  | cons first rest ih =>
    have kept : key ∈ broadcastValueChangeToAll configs first (buffer nodes first) →
        key ∈ configs := by
      simp only [OrderedMap.mem_iff_lookup, broadcastValueChangeToAll, lookup_listener]
      split
      · rintro ⟨value, mapped⟩
        obtain ⟨before, loaded, -⟩ := Option.map_eq_some_iff.mp mapped
        exact ⟨before, loaded⟩
      · exact id
    rcases ih found with ⟨path, member, own, loaded, read⟩ | ⟨other, untouched⟩
    · exact .inl ⟨path, List.mem_cons_of_mem _ member, own, kept loaded, read⟩
    · have found : (broadcastValueChangeToAll configs first (buffer nodes first))[key]? =
        some value := untouched
      rw [broadcastValueChangeToAll, lookup_listener] at found
      by_cases own : key = keyOf first
      · have loaded := kept (OrderedMap.mem_of_lookup untouched)
        rw [if_pos own] at found
        obtain ⟨_, -, read⟩ := Option.map_eq_some_iff.mp found
        exact .inl ⟨first, List.mem_cons_self, own.symm, loaded, read.symm⟩
      · rw [if_neg own] at found
        exact .inr ⟨List.forall_mem_cons.mpr ⟨Ne.symm own, other⟩, found⟩

theorem closeZk_some (found : zk.zh = some h) :
    closeZk zk =
      { zk with
        zh := none
        opInProgress := false
        opResult := if zk.opInProgress then zclosing else zk.opResult } := by
  simp only [closeZk, found]
  cases progress : zk.opInProgress with
  | false => simp [progress]
  | true => simp [myDataCompletion]

/-- What a closed handle leaves of a completed read. -/
theorem closeZk_read (done : (closeZk zk).opInProgress = false)
    (read : (closeZk zk).opResult = zok) :
    zk.opInProgress = false ∧ zk.opResult = zok := by
  cases found : zk.zh with
  | none =>
    simp only [closeZk, found] at done read
    exact ⟨done, read⟩
  | some h =>
    rw [closeZk_some found] at read
    cases progress : zk.opInProgress with
    | false => exact ⟨rfl, by simpa [progress] using read⟩
    | true => simp [progress, zclosing, zok] at read

theorem closeZk_kept (zk : Qzookeeper) :
    (closeZk zk).getResult = zk.getResult ∧
      (closeZk zk).pendingConfigUpdates = zk.pendingConfigUpdates := by
  cases found : zk.zh with
  | none => simp only [closeZk, found, and_self]
  | some h => simp only [closeZk_some found, and_self]

/-- A connection that is not serving gets a new handle, or none. -/
theorem connectionCheck_lost (lost : ¬ zk.isServing) :
    ∃ zh retryCount running, connectionCheck zk = { closeZk zk with zh, retryCount, running } ∧
      ∀ h ∈ zh, ∃ clientId, h = { clientId } := by
  have unopened : (closeZk zk).zh = none := by
    cases found : zk.zh with
    | none => simp only [closeZk, found]
    | some h => rw [closeZk_some found]
  rw [connectionCheck, if_neg lost]
  dsimp only
  split
  · simp only [retryConnection, unopened]
    refine ⟨_, _, _, rfl, ?_⟩
    rintro h ⟨⟩
    exact ⟨_, rfl⟩
  · refine ⟨(closeZk zk).zh, _, _, rfl, ?_⟩
    rw [unopened]
    exact nofun

/-- A read fails at once or is under way. -/
theorem getData_cases (free : zk.opInProgress = false) (path : Qstring) :
    (∃ code opResult, getData zk path = ({ zk with opResult }, some code)) ∨
      ∃ h ∈ zk.zh, getData zk path =
        ({ zk with opInProgress := true, opResult := -1, zh := some { h with asked := some path } },
          none) := by
  simp only [getData]
  split
  · exact .inl ⟨_, _, rfl⟩
  · rename_i h found
    split
    · exact .inl ⟨_, _, rfl⟩
    · simp only [free, Bool.false_eq_true, if_false]
      split
      · exact .inl ⟨_, _, by rw [← free]⟩
      · exact .inr ⟨h, found, rfl⟩

/-- A changed node is read again, or it is kept for the next session. -/
theorem deliver_changed (found : zk.zh = some h) (head : h.deliveries = .changed path :: rest)
    (nodes : Qstring → Option Qstring) (rcs : Nat → Nat → Int) (configs : Configs) :
    ∃ watches connectionState pendingConfigUpdates,
      deliver nodes rcs zk configs =
        ({ zk with zh := some { h with deliveries := rest, watches }, connectionState,
                   pendingConfigUpdates },
          refresh nodes (reads nodes rcs zk h) configs) ∧
      ∀ other, other ∈ zk.pendingConfigUpdates ∨ other = path →
        other ∈ pendingConfigUpdates ∨ other ∈ reads nodes rcs zk h := by
  have same : readWithBackoff nodes { h with deliveries := rest } path (rcs 0) =
      readWithBackoff nodes h path (rcs 0) :=
        readWithBackoff_congr { h with deliveries := rest } h rfl ..
  simp only [deliver, found, head, watcherChanged, zooWget, same, reads]
  by_cases read : readWithBackoff nodes h path (rcs 0) = zok
  · simp only [read, if_true]
    refine ⟨_, _, _, rfl, fun other pending => ?_⟩
    rcases pending with before | rfl
    · exact .inl before
    · exact .inr List.mem_cons_self
  · simp only [read, if_false]
    refine ⟨h.watches, _, _, rfl, fun other pending => .inl ?_⟩
    rcases pending with before | rfl
    · exact List.mem_append_left _ before
    · exact List.mem_append_right _ List.mem_cons_self

/-- A new session reads everything that is pending, or the handle is closed. -/
theorem deliver_connected (found : zk.zh = some h)
    (head : h.deliveries = .session .connected :: rest) (nodes : Qstring → Option Qstring)
    (rcs : Nat → Nat → Int) (configs : Configs) :
    (∃ watches connectionState myid retryCount pendingConfigUpdates,
      deliver nodes rcs zk configs =
        ({ zk with
            zh := some { h with deliveries := rest, watches }
            connectionState, myid, retryCount, pendingConfigUpdates },
          refresh nodes (reads nodes rcs zk h) configs) ∧
      ∀ other ∈ zk.pendingConfigUpdates, other ∈ pendingConfigUpdates ∨
        other ∈ reads nodes rcs zk h) ∨
    closes nodes rcs zk h = true ∧ ∃ connectionState myid,
      deliver nodes rcs zk configs =
        ({ zk with
            zh := none
            connectionState, myid
            opInProgress := false
            opResult := if zk.opInProgress then zclosing else zk.opResult },
          refresh nodes (reads nodes rcs zk h) configs) := by
  obtain ⟨watches, spec⟩ :=
    updatePending_spec nodes rcs zk.pendingConfigUpdates 0 { h with deliveries := rest } configs
  have same : readsPending nodes rcs { h with deliveries := rest } zk.pendingConfigUpdates 0 =
      readsPending nodes rcs h zk.pendingConfigUpdates 0 :=
    readsPending_congr { h with deliveries := rest } h rfl ..
  rw [same] at spec
  by_cases new : zk.myid = 0 ∨ zk.myid ≠ h.clientId
  · have session : zk.isNewSession h = true := by simpa [isNewSession] using new
    have pendingReads : reads nodes rcs zk h = readsPending nodes rcs h zk.pendingConfigUpdates 0 := by
      simp only [reads, head, session, if_true]
    rw [← pendingReads] at spec
    simp only [deliver, found, head, watcherSession, new, if_true, spec]
    by_cases applied : reads nodes rcs zk h = zk.pendingConfigUpdates
    · simp only [applied, decide_true, if_true]
      exact .inl ⟨watches, _, _, _, _, rfl, fun other pending => .inr pending⟩
    · simp only [applied, decide_false, Bool.false_eq_true, if_false]
      refine .inr ⟨?_, _, _, congrArg (·, _) (closeZk_some rfl)⟩
      simp only [closes, head, session, Bool.true_and, decide_eq_true_eq]
      exact applied
  · have none : reads nodes rcs zk h = [] := by
      have session : zk.isNewSession h = false := by simpa [isNewSession] using new
      simp only [reads, head, session, Bool.false_eq_true, if_false]
    simp only [deliver, found, head, watcherSession, new, if_false, none]
    exact .inl ⟨h.watches, _, _, _, _, rfl, fun other pending => .inl pending⟩

/-- A callback completes a read, or it keeps the handle with what it has read, or
it closes the handle. -/
theorem deliver_cases (found : zk.zh = some h) (head : h.deliveries = first :: rest)
    (nodes : Qstring → Option Qstring) (rcs : Nat → Nat → Int) (configs : Configs) :
    (∃ rc value, first = .data rc value ∧ deliver nodes rcs zk configs =
        (myDataCompletion { zk with zh := some { h with deliveries := rest } } rc value, configs)) ∨
      ((∃ watches connectionState myid retryCount pendingConfigUpdates,
          deliver nodes rcs zk configs =
            ({ zk with
                zh := some { h with deliveries := rest, watches }
                connectionState, myid, retryCount, pendingConfigUpdates },
              refresh nodes (reads nodes rcs zk h) configs) ∧
          ∀ path, path ∈ zk.pendingConfigUpdates ∨ first = .changed path →
            path ∈ pendingConfigUpdates ∨ path ∈ reads nodes rcs zk h) ∧
              ∀ rc value, first ≠ .data rc value) ∨
      closes nodes rcs zk h = true ∧ ∃ connectionState myid,
        deliver nodes rcs zk configs =
          ({ zk with
              zh := none
              connectionState, myid
              opInProgress := false
              opResult := if zk.opInProgress then zclosing else zk.opResult },
            refresh nodes (reads nodes rcs zk h) configs) := by
  cases first with
  | data rc value =>
    simp only [deliver, found, head]
    exact .inl ⟨rc, value, rfl, rfl⟩
  | changed path =>
    obtain ⟨watches, connectionState, pendingConfigUpdates, delivered, kept⟩ :=
      deliver_changed found head nodes rcs configs
    refine .inr (.inl ⟨⟨watches, connectionState, _, _, pendingConfigUpdates, delivered,
      fun other pending => kept other ?_⟩,
      fun _ _ other => nomatch other⟩)
    exact pending.imp id fun event => (Delivery.changed.inj event).symm
  | session state =>
    cases state with
    | authFailed | expiredSession =>
      refine .inr (.inr ⟨by simp only [closes, head], ?_⟩)
      simp only [deliver, found, head, watcherSession, reads]
      exact ⟨_, _, congrArg (·, _) (closeZk_some rfl)⟩
    | connected =>
      rcases deliver_connected found head nodes rcs configs with
        ⟨watches, connectionState, myid, retryCount, pendingConfigUpdates, delivered, kept⟩ | closed
      · have remembered : ∀ path, path ∈ zk.pendingConfigUpdates ∨
          Delivery.session .connected = .changed path →
            path ∈ pendingConfigUpdates ∨ path ∈ reads nodes rcs zk h :=
          fun path pending => kept path (pending.resolve_right fun other => nomatch other)
        exact .inr (.inl ⟨⟨watches, connectionState, myid, retryCount, pendingConfigUpdates,
          delivered, remembered⟩,
          fun _ _ other => nomatch other⟩)
      · exact .inr (.inr closed)
    | closed | connecting | associating | readonly | notConnected =>
      refine .inr (.inl ⟨?_, fun _ _ other => nomatch other⟩)
      simp only [deliver, found, head, watcherSession, reads]
      refine ⟨h.watches, _, _, _, _, rfl, fun other pending => .inl ?_⟩
      exact pending.resolve_right fun other => nomatch other

end Qzookeeper
end Gearsdk
