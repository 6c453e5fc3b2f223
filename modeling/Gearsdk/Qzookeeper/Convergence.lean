import Gearsdk.Qzookeeper.Runs

/-! Whether the configuration comes to hold the values of its nodes. A value that
was read stays right until its node changes; from then on the change has to be
on its way to the watcher, or to be remembered as pending. -/
namespace Gearsdk.Configuration
open Zookeeper Serverconfig Qzookeeper

/-- The client is connected, nothing is in flight and no retry is pending. -/
structure Quiet (s : State) : Prop where
  connected : ∃ h ∈ s.zk.zh, h.state = .connected ∧ h.asked = none ∧ h.deliveries = []
  observed : s.zk.connectionState = some .connected
  settled : s.zk.pendingConfigUpdates = []

def Loaded (s : State) (path value : Qstring) : Prop :=
  ∃ key, s.configs[key]? = some value ∧ s.origin key = some path

/-- Every loaded key holds the value of the node that it was loaded from. -/
def Current (s : State) : Prop := ∀ path value, Loaded s path value → s.nodes path = some value

def Converged (s : State) : Prop := Quiet s → Current s

/-- The value that the loading thread is about to store. -/
def InHand (s : State) (path value : Qstring) : Prop :=
  ∃ zkRootFolder key rest, s.loading = .waiting zkRootFolder key rest ∧ s.zk.opInProgress = false ∧
    s.zk.opResult = zok ∧ path = zkKey zkRootFolder key ∧ value = s.zk.getResult

/-- The value of a reply that the loading thread waits for. -/
def InFlight (s : State) (path value : Qstring) : Prop :=
  ∃ zkRootFolder key rest reply, s.loading = .waiting zkRootFolder key rest ∧
    (∃ h ∈ s.zk.zh, .data zok reply ∈ h.deliveries) ∧ path = zkKey zkRootFolder key ∧
    value = (reply.map Qstring.cString).getD s.zk.getResult

def Copy (s : State) (path value : Qstring) : Prop :=
  Loaded s path value ∨ InHand s path value ∨ InFlight s path value

def Outstanding (s : State) (path : Qstring) : Prop := ∃ h ∈ s.zk.zh, h.Fired path

def Armed (s : State) (path : Qstring) : Prop :=
  ∃ h ∈ s.zk.zh, path ∈ h.watches ∧ ¬ h.isUnrecoverable

/-- Why a copy may differ from its node: the change is on its way, or the read
that it led to is to be retried. -/
def Covered (s : State) (path value : Qstring) : Prop :=
  s.nodes path = some value ∨ Outstanding s path ∨ path ∈ s.zk.pendingConfigUpdates

def Tracked (s : State) : Prop := ∀ path value, Copy s path value → Covered s path value

/-- A read of the watcher brings all copies of the node up to date: the keys that
the path stands for are the ones that were loaded from it, the value fits the
buffer and has no NUL, and a value that the loading thread has yet to store is
not an older one. -/
structure Refreshes (s : State) (path : Qstring) : Prop where
  own : ∀ key ∈ s.configs, keyOf path = key ↔ s.origin key = some path
  whole : ∀ key ∈ s.configs, s.origin key = some path → ∀ value, s.nodes path = some value →
    Qstring.Clean value ∧ value.length ≤ sizeofBuffer
  stored : ∀ value, InHand s path value ∨ InFlight s path value → s.nodes path = some value ∨
    ∃ h ∈ s.zk.zh, .changed path ∈ h.deliveries.tail ∨ path ∈ h.missed

/-- No change of a node would be lost with the handle. -/
def Closable (s : State) : Prop :=
  ∀ path value, Loaded s path value ∨ InHand s path value → Outstanding s path →
    s.nodes path = some value ∨ path ∈ s.zk.pendingConfigUpdates

/-- What a step has to meet for the configuration to follow the nodes. -/
def Careful (s : State) : Event → Prop
  | .change path value => ∀ held, Copy s path held →
      held = value ∨ Armed s path ∨ Outstanding s path ∨ path ∈ s.zk.pendingConfigUpdates
  | .deliver rcs => ∀ h ∈ s.zk.zh,
      (∀ path ∈ reads s.nodes rcs s.zk h, Refreshes s path) ∧
        (closes s.nodes rcs s.zk h = true → Closable s)
  | .connectionCheck => ¬ s.zk.isServing → Closable s
  | .serve rc => rc = zok → ∀ h ∈ s.zk.zh, ∀ path, h.asked = some path →
    ∀ value, s.nodes path = some value →
      Qstring.Clean value
  | .report _ | .load .. | .getData | .resume => True

variable {s s' : State} {h : Handle} {nodes : Qstring → Option Qstring} {path value : Qstring}

theorem converged_of_tracked (orderly : Orderly s) (tracked : Tracked s) : Converged s := by
  intro quiet path value loaded
  obtain ⟨h, found, connected, -, empty⟩ := quiet.connected
  rcases tracked path value (.inl loaded) with current | outstanding | pending
  · exact current
  · obtain ⟨h', found', fired⟩ := outstanding
    obtain rfl := Option.some.inj (found'.symm.trans found)
    rw [Handle.Fired, empty, orderly.missed h' found connected] at fired
    simp at fired
  · rw [quiet.settled] at pending
    cases pending

/-- A step that leaves the nodes alone and loses no change. -/
theorem Tracked.frame (tracked : Tracked s)
    (copies : ∀ path value, Copy s' path value → Copy s path value) (nodes : s'.nodes = s.nodes)
    (outstanding : ∀ path, Outstanding s path → Outstanding s' path)
    (pending : s'.zk.pendingConfigUpdates = s.zk.pendingConfigUpdates) : Tracked s' := by
  intro path value copy
  rcases tracked path value (copies path value copy) with current | fired | retried
  · exact .inl (nodes ▸ current)
  · exact .inr (.inl (outstanding path fired))
  · exact .inr (.inr (pending ▸ retried))

theorem Tracked.init (nodes : Qstring → Option Qstring) : Tracked (machine nodes).init := by
  rintro path value (⟨key, found, -⟩ | ⟨_, _, _, ⟨⟩, -⟩ | ⟨_, _, _, _, ⟨⟩, -⟩)
  have empty : (∅ : Configs)[key]? = none := OrderedMap.lookup_empty key
  exact absurd (found.symm.trans empty) nofun

theorem Outstanding.map (outstanding : Outstanding s path) (f : Handle → Handle)
    (fired : ∀ h, h.Fired path → (f h).Fired path) (handle : s'.zk.zh = s.zk.zh.map f) :
    Outstanding s' path := by
  obtain ⟨h, found, before⟩ := outstanding
  exact ⟨f h, handle.trans (congrArg (Option.map f) found), fired h before⟩

/-- A node changes: its copies are covered by the watch that fires. -/
theorem Tracked.change (tracked : Tracked s) (careful : Careful s (.change path value)) :
    Tracked (next s (.change path value)) := by
  have fires : ∀ other, Outstanding s other → Outstanding (next s (.change path value)) other :=
    fun other before => before.map (·.change path) (fun h fired => fired.change path) rfl
  intro other held copy
  have copied : Copy s other held := by
    refine copy.imp id (Or.imp id ?_)
    rintro ⟨zkRootFolder, key, rest, reply, waits, ⟨h', found', member⟩, same⟩
    obtain ⟨h, found, rfl⟩ := Option.map_eq_some_iff.mp found'
    exact ⟨zkRootFolder, key, rest, reply, waits, ⟨h, found, Handle.data_change.mp member⟩, same⟩
  by_cases here : other = path
  · subst here
    rcases careful held copied with rfl | ⟨h, found, armed, alive⟩ | outstanding | pending
    · exact .inl (if_pos rfl)
    · exact .inr (.inl ⟨h.change other, congrArg (Option.map (Handle.change · other)) found,
        Handle.fired_change armed alive⟩)
    · exact .inr (.inl (fires other outstanding))
    · exact .inr (.inr pending)
  · rcases tracked other held copied with current | outstanding | pending
    · exact .inl ((if_neg here).trans current)
    · exact .inr (.inl (fires other outstanding))
    · exact .inr (.inr pending)

theorem Tracked.report (tracked : Tracked s) (target : ConnectionState) :
    Tracked (next s (.report target)) := by
  refine tracked.frame ?_ rfl ?_ rfl
  · intro path value copy
    refine copy.imp id (Or.imp id ?_)
    rintro ⟨zkRootFolder, key, rest, reply, waits, ⟨h', found', member⟩, same⟩
    obtain ⟨h, found, rfl⟩ := Option.map_eq_some_iff.mp found'
    exact ⟨zkRootFolder, key, rest, reply, waits, ⟨h, found, Handle.data_report member⟩, same⟩
  · intro path before
    exact before.map (·.report (s.lastId + 1) target) (fun h fired => fired.report _ target) rfl

/-- With the value of a reply the loading thread gets a right one. -/
theorem Tracked.serve (orderly : Orderly s) (tracked : Tracked s)
    (careful : Careful s (.serve rc)) :
    Tracked (next s (.serve rc)) := by
  have fires : ∀ path, Outstanding s path → Outstanding (next s (.serve rc)) path := by
    intro path before
    refine before.map (·.serve s.nodes rc) ?_ rfl
    intro h fired
    cases asks : h.asked with
    | none => rwa [Handle.serve_idle asks]
    | some asked =>
      obtain ⟨watches, code, reply, served, -⟩ := Handle.serve_eq asks s.nodes rc
      rw [served]
      exact fired.imp (List.mem_append_left _) id
  have copied : ∀ path value, Copy (next s (.serve rc)) path value → Copy s path value ∨
      s.nodes path = some value := by
    rintro path value (loaded | inHand | ⟨zkRootFolder, key, rest, reply, waits,
      ⟨h', found', member⟩, rfl, rfl⟩)
    · exact .inl (.inl loaded)
    · exact .inl (.inr (.inl inHand))
    · obtain ⟨h, found, rfl⟩ := Option.map_eq_some_iff.mp found'
      cases asks : h.asked with
      | none =>
        rw [Handle.serve_idle asks] at member
        exact .inl (.inr (.inr ⟨_, _, _, _, waits, ⟨h, found, member⟩, rfl, rfl⟩))
      | some asked =>
        obtain ⟨watches, code, value, served, read⟩ := Handle.serve_eq asks s.nodes rc
        rw [served] at member
        rcases List.mem_append.mp member with before | now
        · exact .inl (.inr (.inr ⟨_, _, _, _, waits, ⟨h, found, before⟩, rfl, rfl⟩))
        · obtain ⟨rfl, rfl⟩ := Delivery.data.inj (List.mem_singleton.mp now)
          obtain ⟨rfl, rfl, present⟩ := read rfl
          obtain ⟨_, _, _, waits', rfl⟩ := orderly.asked h found asked asks
          obtain ⟨rfl, rfl, rfl⟩ := Loading.waiting.inj (waits'.symm.trans waits)
          obtain ⟨value, current⟩ := Option.isSome_iff_exists.mp present
          refine .inr ?_
          rw [current, Option.map_some, Option.getD_some,
            Qstring.cString_of_nul_free (careful rfl h found _ asks value current)]
  intro path value copy
  rcases copied path value copy with before | current
  · rcases tracked path value before with current | outstanding | pending
    · exact .inl current
    · exact .inr (.inl (fires path outstanding))
    · exact .inr (.inr pending)
  · exact .inl current

/-- A key of the refreshed configuration holds the node's value, or it was not
read. -/
theorem loaded_refresh {paths : List Qstring}
    (present : ∀ path ∈ paths, ∃ value, s.nodes path = some value)
    (refreshes : ∀ path ∈ paths, Refreshes s path) (loaded : Loaded s' path value)
    (configs : s'.configs = refresh s.nodes paths s.configs) (origin : s'.origin = s.origin) :
    s.nodes path = some value ∨ Loaded s path value ∧ path ∉ paths := by
  obtain ⟨key, found, from'⟩ := loaded
  rw [configs] at found
  rw [origin] at from'
  rcases lookup_refresh found with ⟨read, member, own, known, rfl⟩ | ⟨other, untouched⟩
  · have careful := refreshes read member
    have same := (careful.own key known).mp own
    obtain rfl := Option.some.inj (same.symm.trans from')
    obtain ⟨value, current⟩ := present read member
    obtain ⟨clean, short⟩ := careful.whole key known same value current
    refine .inl ?_
    rw [buffer, current, Option.getD_some, List.take_of_length_le short,
      Qstring.cString_of_nul_free clean]
  · refine .inr ⟨⟨key, untouched, from'⟩, fun member => ?_⟩
    have known := OrderedMap.mem_of_lookup untouched
    exact other path member (((refreshes path member).own key known).mpr from')

/-- A closed handle takes no change with it that a copy waits for. -/
theorem covered_closed (tracked : Tracked s) (closable : Closable s)
    (kept : Loaded s path value ∨ InHand s path value) :
    s.nodes path = some value ∨ path ∈ s.zk.pendingConfigUpdates := by
  have copy : Copy s path value := kept.imp id .inl
  rcases tracked path value copy with current | outstanding | pending
  · exact .inl current
  · exact closable path value kept outstanding
  · exact .inr pending

theorem Tracked.connectionCheck (tracked : Tracked s) (careful : Careful s .connectionCheck) :
    Tracked (next s .connectionCheck) := by
  by_cases serving : s.zk.isServing
  · have idle : next s .connectionCheck = s := by
      simp only [next, Qzookeeper.connectionCheck, serving, if_true]
    rw [idle]
    exact tracked
  · obtain ⟨zh, retryCount, running, checked, unused⟩ := connectionCheck_lost serving
    obtain ⟨result, pending⟩ := closeZk_kept s.zk
    simp only [next, checked]
    rintro path value
      (loaded | ⟨_, _, _, waits, done, read, rfl, rfl⟩ | ⟨_, _, _, _, _, ⟨h, found, member⟩, _⟩)
    · exact (covered_closed tracked (careful serving) (.inl loaded)).imp id fun retried =>
        .inr (pending ▸ retried)
    · obtain ⟨done, read⟩ := closeZk_read done read
      have kept : InHand s _ _ := ⟨_, _, _, waits, done, read, rfl, rfl⟩
      have covered := covered_closed tracked (careful serving) (.inr kept)
      rw [← result] at covered
      exact covered.imp id fun retried => .inr (pending ▸ retried)
    · obtain ⟨clientId, rfl⟩ := unused h found
      cases member

/-- What the loading thread has or waits for is not touched by the watcher. -/
theorem incoming_kept (incoming : InHand s' path value ∨ InFlight s' path value)
    (loading : s'.loading = s.loading) (progress : s'.zk.opInProgress = s.zk.opInProgress)
    (result : s'.zk.opResult = s.zk.opResult) (read : s'.zk.getResult = s.zk.getResult)
    (replies : ∀ h' ∈ s'.zk.zh, ∀ reply, .data zok reply ∈ h'.deliveries →
      ∃ h ∈ s.zk.zh, .data zok reply ∈ h.deliveries) : InHand s path value ∨
        InFlight s path value := by
  rcases incoming with
    ⟨_, _, _, waits, done, ok, rfl, rfl⟩ | ⟨_, _, _, reply, waits, ⟨h', found, member⟩, rfl, rfl⟩
  · exact .inl ⟨_, _, _, loading ▸ waits, progress ▸ done, result ▸ ok, rfl, read⟩
  · exact .inr ⟨_, _, _, reply, loading ▸ waits, replies h' found reply member, rfl, by rw [read]⟩

theorem Tracked.deliver (orderly : Orderly s) (tracked : Tracked s)
    (careful : Careful s (.deliver rcs)) :
    Tracked (next s (.deliver rcs)) := by
  rcases deliver_head s rcs with idle | ⟨h, first, rest, found, head⟩
  · rwa [idle]
  have present : ∀ path ∈ reads s.nodes rcs s.zk h, ∃ value, s.nodes path = some value :=
    fun _ => reads_value
  obtain ⟨refreshes, closable⟩ := careful h found
  rcases deliver_cases found head s.nodes rcs s.configs with
    ⟨rc, reply, rfl, ran⟩ | ⟨⟨watches, _, _, _, pending', ran, retried⟩, other⟩ |
      ⟨closes, _, _, ran⟩
  · have ordered := orderly.deliver rcs
    have handle : (next s (.deliver rcs)).zk.zh = some { h with deliveries := rest } := by
      simp only [next, ran]; rfl
    have done : (next s (.deliver rcs)).zk.opInProgress = false := by simp only [next, ran]; rfl
    refine tracked.frame ?_ rfl ?_ ?_
    · rintro path value
        (loaded | ⟨_, _, _, waits, -, read, rfl, rfl⟩ | ⟨_, _, _, _, _, ⟨h', found', member⟩, _⟩)
      · simp only [next, ran] at loaded
        exact .inl loaded
      · simp only [next, ran, myDataCompletion] at waits read ⊢
        subst read
        exact .inr (.inr ⟨_, _, _, reply, waits, ⟨h, found, head ▸ List.mem_cons_self⟩, rfl, rfl⟩)
      · exact absurd member (Handle.no_data (ordered.no_reply done found'))
    · rintro path ⟨h', found', fired⟩
      obtain rfl := Option.some.inj (found'.symm.trans found)
      refine ⟨_, handle, fired.imp ?_ id⟩
      rw [head]
      rintro (_ | ⟨_, later⟩)
      exact later
    · simp only [next, ran, myDataCompletion]
  · have handle : (next s (.deliver rcs)).zk.zh = some { h with deliveries := rest, watches } := by
      simp only [next, ran]
    have pending : (next s (.deliver rcs)).zk.pendingConfigUpdates = pending' := by
      simp only [next, ran]
    have remains : ∀ path, .changed path ∈ rest ∨ path ∈ h.missed →
      Outstanding (next s (.deliver rcs)) path :=
      fun path fired => ⟨_, handle, fired⟩
    -- The callback takes a change from the queue only to read the node or to put it on the list.
    have unread : ∀ path value, Copy s path value → path ∉ reads s.nodes rcs s.zk h →
        Covered (next s (.deliver rcs)) path value := by
      intro path value copy unread
      have listed : path ∈ s.zk.pendingConfigUpdates ∨ first = .changed path →
          Covered (next s (.deliver rcs)) path value :=
        fun taken => .inr (.inr (pending ▸ (retried path taken).resolve_right unread))
      rcases tracked path value copy with current | ⟨h', found', fired⟩ | before
      · exact .inl current
      · obtain rfl := Option.some.inj (found'.symm.trans found)
        rw [Handle.Fired, head, List.mem_cons] at fired
        rcases fired with (event | queued) | missed
        · exact listed (.inr event.symm)
        · exact .inr (.inl (remains path (.inl queued)))
        · exact .inr (.inl (remains path (.inr missed)))
      · exact listed (.inl before)
    intro path value copy
    rcases copy with loaded | incoming
    · rcases loaded_refresh present refreshes loaded (by simp only [next, ran]) rfl with
        current | ⟨before, other⟩
      · exact .inl current
      · exact unread path value (.inl before) other
    · have before : InHand s path value ∨ InFlight s path value := by
        refine incoming_kept incoming rfl ?_ ?_ ?_ ?_
        all_goals simp only [next, ran]
        rintro h' ⟨⟩ reply member
        exact ⟨h, found, head ▸ List.mem_cons_of_mem _ member⟩
      by_cases member : path ∈ reads s.nodes rcs s.zk h
      · rcases (refreshes path member).stored value before with current | ⟨h', found', fired⟩
        · exact .inl current
        · obtain rfl := Option.some.inj (found'.symm.trans found)
          rw [head, List.tail_cons] at fired
          exact .inr (.inl (remains path fired))
      · exact unread path value (.inr before) member
  · simp only [next, ran]
    rintro path value (loaded | ⟨_, _, _, waits, -, read, rfl, rfl⟩ | ⟨_, _, _, _, _, ⟨h', ⟨⟩, _⟩, _⟩)
    · rcases loaded_refresh present refreshes loaded rfl rfl with current | ⟨before, -⟩
      · exact .inl current
      · exact (covered_closed tracked (closable closes) (.inl before)).imp id .inr
    · cases progress : s.zk.opInProgress with
      | true => simp [progress, zclosing, zok] at read
      | false =>
        have kept : InHand s _ _ :=
          ⟨_, _, _, waits, progress, by simpa [progress] using read, rfl, rfl⟩
        exact (covered_closed tracked (closable closes) (.inr kept)).imp id .inr

/-- The loading thread leaves a read with no more than what it had in hand. -/
theorem Tracked.leave (tracked : Tracked s)
    (loaded : ∀ path value, Loaded s' path value → Copy s path value)
    (left : ∀ zkRootFolder key rest, s'.loading ≠ .waiting zkRootFolder key rest)
    (nodes : s'.nodes = s.nodes) (handle : s'.zk.zh = s.zk.zh)
    (pending : s'.zk.pendingConfigUpdates = s.zk.pendingConfigUpdates) : Tracked s' := by
  refine tracked.frame ?_ nodes ?_ pending
  · rintro path value (held | ⟨_, _, _, waits, -⟩ | ⟨_, _, _, _, waits, -⟩)
    · exact loaded path value held
    · exact absurd waits (left _ _ _)
    · exact absurd waits (left _ _ _)
  · rintro path ⟨h, found, fired⟩
    exact ⟨h, handle.trans found, fired⟩

theorem Tracked.getData (orderly : Orderly s) (tracked : Tracked s)
    (free : s.zk.opInProgress = false) (fetches : s.loading = .fetching zkRootFolder keys) :
    Tracked (next s .getData) := by
  cases keys with
  | nil =>
    simp only [next, fetches]
    exact tracked.leave (fun _ _ => .inl) (by simp) rfl rfl rfl
  | cons key rest =>
    rcases getData_cases free (zkKey zkRootFolder key) with
      ⟨code, opResult, failed⟩ | ⟨h, found, asked⟩
    · simp only [next, fetches, failed]
      exact tracked.leave (fun _ _ => .inl) (by simp) rfl rfl rfl
    · have unanswered : ∀ reply, .data zok reply ∉ h.deliveries :=
        fun _ => Handle.no_data (orderly.no_reply free found)
      simp only [next, fetches, asked]
      refine tracked.frame ?_ rfl ?_ rfl
      · rintro path value (loaded | ⟨_, _, _, _, done, -⟩ | ⟨_, _, _, _, _, ⟨h', ⟨⟩, member⟩, _⟩)
        · exact .inl loaded
        · cases done
        · exact absurd member (unanswered _)
      · rintro path ⟨h', found', fired⟩
        obtain rfl := Option.some.inj (found'.symm.trans found)
        exact ⟨_, rfl, fired⟩

/-- The value that is stored is the one in hand. -/
theorem Tracked.resume (tracked : Tracked s) (waits : s.loading = .waiting zkRootFolder key rest)
    (free : s.zk.opInProgress = false) : Tracked (next s .resume) := by
  simp only [next, waits, store]
  split
  · exact tracked.leave (fun _ _ => .inl) (by simp) rfl rfl rfl
  · split
    · exact tracked.leave (fun _ _ => .inl) (by simp) rfl rfl rfl
    · rename_i read
      refine tracked.leave ?_ (by simp) rfl rfl rfl
      rintro path value ⟨other, found, from'⟩
      dsimp only at found from'
      rw [OrderedMap.lookup_insert] at found
      by_cases here : other = modZkKey key
      · rw [if_pos here.symm] at found
        rw [if_pos here] at from'
        refine .inr (.inl ⟨_, _, _, waits, free, Classical.not_not.mp read, ?_, ?_⟩)
        · exact (Option.some.inj from').symm
        · exact (Option.some.inj found).symm
      · rw [if_neg (Ne.symm here)] at found
        rw [if_neg here] at from'
        exact .inl ⟨other, found, from'⟩

theorem step_tracked (orderly : Orderly s) (tracked : Tracked s)
    (step : (machine nodes).Step s e s') (careful : Careful s e) : Tracked s' := by
  obtain ⟨possible, rfl⟩ : ready s e = true ∧ next s e = s' := ⟨step.1, Except.ok.inj step.2⟩
  cases e with
  | change path value => exact tracked.change careful
  | report target => exact tracked.report target
  | deliver rcs => exact tracked.deliver orderly careful
  | connectionCheck => exact tracked.connectionCheck careful
  | load zkRootFolder doc =>
    have idle : s.loading = .idle := by simpa [ready] using possible
    simp only [next]
    split
    · exact tracked
    · exact tracked.leave (fun _ _ => .inl) (by simp) rfl rfl rfl
  | getData =>
    cases fetches : s.loading with
    | idle | waiting => simp [ready, fetches] at possible
    | fetching zkRootFolder keys =>
      exact tracked.getData orderly (orderly.free (by simp [fetches])) fetches
  | serve rc => exact tracked.serve orderly careful
  | resume =>
    cases waits : s.loading with
    | idle | fetching => simp [ready, waits] at possible
    | waiting zkRootFolder key rest =>
      exact tracked.resume waits (by simpa [ready, waits] using possible)

/-- The configuration follows the nodes in every run with careful steps. -/
theorem configuration_converges (careful : (machine nodes).Meets Careful es) :
    (machine nodes).Always Converged es := by
  let holds : State → Prop := fun s => Orderly s ∧ Tracked s
  have always : (machine nodes).Always holds es := by
    refine Transition.Machine.Meets.always ⟨Orderly.init nodes, Tracked.init nodes⟩ ?_ careful
    rintro es s e t - ⟨orderly, tracked⟩ step meets
    exact ⟨step_orderly orderly step, step_tracked orderly tracked step meets⟩
  intro fs t inside reached
  obtain ⟨orderly, tracked⟩ := always fs t inside reached
  exact converged_of_tracked orderly tracked

namespace Sample

def size : Qstring := Qstring.literal "/qh3server/room/size"

def file : Json := .object [(Qstring.literal "room", .array [.string (Qstring.literal "size")])]

def delivered : Event := .deliver fun _ _ => zok

def resized : Event := .change size (Qstring.literal "8")

/-- The client connects and loads its one key. -/
def loaded : List Event :=
  [.change size (Qstring.literal "4"), .report .connected, delivered,
    .load (Qstring.literal "/qh3server") file, .getData, .serve zok, delivered, .resume, .getData]

/-- The session expires, and the node changes after the next one is there. -/
def expired : List Event :=
  loaded ++ [.report .connecting, delivered, .report .expiredSession, delivered, .connectionCheck,
    .report .connected, delivered, resized]

/-- The node changes to a value with a NUL in it. -/
def terminated : List Event := loaded ++ [.change size [56, 0, 57], delivered]

/-- The change of the node is read between the reply and the store. -/
def overtaken : List Event := loaded.take 7 ++ [resized, delivered, .resume, .getData]

def nowhere : Qstring → Option Qstring := fun _ => none

/-- The client is quiet while the key holds a value that its node has not. -/
def stale (held : Qstring) (s : State) : Bool :=
  (s.zk.zh.any fun h => h.state = .connected && h.asked = none && h.deliveries = []) &&
    s.zk.connectionState = some .connected && s.zk.pendingConfigUpdates = [] &&
    s.configs[Qstring.literal "room/size"]? = some held && s.origin (Qstring.literal "room/size") =
      some size &&
    s.nodes size ≠ some held

theorem not_converged (found : stale held s = true) : ¬ Converged s := by
  simp only [stale, Bool.and_eq_true, decide_eq_true_eq, Option.any_eq_true] at found
  obtain ⟨⟨⟨⟨⟨⟨h, handle, ⟨connected, idle⟩, empty⟩, observed⟩, settled⟩, key⟩, origin⟩, other⟩ :=
    found
  intro converged
  exact other (converged ⟨⟨h, handle, connected, idle, empty⟩, observed, settled⟩ size held
    ⟨_, key, origin⟩)

end Sample

/-- A new session has no watches, a value is cut off at its NUL, and a change may
be read before the key is there. -/
theorem convergence_fails :
    (∃ s, (machine Sample.nowhere).Run Sample.expired s ∧ ¬ Converged s) ∧
      (∃ s, (machine Sample.nowhere).Run Sample.terminated s ∧ ¬ Converged s) ∧
      ∃ s, (machine Sample.nowhere).Run Sample.overtaken s ∧ ¬ Converged s := by
  have expired : ((machine Sample.nowhere).exec (machine Sample.nowhere).init Sample.expired).map
      (Sample.stale (Qstring.literal "4")) = some true := by decide +kernel
  have terminated : ((machine Sample.nowhere).exec (machine Sample.nowhere).init Sample.terminated).map
      (Sample.stale (Qstring.literal "8")) = some true := by decide +kernel
  have overtaken : ((machine Sample.nowhere).exec (machine Sample.nowhere).init Sample.overtaken).map
      (Sample.stale (Qstring.literal "4")) = some true := by decide +kernel
  refine ⟨?_, ?_, ?_⟩
  · obtain ⟨s, run, found⟩ := Transition.Machine.exec_observe expired
    exact ⟨s, run, Sample.not_converged found⟩
  · obtain ⟨s, run, found⟩ := Transition.Machine.exec_observe terminated
    exact ⟨s, run, Sample.not_converged found⟩
  · obtain ⟨s, run, found⟩ := Transition.Machine.exec_observe overtaken
    exact ⟨s, run, Sample.not_converged found⟩

namespace Sample

/-- A key that is loaded and follows its node. -/
def followed : List Event := loaded ++ [resized, delivered]

/-- Enough for a careful step, while at most one key is loaded. -/
def test (s : State) : Event → Bool
  | .change changed _ =>
      (s.zk.zh.any fun h => changed ∈ h.watches && !h.isUnrecoverable) ||
        (s.configs.toList = [] && s.loading = .idle)
  | .deliver rcs => s.zk.zh.all fun h =>
      !closes s.nodes rcs s.zk h && (reads s.nodes rcs s.zk h).all fun read =>
        s.loading = .idle && (s.nodes read).all (fun v => Qstring.Clean v &&
          v.length ≤ sizeofBuffer) &&
          s.configs.toList.all fun entry => (keyOf read = entry.1) = (s.origin entry.1 = some read)
  | .connectionCheck => s.zk.isServing
  | .serve _ => s.zk.zh.all fun h => h.asked.all fun asked => (s.nodes asked).all fun v =>
    decide (Qstring.Clean v)
  | .report _ | .load .. | .getData | .resume => true

theorem careful_of_test (s : State) (e : Event) (passed : test s e = true) : Careful s e := by
  cases e with
  | change changed value =>
    intro held copy
    rcases Bool.or_eq_true_iff.mp passed with armed | unloaded
    · obtain ⟨h, found, armed⟩ := (Option.any_eq_true _ _).mp armed
      simp only [Bool.and_eq_true, decide_eq_true_eq, Bool.not_eq_true'] at armed
      exact .inr (.inl ⟨h, found, armed.1, by simp [armed.2]⟩)
    · simp only [Bool.and_eq_true, decide_eq_true_eq] at unloaded
      obtain ⟨empty, idle⟩ := unloaded
      rcases copy with ⟨key, found, -⟩ | ⟨_, _, _, waits, -⟩ | ⟨_, _, _, _, waits, -⟩
      · have member := Std.TreeMap.mem_toList_iff_getElem?_eq_some.mpr found
        rw [empty] at member
        cases member
      all_goals
        rw [idle] at waits
        cases waits
  | deliver rcs =>
    intro h found
    simp only [test, Option.all_eq_true, Bool.and_eq_true, Bool.not_eq_true', List.all_eq_true,
      decide_eq_true_eq] at passed
    obtain ⟨open', fresh⟩ := passed h found
    refine ⟨fun read member => ?_, fun closes => by simp [open'] at closes⟩
    obtain ⟨⟨idle, whole⟩, own⟩ := fresh read member
    refine ⟨fun key known => ?_, fun _ _ _ value current => whole value current, ?_⟩
    · obtain ⟨value, here⟩ := OrderedMap.mem_iff_lookup.mp known
      exact iff_of_eq (own (key, value) (Std.TreeMap.mem_toList_iff_getElem?_eq_some.mpr here))
    · rintro value (⟨_, _, _, waits, -⟩ | ⟨_, _, _, _, waits, -⟩)
      all_goals
        rw [idle] at waits
        cases waits
  | connectionCheck =>
    intro lost
    exact absurd (of_decide_eq_true passed) lost
  | serve rc =>
    intro _ h found asked asks value current
    simp only [test, Option.all_eq_true] at passed
    exact of_decide_eq_true (passed h found asked asks value current)
  | report | load | getData | resume => trivial

end Sample

theorem followed_converges :
    (machine Sample.nowhere).Meets Careful Sample.followed ∧
      (machine Sample.nowhere).Always Converged Sample.followed := by
  have passed : (machine Sample.nowhere).checks Sample.test
      (machine Sample.nowhere).init Sample.followed = true := by
    decide +kernel
  have careful : (machine Sample.nowhere).Meets Careful Sample.followed :=
    fun _ _ _ inside run => Transition.Machine.meets_of_checks Sample.careful_of_test passed inside run
  exact ⟨careful, configuration_converges careful⟩

end Gearsdk.Configuration
