import Gearsdk.Qzookeeper
import Gearsdk.Transition

/-! A configuration beside the nodes that it was loaded from. Nodes change, the
library reports its connection, and the completion thread, the timer and the
loading thread take their steps in any order. -/
namespace Gearsdk.Configuration
open Zookeeper Serverconfig Qzookeeper

/-- Where the loading thread is in `iterate_and_load_keys`. -/
inductive Loading where
  | idle
  | fetching (zkRootFolder : Qstring) (keys : List Key)
  | waiting (zkRootFolder : Qstring) (key : Key) (rest : List Key)
  deriving DecidableEq

structure State where
  /-- The nodes there are, each with a value. -/
  nodes : Qstring → Option Qstring
  lastId : Nat := 0
  zk : Qzookeeper := {}
  configs : Configs := ∅
  /-- The node that a key was loaded from last. -/
  origin : Qstring → Option Qstring := fun _ => none
  loading : Loading := .idle

inductive Event where
  | change (path value : Qstring)
  | report (state : ConnectionState)
  | deliver (rcs : Nat → Nat → Int)
  | connectionCheck
  | load (zkRootFolder : Qstring) (doc : Json)
  | getData
  | serve (rc : Int)
  | resume

/-- What the library reports of a handle; a lost session stays lost. -/
def reports (h : Handle) : ConnectionState → Bool
  | .closed | .notConnected => false
  | .expiredSession => !h.isUnrecoverable && h.clientId ≠ 0
  | state => !h.isUnrecoverable && state ≠ h.state

def ready (s : State) : Event → Bool
  | .change .. => true
  | .report state => s.zk.zh.any (reports · state)
  | .deliver _ => s.zk.zh.any fun h => h.deliveries ≠ []
  | .connectionCheck => s.zk.running
  | .load .. => s.loading = .idle
  | .getData =>
      match s.loading with
      | .fetching .. => true
      | _ => false
  | .serve _ => s.zk.zh.any fun h => h.asked.isSome && h.state = .connected
  | .resume =>
      match s.loading with
      | .waiting .. => !s.zk.opInProgress
      | _ => false

/-- The loading thread goes on with what `get_data` returned. -/
def store (s : State) (zkRootFolder : Qstring) (key : Key) (rest : List Key) : State :=
  if s.zk.opResult = znonode then { s with loading := .fetching zkRootFolder rest }
  else if s.zk.opResult ≠ zok then { s with loading := .idle }
  else
    { s with
      configs := s.configs.insert (modZkKey key) s.zk.getResult
      origin := fun other => if other = modZkKey key then some (zkKey zkRootFolder key)
        else s.origin other
      loading := .fetching zkRootFolder rest }

def next (s : State) : Event → State
  | .change path value =>
      { s with
        nodes := fun other => if other = path then some value else s.nodes other
        zk := { s.zk with zh := s.zk.zh.map (·.change path) } }
  | .report state =>
      { s with
        lastId := s.lastId + 1
        zk := { s.zk with zh := s.zk.zh.map (·.report (s.lastId + 1) state) } }
  | .deliver rcs =>
      let (zk, configs) := s.zk.deliver s.nodes rcs s.configs
      { s with zk, configs }
  | .connectionCheck => { s with zk := s.zk.connectionCheck }
  | .load zkRootFolder doc =>
      match keysOf doc with
      | none => s
      | some keys => { s with loading := .fetching (Qstring.cString zkRootFolder) keys }
  | .getData =>
      match s.loading with
      | .fetching zkRootFolder (key :: rest) =>
          match s.zk.getData (zkKey zkRootFolder key) with
          | (zk, none) => { s with zk, loading := .waiting zkRootFolder key rest }
          | (zk, some _) => { s with zk, loading := .idle }
      | _ => { s with loading := .idle }
  | .serve rc =>
      { s with zk := { s.zk with zh := s.zk.zh.map (·.serve s.nodes rc) } }
  | .resume =>
      match s.loading with
      | .waiting zkRootFolder key rest => store s zkRootFolder key rest
      | _ => s

def machine (nodes : Qstring → Option Qstring) : Transition.Machine State Event Empty where
  init := { nodes }
  enabled s e := ready s e = true
  next s e := .ok (next s e)

instance (nodes : Qstring → Option Qstring) (s : State) (e : Event) :
    Decidable ((machine nodes).enabled s e) :=
  inferInstanceAs (Decidable (_ = true))

/-- There is at most one read at a time, the loading thread waits for it, and a
connected handle has heard of every change. -/
structure Orderly (s : State) : Prop where
  awaited : s.zk.opInProgress = true → ∃ zkRootFolder key rest,
    s.loading = .waiting zkRootFolder key rest
  replies : ∀ h ∈ s.zk.zh, h.replies ≤ s.zk.opInProgress.toNat
  asked : ∀ h ∈ s.zk.zh, ∀ path, h.asked = some path →
    ∃ zkRootFolder key rest, s.loading = .waiting zkRootFolder key rest ∧
      path = zkKey zkRootFolder key
  missed : ∀ h ∈ s.zk.zh, h.state = .connected → h.missed = []

variable {s : State} {h : Handle} {nodes : Qstring → Option Qstring}

theorem Orderly.init (nodes : Qstring → Option Qstring) : Orderly (machine nodes).init := by
  refine ⟨nofun, ?_, ?_, ?_⟩
  all_goals
    rintro h ⟨⟩
  · exact Nat.le_refl _
  · nofun
  · nofun

/-- The loading thread runs only while there is no read. -/
theorem Orderly.free (orderly : Orderly s)
    (running : ∀ zkRootFolder key rest, s.loading ≠ .waiting zkRootFolder key rest) :
    s.zk.opInProgress = false := by
  cases progress : s.zk.opInProgress with
  | false => rfl
  | true =>
    obtain ⟨zkRootFolder, key, rest, waits⟩ := orderly.awaited progress
    exact absurd waits (running zkRootFolder key rest)

theorem Orderly.no_reply (orderly : Orderly s) (free : s.zk.opInProgress = false)
    (found : h ∈ s.zk.zh) :
    h.replies = 0 := by
  have bound := orderly.replies h found
  rw [free] at bound
  exact Nat.le_zero.mp bound

/-- Without a read the loading thread may go anywhere. -/
theorem Orderly.move (orderly : Orderly s) (free : s.zk.opInProgress = false)
    (handle : s'.zk.zh = s.zk.zh) (progress : s'.zk.opInProgress = s.zk.opInProgress) :
    Orderly s' := by
  refine ⟨?_, ?_, ?_, ?_⟩
  · simp only [progress, free, Bool.false_eq_true, false_implies]
  all_goals rw [handle]
  · rw [progress]
    exact orderly.replies
  · intro h found path asked
    rw [Handle.not_asked (orderly.no_reply free found)] at asked
    cases asked
  · exact orderly.missed

/-- A handle may change as long as its reads are completed and not new. -/
theorem Orderly.map (orderly : Orderly s) (f : Handle → Handle)
    (replies : ∀ h ∈ s.zk.zh, (f h).replies ≤ h.replies)
    (asked : ∀ h ∈ s.zk.zh, ∀ path, (f h).asked = some path → h.asked = some path)
    (missed : ∀ h ∈ s.zk.zh, (h.state = .connected → h.missed = []) → (f h).state = .connected →
      (f h).missed = [])
    (progress : s'.zk.opInProgress = s.zk.opInProgress) (handle : s'.zk.zh = s.zk.zh.map f)
    (loading : s'.loading = s.loading) :
    Orderly s' := by
  refine ⟨?_, ?_, ?_, ?_⟩
  · rw [progress, loading]
    exact orderly.awaited
  all_goals
    intro h' found'
    rw [handle] at found'
    obtain ⟨h, found, rfl⟩ := Option.map_eq_some_iff.mp found'
  · rw [progress]
    exact (replies h found).trans (orderly.replies h found)
  · intro path asks
    rw [loading]
    exact orderly.asked h found path (asked h found path asks)
  · exact missed h found (orderly.missed h found)

theorem Orderly.closed (handle : s'.zk.zh = none) (progress : s'.zk.opInProgress = false) :
    Orderly s' := by
  refine ⟨?_, ?_, ?_, ?_⟩
  · simp only [progress, Bool.false_eq_true, false_implies]
  all_goals
    rw [handle]
    exact nofun

/-- Without a callback nothing is run. -/
theorem deliver_head (s : State) (rcs : Nat → Nat → Int) :
    next s (.deliver rcs) = s ∨ ∃ h first rest, s.zk.zh = some h ∧
      h.deliveries = first :: rest := by
  cases found : s.zk.zh with
  | none => exact .inl (by simp only [next, Qzookeeper.deliver, found])
  | some h =>
    cases head : h.deliveries with
    | nil => exact .inl (by simp only [next, Qzookeeper.deliver, found, head])
    | cons first rest => exact .inr ⟨h, first, rest, rfl, head⟩

theorem Orderly.deliver (orderly : Orderly s) (rcs : Nat → Nat → Int) :
    Orderly (next s (.deliver rcs)) := by
  rcases deliver_head s rcs with idle | ⟨h, first, rest, found, head⟩
  · rwa [idle]
  · rcases deliver_cases found head s.nodes rcs s.configs with
      ⟨rc, value, rfl, ran⟩ | ⟨⟨watches, _, _, _, _, ran, -⟩, other⟩ | ⟨-, _, _, ran⟩
    · have one := orderly.replies h found
      have single : h.replies = rest.countP Handle.isData + 1 + if h.asked.isSome then 1
          else 0 := by
        simp only [Handle.replies, head, List.countP_cons, Handle.isData, if_true]
      have done : ({ h with deliveries := rest } : Handle).replies = 0 := by
        have most := Bool.toNat_le s.zk.opInProgress
        simp only [Handle.replies]
        omega
      simp only [next, ran]
      refine ⟨fun progressing => by contradiction, ?_, ?_, ?_⟩
      all_goals
        rintro h' ⟨⟩
      · exact Nat.le_of_eq done
      · intro path asked
        rw [Handle.not_asked done] at asked
        cases asked
      · exact orderly.missed h found
    · refine orderly.map (fun h => { h with deliveries := rest, watches }) ?_ ?_ ?_ ?_ ?_ ?_
      all_goals
        simp only [next, ran, found, Option.map_some]
      · rintro h' ⟨⟩
        have fewer : rest.countP Handle.isData ≤ h.deliveries.countP Handle.isData := by
          rw [head, List.countP_cons]
          exact Nat.le_add_right ..
        exact Nat.add_le_add_right fewer _
      · rintro h' ⟨⟩ path asked
        exact asked
      · rintro h' ⟨⟩ before
        exact before
    · refine Orderly.closed ?_ ?_
      all_goals simp only [next, ran]

theorem Orderly.connectionCheck (orderly : Orderly s) : Orderly (next s .connectionCheck) := by
  by_cases serving : s.zk.isServing
  · have idle : next s .connectionCheck = s := by
      simp only [next, Qzookeeper.connectionCheck, serving, if_true]
    rw [idle]
    exact orderly
  · obtain ⟨zh, retryCount, running, checked, unused⟩ := connectionCheck_lost serving
    have progress : (closeZk s.zk).opInProgress = true → s.zk.opInProgress = true := by
      cases found : s.zk.zh with
      | none => simp only [closeZk, found, imp_self]
      | some h => simp only [closeZk_some found, Bool.false_eq_true, false_implies]
    simp only [next, checked]
    refine ⟨fun progressing => orderly.awaited (progress progressing), ?_, ?_, ?_⟩
    all_goals
      intro h found
      obtain ⟨clientId, rfl⟩ := unused h found
    · exact Nat.zero_le _
    · simp
    · simp

theorem Orderly.getData (orderly : Orderly s) (free : s.zk.opInProgress = false) :
    Orderly (next s .getData) := by
  cases loading : s.loading with
  | idle | waiting =>
    refine orderly.move free ?_ ?_
    all_goals simp only [next, loading]
  | fetching zkRootFolder keys =>
    cases keys with
    | nil =>
      refine orderly.move free ?_ ?_
      all_goals simp only [next, loading]
    | cons key rest =>
      rcases getData_cases free (zkKey zkRootFolder key) with
        ⟨code, opResult, failed⟩ | ⟨h, found, asked⟩
      · refine orderly.move free ?_ ?_
        all_goals simp only [next, loading, failed]
      · have quiet := orderly.no_reply free found
        simp only [next, loading, asked]
        refine ⟨fun _ => ⟨_, _, _, rfl⟩, ?_, ?_, ?_⟩
        all_goals
          rintro h' ⟨⟩
        · have data : h.deliveries.countP Handle.isData = 0 := by
            simp only [Handle.replies] at quiet
            omega
          simp [Handle.replies, data]
        · rintro path ⟨⟩
          exact ⟨_, _, _, rfl, rfl⟩
        · exact orderly.missed h found

/-- The order is kept by every step. -/
theorem step_orderly (orderly : Orderly s) (step : (machine nodes).Step s e s') : Orderly s' := by
  obtain ⟨possible, rfl⟩ : ready s e = true ∧ next s e = s' := ⟨step.1, Except.ok.inj step.2⟩
  cases e with
  | change path value =>
    refine orderly.map (·.change path) ?_ ?_ ?_ rfl rfl rfl
    · intro h found
      exact Nat.le_of_eq (Handle.replies_change h path)
    · intro h found other asked
      rwa [Handle.asked_change] at asked
    · intro h found before connected
      rw [Handle.state_change] at connected
      rw [Handle.missed_change connected, before connected]
  | report target =>
    refine orderly.map (·.report (s.lastId + 1) target) ?_ ?_ ?_ rfl rfl rfl
    · intro h found
      exact Nat.le_of_eq (Handle.replies_report h _ target)
    · intro h found path asked
      exact Handle.asked_report asked
    · intro h found before connected
      exact Handle.missed_report _ connected
  | deliver rcs => exact orderly.deliver rcs
  | connectionCheck => exact orderly.connectionCheck
  | load zkRootFolder doc =>
    have idle : s.loading = .idle := by simpa [ready] using possible
    have free := orderly.free (by simp [idle])
    refine orderly.move free ?_ ?_
    all_goals
      simp only [next]
      split <;> rfl
  | getData =>
    have running : ∀ zkRootFolder key rest, s.loading ≠ .waiting zkRootFolder key rest := by
      intro zkRootFolder key rest waits
      simp [ready, waits] at possible
    exact orderly.getData (orderly.free running)
  | serve rc =>
    refine orderly.map (·.serve s.nodes rc) ?_ ?_ ?_ rfl rfl rfl
    all_goals intro h found
    · exact Nat.le_of_eq (Handle.replies_serve h s.nodes rc)
    all_goals
      cases asks : h.asked with
      | none => simp [Handle.serve_idle asks, asks]
      | some path =>
        obtain ⟨watches, code, value, served, -⟩ := Handle.serve_eq asks s.nodes rc
        simp [served]
  | resume =>
    cases waits : s.loading with
    | idle | fetching => simp [ready, waits] at possible
    | waiting zkRootFolder key rest =>
      have free : s.zk.opInProgress = false := by simpa [ready, waits] using possible
      refine orderly.move free ?_ ?_
      all_goals
        simp only [next, waits, store]
        split
        · rfl
        · split <;> rfl

end Gearsdk.Configuration
