import Gearsdk.Room.Invariant

/-! When a match starts: by the last tick of the one countdown of a room, or by
the join that fills it, and only with a permitted number of players. -/
namespace Gearsdk.Room
open Transition

variable {roomClass : RoomClass} {roomId creationTime : Int} {roomConfig : RoomConfig} {r r' : Room}
  {s t : Room × List RoomCall}

theorem Inv.positive (inv : r.Inv) (listed : r.scheduler.timers ≠ []) :
    1 ≤ r.roomConfig.maxPlayers := by
  cases inv.countdown with
  | idle none_listed => exact absurd none_listed listed
  | running _ _ _ _ _ _ _ _ space => exact space

theorem Change.bounds (inv : r.Inv) (change : Change r op r' calls) (before : r.state ≠ .roomStart)
    (after : r'.state = .roomStart) : r.state = .roomWaiting ∧
      r.roomConfig.minPlayers ≤ r'.getPlaymapCount ∧
        r'.getPlaymapCount ≤ r.roomConfig.maxPlayers := by
  cases change with
  | fills accepted waiting enough full => exact ⟨waiting, enough, Int.le_of_eq full⟩
  | @lastTick timer ptr listed named waiting last =>
    have running : r.scheduler.timers ≠ [] := by simp [listed]
    have capacity := inv.capacity
    have positive := inv.positive running
    refine ⟨waiting, inv.enough running, ?_⟩
    change r.getPlaymapCount ≤ r.roomConfig.maxPlayers
    omega
  | @seated q pid prev => exact absurd ((occupied_state r q pid prev).symm.trans after) before
  | @countsDown q pid prev => exact absurd ((occupied_state r q pid prev).symm.trans after) before
  | ends => contradiction
  | _ => exact absurd after before

/-- After the start no operation looks at the timers, so the pointer that the
last tick leaves behind is not used again. -/
theorem Change.untouched (change : Change r op r' calls) (later : r.state ≠ .roomWaiting) :
    r'.scheduler = r.scheduler ∧ r'.countDownTimer = r.countDownTimer := by
  cases change with
  | @seated q pid prev =>
    exact ⟨occupied_scheduler r q pid prev, occupied_countDownTimer r q pid prev⟩
  | fills _ waiting => exact absurd waiting later
  | countsDown _ waiting => exact absurd waiting later
  | cancels _ waiting => exact absurd waiting later
  | ticks _ _ waiting => exact absurd waiting later
  | lastTick _ _ waiting => exact absurd waiting later
  | _ => exact ⟨rfl, rfl⟩

theorem Inv.active (inv : r.Inv) (fires : r.scheduler.isActive ptr = true) :
    r.state = .roomWaiting ∧ r.roomConfig.minPlayers ≤ r.getPlaymapCount := by
  cases inv.countdown with
  | idle none_listed => simp [QtimerScheduler.isActive, none_listed] at fires
  | running _ _ _ _ _ _ waiting enough => exact ⟨waiting, enough⟩

theorem Inv.single (inv : r.Inv) : r.scheduler.timers.length ≤ 1 := by
  cases inv.countdown with
  | idle none_listed => simp [none_listed]
  | running _ listed => simp [listed]

theorem Inv.pointer (inv : r.Inv) (waiting : r.state = .roomWaiting) :
    r.countDownTimer = none ∨ r.scheduler.isTimerPresentInList r.countDownTimer = true := by
  cases inv.countdown with
  | idle _ unset => exact .inl (unset waiting)
  | running timer listed named =>
    exact .inr (by simp [named, listed, QtimerScheduler.isTimerPresentInList])

theorem Inv.cancelled (inv : r.Inv) (few : r.getPlaymapCount < r.roomConfig.minPlayers) :
    r.scheduler.timers = [] := by
  cases inv.countdown with
  | idle none_listed => exact none_listed
  | running _ _ _ _ _ _ _ enough => exact absurd few (Int.not_lt.mpr enough)

/-- A waiting room that has a countdown's worth of players has a countdown. -/
def Counting (r : Room) : Prop :=
  r.state = .roomWaiting → r.scheduler.timers = [] →
    r.getPlaymapCount < r.roomConfig.minPlayers ∨ r.getPlaymapCount = 0

theorem Change.counting (inv : r.Inv) (counting : r.Counting) (change : Change r op r' calls) :
    r'.Counting := by
  cases change with
  | rejected | relays | ignores | forgets => exact counting
  | @seated q pid prev accepted idle =>
    intro waiting _
    rw [occupied_state] at waiting
    rw [occupied_roomConfig]
    rcases idle with late | few
    · exact absurd waiting (started_ne_waiting late)
    · exact .inl few
  | @countsDown q pid prev accepted waiting enough =>
    intro _ stopped
    rw [(inv.countdown.fills q pid prev enough).restarted_timers] at stopped
    contradiction
  | @leaves q player found waiting enough =>
    intro _ stopped
    have seats : 0 ≤ (r.vacated q).getPlaymapCount := Int.natCast_nonneg _
    have shrinks := getPlaymapCount_vacated found
    rcases counting waiting stopped with few | empty
    · omega
    · omega
  | cancels found waiting few => exact fun _ _ => .inl few
  | fills | ends | lastTick => exact fun waiting => nomatch waiting
  | leavesEnded found ended =>
    intro waiting
    exact absurd (ended.symm.trans waiting) (by decide)
  | keeps found started | drops found started =>
    exact fun waiting => absurd waiting (started_ne_waiting started)
  | ticks => exact fun _ stopped => nomatch stopped

theorem run_counting (run : (machine roomClass roomId creationTime roomConfig).Run ops s) :
    s.1.Counting := by
  refine Machine.Run.induction (P := fun _ s => Counting s.1) ?_ ?_ run
  · intro _ _
    exact .inr rfl
  · intro ops s op t before counting step
    obtain ⟨_, change, _⟩ := step_change (run_inv before) step
    exact change.counting (run_inv before) counting

/-- While a waiting room has players, its countdown runs exactly when they are
enough. -/
theorem Inv.counts_iff (inv : r.Inv) (counting : r.Counting) (waiting : r.state = .roomWaiting)
    (some_seated : cidHash ∈ r.playermap) :
    r.scheduler.timers ≠ [] ↔ r.roomConfig.minPlayers ≤ r.getPlaymapCount := by
  refine ⟨inv.enough, fun enough stopped => ?_⟩
  have seats : r.getPlaymapCount ≠ 0 := by
    intro empty
    have none_seated : r.playermap.size = 0 := Int.ofNat.inj empty
    exact OrderedMap.size_zero_iff.mp none_seated cidHash some_seated
  rcases counting waiting stopped with few | empty
  · omega
  · exact seats empty

/-- The operation that takes the room from `s` to `t` starts its match. -/
def Enters (s t : Room × List RoomCall) : Prop :=
  s.1.state ≠ .roomStart ∧ t.1.state = .roomStart

/-- What is safe about the start of a match in a state `s` of a room. -/
structure SafeStart (m : Machine (Room × List RoomCall) Op Empty) (s : Room × List RoomCall) :
    Prop where
  /-- A start is followed by no second one. -/
  once : ∀ {op t}, m.Step s op t → Enters s t →
    ∀ {ops u op' v}, m.Reaches t ops u → m.Step u op' v → ¬ Enters u v
  bounds : ∀ {op t}, m.Step s op t → Enters s t → s.1.state = .roomWaiting ∧
    s.1.roomConfig.minPlayers ≤ t.1.getPlaymapCount ∧
      t.1.getPlaymapCount ≤ s.1.roomConfig.maxPlayers
  active : ∀ {timer}, s.1.scheduler.isActive timer = true →
    s.1.state = .roomWaiting ∧ s.1.roomConfig.minPlayers ≤ s.1.getPlaymapCount
  single : s.1.scheduler.timers.length ≤ 1
  /-- While the room may use its timer pointer, it is null or a live timer. -/
  pointer : s.1.state = .roomWaiting →
    s.1.countDownTimer = none ∨ s.1.scheduler.isTimerPresentInList s.1.countDownTimer = true
  /-- Afterwards the room leaves the pointer and the timers alone. -/
  untouched : s.1.state ≠ .roomWaiting → ∀ {op t}, m.Step s op t →
    t.1.scheduler = s.1.scheduler ∧ t.1.countDownTimer = s.1.countDownTimer
  /-- A leave that goes below the minimum leaves no timer that could fire. -/
  cancelled : s.1.state = .roomWaiting → ∀ {q t}, m.Step s (.remove q) t →
    t.1.getPlaymapCount < t.1.roomConfig.minPlayers →
      t.1.scheduler.timers = [] ∧ ∀ timer, ¬ m.enabled t (.tick timer)

theorem step_rank_le (inv : s.1.Inv)
    (step : (machine roomClass roomId creationTime roomConfig).Step s op t) :
    s.1.state.rank ≤ t.1.state.rank := by
  obtain ⟨_, change, _⟩ := step_change inv step
  exact change.rank_le

theorem path_rank_le (run : (machine roomClass roomId creationTime roomConfig).Run before s)
    (path : (machine roomClass roomId creationTime roomConfig).Reaches s ops t) :
    s.1.state.rank ≤ t.1.state.rank :=
  Machine.Reaches.relates (R := fun a b => a.1.state.rank ≤ b.1.state.rank) (fun _ => Nat.le_refl _)
    Nat.le_trans (fun earlier step => step_rank_le (run_inv earlier) step) run path

/-- For every configuration and every interleaving of joins, leaves and ticks,
the start of the match is safe in every state of the room. -/
theorem match_start_safe (run : (machine roomClass roomId creationTime roomConfig).Run ops s) :
    SafeStart (machine roomClass roomId creationTime roomConfig) s := by
  have inv := run_inv run
  constructor
  case once =>
    intro op t step enters ops' u op' v path step' enters'
    have later := path_rank_le (run.step step) path
    have invU := run_inv ((run.step step).trans path)
    obtain ⟨_, change, _⟩ := step_change invU step'
    obtain ⟨waiting, _⟩ := change.bounds invU enters'.1 enters'.2
    simp [enters.2, waiting, States.rank] at later
  case bounds =>
    intro op t step enters
    obtain ⟨_, change, _⟩ := step_change inv step
    exact change.bounds inv enters.1 enters.2
  case active => exact fun fires => inv.active fires
  case single => exact inv.single
  case pointer => exact inv.pointer
  case untouched =>
    intro later op t step
    obtain ⟨_, change, _⟩ := step_change inv step
    exact change.untouched later
  case cancelled =>
    intro _ q t step few
    have stopped := (step_inv inv step).cancelled few
    refine ⟨stopped, fun timer fires => ?_⟩
    change QtimerScheduler.isActive _ _ = true at fires
    simp [QtimerScheduler.isActive, stopped] at fires

/-- Two players in a room for one to three: the second join restarts the
countdown, and the match starts on the fifth tick of the second timer. -/
theorem match_start_safe_countdown :
    ∃ s, (machine .gameRoom 0 0 { minPlayers := 1, maxPlayers := 3 }).Run
        [.tryAdd ⟨1, 11⟩ [] 0, .tick 0, .tryAdd ⟨2, 22⟩ [] 0, .tick 1, .tick 1, .tick 1, .tick 1,
          .tick 1] s ∧
      (s.1.state = .roomStart ∧ s.1.countDownTimer = some 1 ∧ s.1.scheduler.timers.length = 0) ∧
      SafeStart (machine .gameRoom 0 0 { minPlayers := 1, maxPlayers := 3 }) s := by
  have shown : ((machine .gameRoom 0 0 { minPlayers := 1, maxPlayers := 3 }).exec
        (create .gameRoom 0 0 { minPlayers := 1, maxPlayers := 3 })
        [.tryAdd ⟨1, 11⟩ [] 0, .tick 0, .tryAdd ⟨2, 22⟩ [] 0, .tick 1, .tick 1, .tick 1, .tick 1,
          .tick 1]).map
      (fun s => (s.1.state, s.1.countDownTimer, s.1.scheduler.timers.length)) =
      some (.roomStart, some 1, 0) := by decide
  obtain ⟨s, run, same⟩ := Machine.exec_observe shown
  simp only [Prod.mk.injEq] at same
  exact ⟨s, run, same, match_start_safe run⟩

end Gearsdk.Room
