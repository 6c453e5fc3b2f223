import Gearsdk.Roomserver.Registration

/-! Dangling room pointers. The registry keeps room pointers next to the lists;
a server handles every event as long as each entry names a live room that seats
its key. The one event that breaks this is a request that creates a room without
seats. -/
namespace Gearsdk.Roomserver
open Std Transition

/-- Every entry of `connection_map` is a live room that seats the key. -/
def Anchored (s : Roomserver) : Prop :=
  ∀ cidHash p : Nat, s.connectionMap[cidHash]? = some p → ∃ r : Room, s.roomHeap[p]? = some r ∧
    cidHash ∈ r.playermap

variable {site : Site} {s t : Roomserver} {ptr p : Nat} {connection : Connection} {r : Room}

/-! ### Progress -/

section
variable {candidates : List Nat} (live : ∀ p ∈ candidates, ∃ r : Room, s.roomHeap[p]? = some r)
include live

theorem findRoom_ok (roomId : Int) : ∃ found, s.findRoom roomId candidates = .ok found := by
  induction candidates with
  | nil => exact ⟨none, rfl⟩
  | cons first rest ih =>
    obtain ⟨r, found⟩ := live first (List.mem_cons_self ..)
    simp only [findRoom, deref_ok.mpr found]
    split
    · exact ⟨_, rfl⟩
    · exact ih fun p member => live p (List.mem_cons_of_mem _ member)

theorem firstAccepting_ok (cidHash : Nat) :
    ∃ found, s.firstAccepting cidHash candidates = .ok found := by
  induction candidates with
  | nil => exact ⟨none, rfl⟩
  | cons first rest ih =>
    obtain ⟨r, found⟩ := live first (List.mem_cons_self ..)
    simp only [firstAccepting, deref_ok.mpr found]
    split
    · exact ⟨_, rfl⟩
    · exact ih fun p member => live p (List.mem_cons_of_mem _ member)

theorem countSignature_ok (key : Qstring) :
    ∃ count, s.countSignature site key candidates = .ok count := by
  induction candidates with
  | nil => exact ⟨0, rfl⟩
  | cons first rest ih =>
    obtain ⟨r, found⟩ := live first (List.mem_cons_self ..)
    obtain ⟨count, counted⟩ := ih fun p member => live p (List.mem_cons_of_mem _ member)
    simp only [countSignature, deref_ok.mpr found, counted]
    exact ⟨_, rfl⟩

theorem zombiesAmong_ok (timeout : Int) :
    ∃ zombies, s.zombiesAmong timeout candidates = .ok zombies ∧ zombies.Sublist candidates := by
  induction candidates with
  | nil => exact ⟨[], rfl, List.Sublist.slnil⟩
  | cons first rest ih =>
    obtain ⟨r, found⟩ := live first (List.mem_cons_self ..)
    obtain ⟨zombies, searched, among⟩ := ih fun p member => live p (List.mem_cons_of_mem _ member)
    simp only [zombiesAmong, deref_ok.mpr found, searched]
    split
    · exact ⟨_, rfl, among.cons_cons first⟩
    · exact ⟨_, rfl, among.cons first⟩

end

/-- Every zombie is deleted once. -/
theorem sweepZombies_ok (zombies : List Nat) (once : zombies.Nodup)
    (live : ∀ p ∈ zombies, ∃ r : Room, s.roomHeap[p]? = some r) :
    ∃ t, s.sweepZombies site zombies = .ok t := by
  induction zombies generalizing s with
  | nil => exact ⟨s, rfl⟩
  | cons p rest ih =>
    obtain ⟨absent, once⟩ := List.nodup_cons.mp once
    obtain ⟨zombie, found⟩ := live p (List.mem_cons_self ..)
    have first : s.sweepZombie site p = .ok (s.swept site p zombie) := by
      simp only [sweepZombie, deref_ok.mpr found]
      rfl
    simp only [sweepZombies, first]
    refine ih once fun q member => ?_
    have different : p ≠ q := fun same => absent (same ▸ member)
    rw [swept, deleteRoom_eq, OrderedMap.lookup_erase_ne _ different]
    exact live q (List.mem_cons_of_mem _ member)

theorem Sound.waiting_all (sound : Sound site s) : ∀ p ∈ s.waitingRooms, ∃ r :
    Room, s.roomHeap[p]? = some r := by
  intro p member
  obtain ⟨r, found, _⟩ := sound.waiting_iff.mp member
  exact ⟨r, found⟩

theorem Sound.rooms_all (sound : Sound site s) : ∀ p ∈ s.rooms, ∃ r :
    Room, s.roomHeap[p]? = some r := by
  intro p member
  obtain ⟨r, found, _⟩ := sound.rooms_iff.mp member
  exact ⟨r, found⟩

theorem targetRoom_ok (sound : Sound site s) (anchored : s.Anchored) (q : QconnIo)
    (msg : MsgRoomMatchRequest) :
    ∃ target, s.targetRoom q msg = .ok target := by
  simp only [targetRoom]
  cases mapped : s.connectionMap[q.cidHashVal]? with
  | some p =>
    obtain ⟨r, found, _⟩ := anchored _ _ mapped
    simp only [deref_ok.mpr found]
    exact ⟨_, rfl⟩
  | none =>
    obtain ⟨found, searched⟩ := findRoom_ok sound.rooms_all msg.roomId
    simp only [findPreviousRoom, searched]
    split
    · cases found with
      | none => exact ⟨_, rfl⟩
      | some entry =>
        simp only
        split <;> exact ⟨_, rfl⟩
    · exact ⟨_, rfl⟩

theorem doProcessRoomjoin_ok (sound : Sound site s) (anchored : s.Anchored) (q : QconnIo)
    (msg : MsgRoomMatchRequest) : ∃ t, s.doProcessRoomjoin site q msg = .ok t := by
  obtain ⟨target, found⟩ := targetRoom_ok sound anchored q msg
  simp only [doProcessRoomjoin]
  rw [found]
  cases target with
  | none =>
    obtain ⟨accepting, searched⟩ := firstAccepting_ok sound.waiting_all q.cidHashVal
    simp only [joinWaitingRoom_eq, searched]
    cases accepting with
    | none => exact ⟨_, rfl⟩
    | some p =>
      obtain ⟨_, r, live, _⟩ := firstAccepting_some searched
      simp only [deref_ok.mpr live]
      exact ⟨_, rfl⟩
  | some entry =>
    simp only
    split
    · exact ⟨_, rfl⟩
    · split
      · exact ⟨_, rfl⟩
      · split <;> exact ⟨_, rfl⟩

theorem dispatch_ok (sound : Sound site s) (anchored : s.Anchored) (ptr : Nat)
    (connection : Connection) (doc : Option Json) :
    ∃ t, s.dispatch site ptr connection doc = .ok t := by
  cases doc with
  | none => exact ⟨s, rfl⟩
  | some obj =>
    cases header : deserializeHeader (some obj) with
    | error code => exact ⟨s, by simp only [dispatch, header]⟩
    | ok read =>
      obtain ⟨sig, tCrc⟩ := read
      cases handler : messageHandlers tCrc with
      | none => exact ⟨s, by simp only [dispatch, header, handler]⟩
      | some name =>
        cases name with
        | processShutdownRequest => exact ⟨_, by simp only [dispatch, header, handler]; rfl⟩
        | processMatchRequest =>
          simp only [dispatch, header, handler, processMatchRequest]
          split
          · exact ⟨s, rfl⟩
          · exact doProcessRoomjoin_ok (sound_matched sound ptr connection) anchored _ _

theorem onconnectionMessage_ok (sound : Sound site s) (anchored : s.Anchored) (ptr : Nat)
    (connection : Connection) (buf : Qstring) (doc : Option Json) :
    ∃ t, s.onconnectionMessage site ptr connection buf doc = .ok t := by
  simp only [onconnectionMessage]
  split
  · split
    · exact ⟨_, rfl⟩
    · exact dispatch_ok sound anchored ptr connection doc
  · simp only [passToRoom]
    cases mapped : s.connectionMap[connection.cidHashVal]? with
    | none => exact ⟨_, rfl⟩
    | some p =>
      obtain ⟨r, found, _⟩ := anchored _ _ mapped
      simp only [deref_ok.mpr found]
      split <;> exact ⟨_, rfl⟩

theorem onTimerCheckZombieRooms_ok (sound : Sound site s) :
    ∃ t, s.onTimerCheckZombieRooms site = .ok t := by
  obtain ⟨waiting, waitingFound, amongWaiting⟩ :=
    zombiesAmong_ok sound.waiting_all zombieWaitingRoomTimeout
  obtain ⟨started, startedFound, amongStarted⟩ := zombiesAmong_ok sound.rooms_all zombieRoomTimeout
  simp only [onTimerCheckZombieRooms, waitingFound, startedFound]
  refine sweepZombies_ok _ ?_ fun p member => ?_
  · refine List.nodup_append.mpr
      ⟨sound.waitingNodup.sublist amongWaiting, sound.roomsNodup.sublist amongStarted, ?_⟩
    rintro p waits _ starts rfl
    exact sound.not_both (amongWaiting.subset waits) (amongStarted.subset starts)
  · rcases List.mem_append.mp member with waits | starts
    · exact sound.waiting_all p (amongWaiting.subset waits)
    · exact sound.rooms_all p (amongStarted.subset starts)

/-- A server with anchored entries handles every event. -/
theorem progress (sound : Sound site s) (anchored : s.Anchored)
    (possible : (machine site).enabled s e) :
    ∃ t, (machine site).Step s e t := by
  have enabled : s.enabled e = true := possible
  suffices moved : ∃ t, next site s e = .ok t by
    obtain ⟨t, moved⟩ := moved
    exact ⟨t, possible, moved⟩
  cases e with
  | connect | clock | keyExpires => exact ⟨_, rfl⟩
  | connected ptr =>
    simp only [next]
    split <;> exact ⟨_, rfl⟩
  | message ptr buf doc =>
    simp only [next]
    split
    · exact ⟨_, rfl⟩
    · exact onconnectionMessage_ok sound anchored ptr _ buf doc
  | destroyConnection ptr =>
    cases found : s.conns[ptr]? with
    | none => exact ⟨s, by simp only [next, found]⟩
    | some connection =>
      obtain ⟨t, _, moved⟩ := destroy_ok sound found fun p mapped =>
        (anchored _ _ mapped).imp fun _ anchor => anchor.1
      exact ⟨t, moved⟩
  | countDownTimer p timer =>
    cases live : s.roomHeap[p]? with
    | none => simp [Roomserver.enabled, live] at enabled
    | some r => exact ⟨_, by simp only [next, onCountDownTimer, deref_ok.mpr live]; rfl⟩
  | checkZombieRooms => exact onTimerCheckZombieRooms_ok sound
  | keyExpired key =>
    obtain ⟨count, counted⟩ : ∃ count, s.countSignature site key s.waitingRooms = .ok count :=
      countSignature_ok sound.waiting_all key
    simp only [next, onQhiredisAsyncKeyExpired, countSignature_notified, counted]
    split <;> exact ⟨_, rfl⟩

/-! ### Entries -/

/-- A match request of the event that creates a room asks for at least one seat. -/
def Roomy (s : Roomserver) (e : Event) : Prop :=
  ∀ ptr buf doc connection rq, e = .message ptr buf doc → Requests s ptr doc connection rq →
    s.joinOutcome ⟨ptr, connection.cidHashVal⟩ rq = .ok .creates → 1 ≤ rq.roomConfig.max

/-- One room changes and keeps its players. -/
theorem Anchored.insert (anchored : s.Anchored) (live : s.roomHeap[p]? = some r)
    (heap : t.roomHeap = s.roomHeap.insert p r') (map : t.connectionMap = s.connectionMap)
    (players : ∀ cidHash, cidHash ∈ r.playermap → cidHash ∈ r'.playermap) : t.Anchored := by
  intro cidHash q mapped
  rw [map] at mapped
  obtain ⟨r₁, found, seated⟩ := anchored cidHash q mapped
  rw [heap, OrderedMap.lookup_insert]
  by_cases same : p = q
  · subst same
    cases Option.some.inj (live.symm.trans found)
    exact ⟨r', if_pos rfl, players cidHash seated⟩
  · exact ⟨r₁, by rw [if_neg same, found], seated⟩

/-- A player is entered for the room that now seats him. -/
theorem Anchored.enter {base : TreeMap Nat Nat} (anchored : s.Anchored) (q : QconnIo)
    (same : ∀ cidHash, cidHash ≠ q.cidHashVal → base[cidHash]? = s.connectionMap[cidHash]?)
    (map : t.connectionMap = base.insert q.cidHashVal p)
    (heap : ∀ other : Nat, t.roomHeap[other]? = if p = other then some r' else s.roomHeap[other]?)
    (others : ∀ (r : Room) (cidHash : Nat), s.roomHeap[p]? = some r → cidHash ∈ r.playermap →
      cidHash ∈ r'.playermap)
    (seated : q.cidHashVal ∈ r'.playermap) :
    t.Anchored := by
  intro cidHash other mapped
  rw [map, OrderedMap.lookup_insert] at mapped
  rw [heap]
  split at mapped
  · rename_i own
    cases Option.some.inj mapped
    exact ⟨r', if_pos rfl, own ▸ seated⟩
  · rename_i different
    rw [same cidHash (Ne.symm different)] at mapped
    obtain ⟨r, found, seatedBefore⟩ := anchored cidHash other mapped
    by_cases here : p = other
    · subst here
      exact ⟨r', if_pos rfl, others r cidHash found seatedBefore⟩
    · exact ⟨r, by rw [if_neg here, found], seatedBefore⟩

/-- A seat is given up together with its entry. -/
theorem Anchored.leave (anchored : s.Anchored) (sound : Sound site s) (q : QconnIo)
    (live : s.roomHeap[p]? = some r) :
    (s.vacates site q p r).Anchored := by
  intro cidHash other mapped
  rw [vacates, connectionMap_updateRoom, OrderedMap.lookup_erase] at mapped
  split at mapped
  · contradiction
  · rename_i different
    obtain ⟨r₁, found, seated⟩ := anchored cidHash other mapped
    rw [heap_vacates sound live, OrderedMap.lookup_insert]
    by_cases here : p = other
    · subst here
      cases Option.some.inj (live.symm.trans found)
      refine ⟨_, if_pos rfl, ?_⟩
      rw [OrderedMap.mem_iff_lookup, Room.apply_remove_lookup (sound.inv live), if_neg different,
        ← OrderedMap.mem_iff_lookup]
      exact seated
    · exact ⟨r₁, by rw [if_neg here, found], seated⟩

/-- A room that seats nobody has no entry. -/
theorem Anchored.erase (anchored : s.Anchored) (live : s.roomHeap[p]? = some r)
    (empty : r.getPlaymapCount = 0) (heap : t.roomHeap = s.roomHeap.erase p)
    (map : t.connectionMap = s.connectionMap) : t.Anchored := by
  intro cidHash q mapped
  rw [map] at mapped
  obtain ⟨r₁, found, seated⟩ := anchored cidHash q mapped
  have different : p ≠ q := by
    rintro rfl
    cases Option.some.inj (live.symm.trans found)
    exact OrderedMap.size_zero_iff.mp (Int.ofNat_eq_zero.mp empty) cidHash seated
  exact ⟨r₁, by rw [heap, OrderedMap.lookup_erase_ne _ different, found], seated⟩

theorem Anchored.sweeps (anchored : s.Anchored) (sweeps : Sweeps site s zombies t) :
    t.Anchored := by
  induction sweeps with
  | done => exact anchored
  | @next s t p zombie zombies live rest ih =>
    apply ih
    rw [swept, deleteRoom_eq]
    intro cidHash q mapped
    change ((zombie.playermap.keys ++ zombie.disconnectedPlayers.map (·.hash)).foldl
      (fun map hash => map.erase hash) s.connectionMap)[cidHash]? = some q at mapped
    rw [OrderedMap.lookup_eraseAll] at mapped
    split at mapped
    · contradiction
    · rename_i unlisted
      obtain ⟨r, found, seated⟩ := anchored cidHash q mapped
      have different : p ≠ q := by
        rintro rfl
        cases Option.some.inj (live.symm.trans found)
        exact unlisted (List.mem_append_left _ (TreeMap.mem_keys.mpr seated))
      exact ⟨r, by rw [OrderedMap.lookup_erase_ne _ different]; exact found, seated⟩

theorem Anchored.request (anchored : s.Anchored) (sound : Sound site s)
    (requests : Requests s ptr doc connection rq)
    (joined : Joined site (s.matched ptr connection) ⟨ptr, connection.cidHashVal⟩ rq t)
    (roomy : s.Roomy (.message ptr buf doc)) : t.Anchored := by
  have soundMatched := sound_matched sound ptr connection
  have anchoredMatched : (s.matched ptr connection).Anchored := anchored
  cases joined with
  | alreadySeated => exact anchored
  | @joins room prev r base outcome live accepted same =>
    have players : (r.apply (.tryAdd ⟨ptr, connection.cidHashVal⟩ rq.pid prev)).1.playermap = _ :=
      Room.apply_tryAdd_playermap accepted
    have heap : ∀ other : Nat, ((s.matched ptr connection).updateRoom site room
        (r.apply (.tryAdd ⟨ptr, connection.cidHashVal⟩ rq.pid prev)).1
        (r.apply (.tryAdd ⟨ptr, connection.cidHashVal⟩ rq.pid prev)).2).roomHeap[other]? =
        if room = other then some (r.apply (.tryAdd ⟨ptr, connection.cidHashVal⟩ rq.pid prev)).1
        else (s.matched ptr connection).roomHeap[other]? := by
      intro other
      rw [heap_updateRoom soundMatched live rfl, OrderedMap.lookup_insert]
    refine anchoredMatched.enter ⟨ptr, connection.cidHashVal⟩ same rfl heap
      (fun r₁ cidHash found seated => ?_) ?_
    · cases Option.some.inj (live.symm.trans found)
      rw [players, OrderedMap.mem_insert_iff]
      exact .inr seated
    · rw [players, OrderedMap.mem_insert_iff]
      exact .inl rfl
  | @creates base outcome same =>
    rw [joinOutcome_matched] at outcome
    have place := roomy ptr _ _ connection rq rfl requests outcome
    obtain ⟨_, _, map, _⟩ := joinNewRoom_frame site
      { s.matched ptr connection with connectionMap := base }
      ⟨ptr, connection.cidHashVal⟩ rq
    have heap := heap_joinNewRoom site { s.matched ptr connection with connectionMap := base }
      ⟨ptr, connection.cidHashVal⟩ rq
    refine anchoredMatched.enter ⟨ptr, connection.cidHashVal⟩ same map heap (fun r₁ cidHash found => ?_)
      ((newborn_seated _ ⟨ptr, connection.cidHashVal⟩ rq).mpr place)
    change s.roomHeap[s.roomIdCounter]? = some r₁ at found
    rw [(sound.unborn (Nat.le_refl _)).1] at found
    contradiction

theorem Effect.anchored (sound : Sound site s) (anchored : s.Anchored) (effect : Effect site s e t)
    (roomy : s.Roomy e) : t.Anchored := by
  cases effect with
  | connect | connected | hi | ignored | shutdown | unseated | clock | keyExpires | keyExpired =>
    exact anchored
  | request requests joined => exact anchored.request sound requests joined roomy
  | chat found mapped live present =>
    refine anchored.insert live (heap_updateRoom sound live rfl) (connectionMap_updateRoom ..)
      fun cidHash seated => ?_
    rw [Room.apply_message]
    exact seated
  | tick live active =>
    refine anchored.insert live (heap_updateRoom sound live active) (connectionMap_updateRoom ..)
      fun cidHash seated => ?_
    rw [(Room.apply_tick_seats (sound.inv live) active).1]
    exact seated
  | @leaves ptr room connection r found mapped live stays =>
    have left := anchored.leave sound ⟨ptr, connection.cidHashVal⟩ live
    exact left
  | @leavesLast middle ptr room connection r found mapped live ended empty same listed =>
    have left := anchored.leave sound ⟨ptr, connection.cidHashVal⟩ live
    have after : (s.vacates site ⟨ptr, connection.cidHashVal⟩ room r).roomHeap[room]? =
        some (r.apply (.remove ⟨ptr, connection.cidHashVal⟩)).1 := by
      rw [heap_vacates sound live, OrderedMap.lookup_insert, if_pos rfl]
    rw [← same] at left after
    rw [deleteRoom_eq]
    exact left.erase after empty rfl rfl
  | sweeps sweeps listed => exact anchored.sweeps sweeps

/-- Without seats the creator is entered for a room that does not seat him. -/
theorem Anchored.roomy (anchored : t.Anchored) (step : (machine site).Step s e t) : s.Roomy e := by
  rintro ptr buf doc connection rq rfl requests outcome
  cases requests.joined step with
  | alreadySeated other | joins other =>
    rw [joinOutcome_matched, outcome] at other
    cases other
  | @creates base _ same =>
    have mapped := (joinNewRoom_frame site { s.matched ptr connection with connectionMap := base }
      ⟨ptr, connection.cidHashVal⟩ rq).2.2.1
    obtain ⟨r, live, seated⟩ := anchored connection.cidHashVal s.roomIdCounter (by
      rw [mapped, OrderedMap.lookup_insert, if_pos rfl]; rfl)
    rw [heap_joinNewRoom] at live
    cases Option.some.inj (live.symm.trans (if_pos rfl))
    exact (newborn_seated _ _ _).mp seated

/-! ### No dangling rooms -/

structure NoDangling (site : Site) (s : Roomserver) : Prop where
  entries : ∀ cidHash p : Nat, s.connectionMap[cidHash]? = some p →
    (p ∈ s.waitingRooms ∨ p ∈ s.rooms) ∧ ∃ r : Room, s.roomHeap[p]? = some r ∧ cidHash ∈ r.playermap
  dereferences : ∀ (e : Event) (p : Nat), (machine site).enabled s e →
    next site s e ≠ .error (.useAfterFree p)

theorem noDangling_iff (sound : Sound site s) : NoDangling site s ↔ s.Anchored := by
  constructor
  · exact fun safe cidHash p mapped => (safe.entries cidHash p mapped).2
  · intro anchored
    constructor
    case entries =>
      intro cidHash p mapped
      obtain ⟨r, live, seated⟩ := anchored cidHash p mapped
      rcases sound.listed live with ⟨_, waiting⟩ | ⟨_, started⟩
      · exact ⟨.inl waiting, r, live, seated⟩
      · exact ⟨.inr started, r, live, seated⟩
    case dereferences =>
      intro e p possible faults
      obtain ⟨t, _, moved⟩ := progress sound anchored possible
      have same : (Except.error (.useAfterFree p) : Except Fault Roomserver) = .ok t :=
        faults.symm.trans moved
      cases same

/-- A run stays free of dangling rooms exactly as long as no request creates a
room without seats. -/
theorem no_dangling_rooms_iff (run : (machine site).Run es s) :
    (machine site).Always (NoDangling site) es ↔ (machine site).Meets Roomy es := by
  refine Machine.always_iff_meets ?_ ?_ run
  · refine (noDangling_iff (sound_init site)).mpr fun cidHash p mapped => ?_
    simp at mapped
  · intro es s e t before safe step
    have sound := sound_of_run before
    rw [noDangling_iff ((step_effect step).sound sound)]
    exact ⟨fun anchored => anchored.roomy step,
      (step_effect step).anchored sound ((noDangling_iff sound).mp safe)⟩

/-- A request for a room without seats, and the sweep of that room 20 seconds later. -/
def seatless : List Event :=
  arrival 1 11 { roomConfig := { min := 1, max := 0 } } ++ [.clock 20000, .checkZombieRooms]

def faultOf : Except Fault Roomserver → Option Fault
  | .error fault => some fault
  | .ok _ => none

theorem eq_error_of_faultOf (faults : faultOf outcome = some fault) : outcome = .error fault := by
  cases outcome with
  | error other => rw [Option.some.inj faults]
  | ok => cases faults

/-- The room is gone, the entry is not, and the disconnect follows it. -/
theorem dangling_room :
    (usedHashes seatless).Nodup ∧ ∃ s, (machine ⟨.gameRoom, [], []⟩).Run seatless s ∧
      s.connectionMap[11]? = some 0 ∧ s.roomHeap[0]? = none ∧
      0 ∉ s.waitingRooms ∧ 0 ∉ s.rooms ∧
        (machine ⟨.gameRoom, [], []⟩).enabled s (.destroyConnection 1) ∧
      next ⟨.gameRoom, [], []⟩ s (.destroyConnection 1) = .error (.useAfterFree 0) := by
  have shown : ((machine ⟨.gameRoom, [], []⟩).exec {} seatless).map
      (fun s => (s.connectionMap[11]?, (s.roomHeap[0]?).isNone, s.waitingRooms ++ s.rooms,
        s.enabled (.destroyConnection 1),
          faultOf (next ⟨.gameRoom, [], []⟩ s (.destroyConnection 1)))) =
      some (some 0, true, [], true, some (.useAfterFree 0)) := by decide +kernel
  obtain ⟨s, run, same⟩ := Machine.exec_observe shown
  simp only [Prod.mk.injEq, Option.isNone_iff_eq_none, List.append_eq_nil_iff] at same
  obtain ⟨mapped, gone, ⟨waiting, started⟩, possible, faults⟩ := same
  exact
    ⟨by decide, s, run, mapped, gone, by simp [waiting], by simp [started], possible,
      eq_error_of_faultOf faults⟩

/-- The request of that run is not a roomy one. -/
theorem no_dangling_rooms_iff_seatless :
    ∃ s, (machine ⟨.gameRoom, [], []⟩).Run seatless s ∧
      ¬ (machine ⟨.gameRoom, [], []⟩).Meets Roomy seatless := by
  have shown : ((machine ⟨.gameRoom, [], []⟩).exec {} seatless).map
      (fun s => (s.connectionMap[11]?, (s.roomHeap[0]?).isNone)) = some (some 0, true) := by
        decide +kernel
  obtain ⟨s, run, same⟩ := Machine.exec_observe shown
  simp only [Prod.mk.injEq, Option.isNone_iff_eq_none] at same
  refine ⟨s, run, fun meets => ?_⟩
  have safe := (no_dangling_rooms_iff run).mpr meets _ _ (List.prefix_refl _) run
  obtain ⟨_, r, live, _⟩ := safe.entries 11 0 same.1
  exact Option.some_ne_none r (live.symm.trans same.2)

end Gearsdk.Roomserver
