import Gearsdk.Room.Invariant

/-! The seats of a room after each operation, told by hash: who is seated, and
which seats are kept. -/
namespace Gearsdk.Room
open Std

variable {r : Room} {q : QconnIo} {pid : Qstring} {prev : Nat}

theorem apply_tryAdd_rejected (rejected : r.accepts q.cidHashVal prev = false) :
    (r.apply (.tryAdd q pid prev)).1 = r := by
  obtain ⟨code, _, _, same⟩ := tryAddConnection_rejected pid rejected
  simp only [apply, same]

theorem apply_tryAdd_eq (accepted : r.accepts q.cidHashVal prev = true) :
    (r.apply (.tryAdd q pid prev)).1 = (r.occupied q pid prev).startOrCountDown.1 := by
  simp only [apply, tryAddConnection_accepted accepted]

/-- A start or a countdown leaves the seats as they are. -/
theorem startOrCountDown_seats (r : Room) : r.startOrCountDown.1.playermap = r.playermap ∧
    r.startOrCountDown.1.disconnectedPlayers = r.disconnectedPlayers := by
  obtain ⟨_, idle⟩ | ⟨_, ⟨_, starts⟩ | ⟨_, counts⟩⟩ := r.startOrCountDown_cases
  · rw [idle]
    exact ⟨rfl, rfl⟩
  · rw [starts]
    exact ⟨rfl, rfl⟩
  · rw [counts]
    exact ⟨rfl, rfl⟩

theorem apply_tryAdd_playermap (accepted : r.accepts q.cidHashVal prev = true) :
    (r.apply (.tryAdd q pid prev)).1.playermap =
      r.playermap.insert q.cidHashVal (r.entrant q pid prev) := by
  rw [apply_tryAdd_eq accepted, (startOrCountDown_seats _).1, occupied_playermap]

theorem apply_tryAdd_disconnectedPlayers (accepted : r.accepts q.cidHashVal prev = true) :
    (r.apply (.tryAdd q pid prev)).1.disconnectedPlayers = (r.prepared prev).disconnectedPlayers := by
  rw [apply_tryAdd_eq accepted, (startOrCountDown_seats _).2, occupied_disconnectedPlayers]

theorem apply_remove_lookup (inv : r.Inv) (q : QconnIo) (cidHash : Nat) :
    (r.apply (.remove q)).1.playermap[cidHash]? =
      if q.cidHashVal = cidHash then none else r.playermap[cidHash]? := by
  have change := change_remove inv.initialised q
  generalize (r.apply (.remove q)).1 = r', (r.apply (.remove q)).2 = calls at change ⊢
  cases change with
  | forgets absent =>
    change r.playermap[cidHash]? = _
    split
    · rename_i same
      rw [← same, absent]
    · rfl
  | _ => exact OrderedMap.lookup_erase r.playermap q.cidHashVal cidHash

/-- A seat is kept under the hash of the connection that left it. -/
theorem apply_remove_kept (inv : r.Inv)
    (kept : seat ∈ (r.apply (.remove q)).1.disconnectedPlayers) :
    seat ∈ r.disconnectedPlayers ∨ seat.hash = q.cidHashVal := by
  have change := change_remove inv.initialised q
  generalize (r.apply (.remove q)).1 = r', (r.apply (.remove q)).2 = calls at change kept
  cases change with
  | forgets absent => exact .inl (List.mem_of_mem_eraseP kept)
  | keeps found =>
    rcases List.mem_append.mp kept with old | new
    · exact .inl old
    · rw [List.mem_singleton.mp new]
      exact .inr (inv.seated.keyed _ _ found)
  | _ => exact .inl kept

theorem apply_tick_seats (inv : r.Inv) (fires : r.allows (.tick timer) = true) :
    (r.apply (.tick timer)).1.playermap = r.playermap ∧
      (r.apply (.tick timer)).1.disconnectedPlayers = r.disconnectedPlayers := by
  have change := change_of_inv inv fires
  generalize (r.apply (.tick timer)).1 = r', (r.apply (.tick timer)).2 = calls at change ⊢
  cases change with
  | ticks | lastTick => exact ⟨rfl, rfl⟩

theorem apply_message (r : Room) (cidHash : Nat) (msg : Qstring) :
    (r.apply (.message cidHash msg)).1 = r := by
  simp only [apply]
  split <;> rfl

theorem apply_roomConfig (inv : r.Inv) (allowed : r.allows op = true) :
    (r.apply op).1.roomConfig = r.roomConfig :=
  (change_of_inv inv allowed).sameConfig

/-- A room that has just been created takes its first player unless it has no
seat at all. -/
theorem create_accepts (roomClass : RoomClass) (roomId creationTime : Int) (roomConfig : RoomConfig)
    (cidHash : Nat) :
    (create roomClass roomId creationTime roomConfig).1.accepts cidHash 0 = true ↔
      1 ≤ roomConfig.maxPlayers := by
  simp [create_eq, accepts, resumedSeat, getPlaymapCount, States.rank]
  omega

end Gearsdk.Room
