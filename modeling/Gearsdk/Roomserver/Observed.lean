import Gearsdk.Room.Trace
import Gearsdk.Roomserver.Lists

/-! What the observer of a server sees of one room. A room that is live has the
trace of its own life; the trace of a deleted room ends with its destructor. -/
namespace Gearsdk.Roomserver
open Std Transition

variable {site : Site} {s : Roomserver} {p : Nat} {life : Room × List RoomCall}

theorem Lives.follows (lives : Lives site p life) :
    ∃ trace, ({} : Trace).read (observed life.2) = some trace ∧ Room.Follows trace life.1 := by
  obtain ⟨_, _, _, run⟩ := lives
  exact Room.run_follows run

/-- In every reachable state the events that one room has sent to the observer
are read to their end. The hashes then present are those of the players of the
room, and none once the room has been deleted. -/
theorem room_event_trace (run : (machine site).Run es s) (p : Nat) :
    ∃ trace, ({} : Trace).read (observed (s.logOf p)) = some trace ∧
      (∀ r, s.roomHeap[p]? = some r → ∀ cidHash, cidHash ∈ trace.present ↔ cidHash ∈ r.playermap) ∧
      (p < s.roomIdCounter → s.roomHeap[p]? = none → trace.present = ∅) := by
  have sound := sound_of_run run
  cases live : s.roomHeap[p]? with
  | some r =>
    obtain ⟨trace, reads, follows⟩ := (sound.lives live).follows
    refine ⟨trace, reads, fun r' same => ?_, fun _ gone => by contradiction⟩
    cases Option.some.inj same
    exact follows.present
  | none =>
    by_cases born : p < s.roomIdCounter
    · obtain ⟨r, calls, lives, logged⟩ := sound.deleted live born
      obtain ⟨trace, reads, follows⟩ := lives.follows
      obtain ⟨final, ends, empty⟩ := follows.destroy lives.inv.seated site.hostId site.portId
      refine ⟨final, ?_, fun r' same => by contradiction, fun _ _ => empty⟩
      rw [logged, observed_append, Trace.read_append, reads]
      exact ends
    · refine ⟨{}, ?_, fun r' same => by contradiction, fun early => absurd early born⟩
      rw [(sound.unborn (Nat.not_lt.mp born)).2]
      rfl

/-- A room for two whose players both drop out, the second one as its last. -/
theorem room_event_trace_duel :
    ∃ s, (machine ⟨.gameRoom, [], []⟩).Run
        (arrival 1 11 { roomConfig := { min := 2, max := 2 } } ++
          arrival 2 22 { roomConfig := { min := 2, max := 2 } } ++ [.destroyConnection 1,
            .destroyConnection 2]) s ∧
      observed (s.logOf 0) = [.roomEventCreate, .roomEventPlayerAdded [] 11,
        .roomEventPlayerAdded [] 22,
        .roomEventStart, .roomEventPlayerRemoved [] 11, .roomEventEnd,
          .roomEventPlayerRemoved [] 22] ∧
      ∃ trace, ({} : Trace).read (observed (s.logOf 0)) = some trace ∧ trace.present = ∅ := by
  have shown : ((machine ⟨.gameRoom, [], []⟩).exec {}
        (arrival 1 11 { roomConfig := { min := 2, max := 2 } } ++
          arrival 2 22 { roomConfig := { min := 2, max := 2 } } ++ [.destroyConnection 1,
            .destroyConnection 2])).map
      (fun s => (observed (s.logOf 0), decide (0 < s.roomIdCounter), (s.roomHeap[0]?).isNone)) =
      some ([.roomEventCreate, .roomEventPlayerAdded [] 11, .roomEventPlayerAdded [] 22,
        .roomEventStart, .roomEventPlayerRemoved [] 11, .roomEventEnd,
          .roomEventPlayerRemoved [] 22],
        true, true) := by decide +kernel
  obtain ⟨s, run, same⟩ := Machine.exec_observe shown
  simp only [Prod.mk.injEq, decide_eq_true_eq, Option.isNone_iff_eq_none] at same
  obtain ⟨trace, reads, _, empty⟩ := room_event_trace run 0
  exact ⟨s, run, same.1, trace, reads, empty same.2.1 same.2.2⟩

variable {t : Roomserver}

theorem Primitive.log_prefix (sound : Sound site s) (primitive : Primitive site s action t) :
    s.log <+: t.log := by
  cases primitive with
  | frame _ _ _ _ _ log => rw [log]
  | operate live allowed =>
    rw [(updateRoom_frame _ _ _ (Room.change_of_inv (sound.inv live) allowed)).2.1]
    exact List.prefix_append _ _
  | create msg => exact List.prefix_append _ _
  | delete live =>
    rw [deleteRoom_eq]
    exact List.prefix_append _ _

/-- Calls are only added to the log. -/
theorem Effect.log_prefix (sound : Sound site s) (effect : Effect site s e t) :
    s.log <+: t.log := by
  rcases effect.chain_or_expires sound with chain | ⟨_, rfl⟩
  · exact chain.invariant sound (P := fun u => s.log <+: u.log) (List.prefix_refl _)
      fun ready before step _ => before.trans (step.log_prefix ready)
  · exact List.prefix_refl _

theorem Sound.opens (sound : Sound site s) (p : Nat) : Trace.Opens (observed (s.logOf p)) := by
  cases live : s.roomHeap[p]? with
  | some r =>
    obtain ⟨trace, reads, _⟩ := (sound.lives live).follows
    exact Trace.opens reads
  | none =>
    by_cases born : p < s.roomIdCounter
    · obtain ⟨r, calls, lives, logged⟩ := sound.deleted live born
      obtain ⟨trace, reads, follows⟩ := lives.follows
      obtain ⟨final, ends, _⟩ := follows.destroy lives.inv.seated site.hostId site.portId
      have whole : ({} : Trace).read (observed (s.logOf p)) = some final := by
        rw [logged, observed_append, Trace.read_append, reads]
        exact ends
      exact Trace.opens whole
    · rw [(sound.unborn (Nat.not_lt.mp born)).2]
      exact .inl rfl

end Gearsdk.Roomserver
