import Gearsdk.Qnetworkserver
import Gearsdk.Roomserver.Frame
import Gearsdk.Uthash.Runs
import Mathlib.Logic.Relation

/-! What one event does to a server, as a series of actions: a connection is opened
or destroyed, the room server is called, a heartbeat is noted, a packet is sent.
Every action keeps the table of connections, the objects and the room server in
step with one another. -/
namespace Gearsdk.Qnetworkserver
open Std Transition Relation

variable {host : Host} {s t : Qnetworkserver} {e : NetEvent} {ptr p : Nat}

/-- The calls of the room server that neither make nor destroy a connection. -/
def passes : Event → Bool
  | .connect _ _ | .destroyConnection _ => false
  | _ => true

inductive Acts (host : Host) (e : NetEvent) (s : Qnetworkserver) : Qnetworkserver → Prop where
  | opens {ptr : Nat} {datagram : Datagram} {header : Header} {connId : List UInt8}
      {t : Qnetworkserver}
      (event : e = .datagram datagram) (parsed : datagram.header = some header)
      (nonnull : ptr ≠ Roomserver.nullptr)
      (fresh : ptr ∉ s.conns) (unknown : s.h.find header.connId = none)
      (shape : header.token = Qstring.literal "quiche" ++ datagram.peerAddr ++ connId)
      (created : s.createConn host ptr header datagram.peerAddr = .ok t) : Acts host e s t
  | calls {inner : Event} {t : Qnetworkserver} (possible : s.room.enabled inner = true)
      (other : passes inner = true)
      (timed : ∀ now, inner = .clock now → e = .clock now)
      (called : s.deliver host inner = .ok t) : Acts host e s t
  | hears {ptr : Nat} (inside : ptr ∈ s.conns) : Acts host e s (s.heard ptr)
  | destroys {ptr : Nat} {t : Qnetworkserver} (inside : ptr ∈ s.conns)
      (destroyed : s.destroyConnection host ptr = .ok t) :
      Acts host e s t
  | negotiates (peerAddr : Sockaddr) :
      Acts host e s { s with sent := s.sent ++ [.versionNegotiation peerAddr] }
  | retries {peerAddr : Sockaddr} {newCid connId : List UInt8}
      (short : connId.length ≤ AddressToken.quicheMaxConnIdLen) :
      Acts host e s
        { s with
          sent := s.sent ++
            [.retry peerAddr newCid (Qstring.literal "quiche" ++ peerAddr ++ connId)] }
  | counts : Acts host e s s.onHeartbeatCheck

/-- The table, the objects and the room server know the same connections. -/
structure Consistent (host : Host) (s : Qnetworkserver) : Prop where
  holds : s.h.Holds s.h.items
  run : (Roomserver.machine host.site).Run s.delivered s.room
  mem : ∀ ptr, ptr ∈ s.conns ↔ ptr ∈ s.h.items
  keys : ∀ {ptr qconnection}, s.conns[ptr]? = some qconnection → s.h.key ptr = qconnection.cid
  hashes : ∀ ptr, (s.room.profile ptr).map Prod.fst = (s.conns[ptr]?).map fun qconnection =>
    cidHashVal qconnection.cid

theorem Consistent.init : Consistent host {} where
  holds := .init
  run := .refl _
  mem := by simp [Uthash.Hash.items, Uthash.Hash.cnt, DoublyLinked.follow]
  keys found := by simp at found
  hashes ptr := by simp [Roomserver.profile]

theorem Consistent.mem_room (consistent : Consistent host s) :
    ptr ∈ s.room.conns ↔ ptr ∈ s.conns := by
  have same := congrArg Option.isSome (consistent.hashes ptr)
  rw [Option.isSome_map, Option.isSome_map] at same
  rw [Roomserver.mem_conns_iff_profile, same, TreeMap.mem_iff_isSome_getElem?]

/-- The connections as the room server lists them. -/
theorem Consistent.items_iff (consistent : Consistent host s) :
    ptr ∈ s.h.items ↔ ptr ∈ s.room.conns := by
  rw [consistent.mem_room, consistent.mem]

theorem isEstablished_iff :
    s.isEstablished ptr = true ↔ ∃ hash, s.room.profile ptr = some (hash, true) := by
  rw [isEstablished, Roomserver.profile]
  cases s.room.conns[ptr]? <;> simp

/-! ### Calls of the room server -/

theorem deliver_eq_ok_iff {inner : Event} :
    s.deliver host inner = .ok t ↔
      ∃ room, Roomserver.next host.site s.room inner = .ok room ∧
        t = { s with room, delivered := s.delivered ++ [inner] } := by
  rw [deliver]
  cases Roomserver.next host.site s.room inner with
  | error fault => simp
  | ok room => simp [eq_comm]

theorem deliver_step {inner : Event} (possible : s.room.enabled inner = true)
    (called : s.deliver host inner = .ok t) :
    (Roomserver.machine host.site).Step s.room inner t.room ∧
      t = { s with room := t.room, delivered := s.delivered ++ [inner] } := by
  obtain ⟨room, moved, rfl⟩ := deliver_eq_ok_iff.mp called
  exact ⟨⟨possible, moved⟩, rfl⟩

theorem profile_passes {inner : Event} (run : (Roomserver.machine host.site).Run es r)
    (other : passes inner = true) (step : (Roomserver.machine host.site).Step r inner r')
    (p : Nat) :
    (r'.profile p).map Prod.fst = (r.profile p).map Prod.fst := by
  cases inner with
  | connect | destroyConnection => contradiction
  | connected ptr =>
    rw [Roomserver.profile_connected step]
    split
    · rw [Option.map_map]
      rfl
    · rfl
  | _ => rw [Roomserver.profile_kept run step rfl]

/-! ### Every action keeps the parts together -/

theorem mem_heard (s : Qnetworkserver) (ptr : Nat) : p ∈ (s.heard ptr).conns ↔ p ∈ s.conns := by
  rw [heard]
  cases found : s.conns[ptr]? with
  | none => rfl
  | some qconnection =>
    have there : ptr ∈ s.conns := OrderedMap.mem_of_lookup found
    rw [OrderedMap.mem_insert_iff]
    exact ⟨fun either => either.elim (fun same => same ▸ there) id, .inr⟩

/-- A heartbeat changes nothing but one time. -/
theorem lookup_heard (s : Qnetworkserver) (ptr p : Nat) :
    (s.heard ptr).conns[p]? = (s.conns[p]?).map fun qconnection =>
      if ptr = p then { qconnection with lastHeartbeatTime := s.room.evNow } else qconnection := by
  rw [heard]
  cases found : s.conns[ptr]? with
  | none =>
    by_cases same : ptr = p
    · subst same
      simp [found]
    · simp [same]
  | some qconnection =>
    rw [OrderedMap.lookup_insert]
    by_cases same : ptr = p
    · subst same
      simp [found]
    · simp [same]

theorem heard_frame (s : Qnetworkserver) (ptr : Nat) :
    (s.heard ptr).h = s.h ∧ (s.heard ptr).room = s.room ∧ (s.heard ptr).delivered = s.delivered ∧
      (s.heard ptr).sent = s.sent := by
  rw [heard]
  cases s.conns[ptr]? <;> exact ⟨rfl, rfl, rfl, rfl⟩

theorem createConn_eq_ok (created : s.createConn host ptr header peerAddr = .ok t) :
    ∃ h room, s.h.add header.cid ptr = .ok h ∧
      Roomserver.next host.site s.room (.connect ptr (cidHashVal header.cid)) = .ok room ∧
      t = { s with
        h, room
        conns := s.conns.insert ptr { cid := header.cid, peerAddr, lastHeartbeatTime := s.room.evNow }
        delivered := s.delivered ++ [.connect ptr (cidHashVal header.cid)] } := by
  rw [createConn] at created
  cases added : s.h.add header.cid ptr with
  | error =>
    rw [added] at created
    cases created
  | ok h =>
    rw [added] at created
    obtain ⟨room, moved, rfl⟩ := deliver_eq_ok_iff.mp created
    exact ⟨h, room, rfl, moved, rfl⟩

theorem destroyConnection_eq_ok (destroyed : s.destroyConnection host ptr = .ok t) :
    ∃ room, Roomserver.next host.site s.room (.destroyConnection ptr) = .ok room ∧
      t = { s with
        room
        h := s.h.delete ptr
        conns := s.conns.erase ptr
        delivered := s.delivered ++ [.destroyConnection ptr] } := by
  rw [destroyConnection] at destroyed
  cases called : s.deliver host (.destroyConnection ptr) with
  | error fault =>
    rw [called] at destroyed
    cases destroyed
  | ok u =>
    rw [called] at destroyed
    obtain ⟨room, moved, rfl⟩ := deliver_eq_ok_iff.mp called
    exact ⟨room, moved, (Except.ok.inj destroyed).symm⟩

theorem Consistent.connect_enabled (consistent : Consistent host s)
    (nonnull : ptr ≠ Roomserver.nullptr) (fresh : ptr ∉ s.conns) (hash : Nat) :
    s.room.enabled (.connect ptr hash) = true := by
  have unlisted : s.room.conns.contains ptr = false := by
    rw [← Bool.not_eq_true, ← TreeMap.mem_iff_contains, consistent.mem_room]
    exact fresh
  simp [Roomserver.enabled, nonnull, unlisted]

theorem Consistent.destroy_enabled (consistent : Consistent host s) (inside : ptr ∈ s.conns) :
    s.room.enabled (.destroyConnection ptr) = true :=
  TreeMap.mem_iff_contains.mp (consistent.mem_room.mpr inside)

theorem Consistent.opened (consistent : Consistent host s) (nonnull : ptr ≠ Roomserver.nullptr)
    (fresh : ptr ∉ s.conns) (created : s.createConn host ptr header peerAddr = .ok t) :
    Consistent host t ∧ t.h.items = s.h.items ++ [ptr] := by
  obtain ⟨h, room, added, moved, rfl⟩ := createConn_eq_ok created
  have unlisted : ptr ∉ s.h.items := fun inside => fresh ((consistent.mem ptr).mpr inside)
  obtain ⟨h', added', holds, keys⟩ := consistent.holds.add header.cid unlisted
  cases Except.ok.inj (added.symm.trans added')
  have step : (Roomserver.machine host.site).Step s.room (.connect ptr (cidHashVal header.cid)) room :=
    ⟨consistent.connect_enabled nonnull fresh _, moved⟩
  refine ⟨⟨holds.self, consistent.run.step step, fun p => ?_, fun {p qconnection} found => ?_,
    fun p => ?_⟩, holds.items⟩
  · change p ∈ s.conns.insert ptr _ ↔ p ∈ h.items
    rw [holds.items, OrderedMap.mem_insert_iff, List.mem_append, List.mem_singleton, consistent.mem,
      or_comm, eq_comm]
  · change (s.conns.insert ptr _)[p]? = some qconnection at found
    change h.key p = qconnection.cid
    rw [OrderedMap.lookup_insert] at found
    rw [keys]
    split at found
    · rename_i same
      cases found
      rw [same, Function.update_self]
    · rename_i other
      rw [Function.update_of_ne (Ne.symm other)]
      exact consistent.keys found
  · change (room.profile p).map Prod.fst = ((s.conns.insert ptr _)[p]?).map _
    rw [Roomserver.profile_connect step, OrderedMap.lookup_insert]
    split
    · rfl
    · exact consistent.hashes p

theorem Consistent.called {inner : Event} (consistent : Consistent host s)
    (possible : s.room.enabled inner = true) (other : passes inner = true)
    (called : s.deliver host inner = .ok t) : Consistent host t := by
  obtain ⟨step, same⟩ := deliver_step possible called
  rw [same]
  refine ⟨consistent.holds, consistent.run.step step, consistent.mem, consistent.keys, fun p => ?_⟩
  exact (profile_passes consistent.run other step p).trans (consistent.hashes p)

theorem Consistent.heard (consistent : Consistent host s) (ptr : Nat) :
    Consistent host (s.heard ptr) := by
  obtain ⟨h, room, delivered, -⟩ := heard_frame s ptr
  refine ⟨?_, ?_, fun p => ?_, fun {p qconnection} found => ?_, fun p => ?_⟩
  · rw [h]
    exact consistent.holds
  · rw [room, delivered]
    exact consistent.run
  · rw [mem_heard, h]
    exact consistent.mem p
  · rw [lookup_heard, Option.map_eq_some_iff] at found
    obtain ⟨before, found, rfl⟩ := found
    rw [h, consistent.keys found]
    split <;> rfl
  · rw [room, consistent.hashes, lookup_heard, Option.map_map]
    refine congrArg (fun f => Option.map f s.conns[p]?) (funext fun qconnection => ?_)
    rw [Function.comp_apply]
    split <;> rfl

theorem Consistent.destroyed (consistent : Consistent host s) (inside : ptr ∈ s.conns)
    (destroyed : s.destroyConnection host ptr = .ok t) :
    Consistent host t ∧ t.h.items = s.h.items.erase ptr := by
  obtain ⟨room, moved, rfl⟩ := destroyConnection_eq_ok destroyed
  obtain ⟨holds, keys⟩ := consistent.holds.delete ((consistent.mem ptr).mp inside)
  have step : (Roomserver.machine host.site).Step s.room (.destroyConnection ptr) room :=
    ⟨consistent.destroy_enabled inside, moved⟩
  refine ⟨⟨holds.self, consistent.run.step step, fun p => ?_, fun {p qconnection} found => ?_,
    fun p => ?_⟩, holds.items⟩
  · change p ∈ s.conns.erase ptr ↔ p ∈ (s.h.delete ptr).items
    rw [holds.items, OrderedMap.mem_erase_iff, consistent.holds.distinct.mem_erase_iff,
      consistent.mem, ne_comm]
  · change (s.conns.erase ptr)[p]? = some qconnection at found
    change (s.h.delete ptr).key p = qconnection.cid
    rw [OrderedMap.lookup_erase] at found
    rw [keys]
    split at found
    · cases found
    · exact consistent.keys found
  · change (room.profile p).map Prod.fst = ((s.conns.erase ptr)[p]?).map _
    rw [Roomserver.profile_destroy consistent.run step, OrderedMap.lookup_erase]
    split
    · rfl
    · exact consistent.hashes p

theorem Acts.consistent (acts : Acts host e s t) (consistent : Consistent host s) :
    Consistent host t := by
  cases acts with
  | opens event parsed nonnull fresh unknown shape created =>
    exact (consistent.opened nonnull fresh created).1
  | calls possible other timed called => exact consistent.called possible other called
  | hears => exact consistent.heard _
  | destroys inside destroyed => exact (consistent.destroyed inside destroyed).1
  | negotiates | retries | counts =>
    exact ⟨consistent.holds, consistent.run, consistent.mem, consistent.keys, consistent.hashes⟩

end Gearsdk.Qnetworkserver
