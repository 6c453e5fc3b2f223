import Gearsdk.Room.Seats
import Gearsdk.Roomserver.Lists

/-! The registry of players. As long as no two connections of a run share a hash,
every seated player has a live connection and an entry for his room, and every
entry belongs to a live connection; kept seats belong to connections of the past. -/
namespace Gearsdk.Roomserver
open Std Transition

/-- The hashes of all connections of a history. -/
def usedHashes (es : List Event) : List Nat :=
  es.filterMap fun
    | .connect _ cidHashVal => some cidHashVal
    | _ => none

structure Registry (hashes : List Nat) (conns : TreeMap Nat Connection) (map : TreeMap Nat Nat)
    (heap : TreeMap Nat Room) (counter : Nat) : Prop where
  used : ∀ {ptr : Nat} {c : Connection}, conns[ptr]? = some c → c.cidHashVal ∈ hashes
  unique : ∀ {ptr ptr' : Nat} {c c' : Connection}, conns[ptr]? = some c → conns[ptr']? = some c' →
    c.cidHashVal = c'.cidHashVal → ptr = ptr'
  unmatched : ∀ {ptr : Nat} {c : Connection}, conns[ptr]? = some c →
    c.roomConfigReceived = false → map[c.cidHashVal]? = none
  seated : ∀ {p cidHash : Nat} {r : Room} {player : Player}, heap[p]? = some r →
    r.playermap[cidHash]? = some player →
    (∃ c, conns[player.qconnection.ptr]? = some c ∧ c.cidHashVal = cidHash) ∧ map[cidHash]? = some p
  mapped : ∀ {cidHash p : Nat}, map[cidHash]? = some p →
    ∃ (ptr : Nat) (c : Connection), conns[ptr]? = some c ∧ c.cidHashVal = cidHash
  bounded : ∀ {cidHash p : Nat}, map[cidHash]? = some p → p < counter
  entered : ∀ {cidHash p : Nat} {r : Room}, map[cidHash]? = some p → heap[p]? = some r →
    cidHash ∈ r.playermap ∨ r.roomConfig.maxPlayers ≤ 0
  kept : ∀ {p : Nat} {r : Room} {seat : DisconnectedPlayer}, heap[p]? = some r →
    seat ∈ r.disconnectedPlayers →
    seat.hash ∈ hashes ∧ ∀ {ptr : Nat} {c : Connection}, conns[ptr]? = some c →
      c.cidHashVal ≠ seat.hash

abbrev Registered (hashes : List Nat) (s : Roomserver) : Prop :=
  Registry hashes s.conns s.connectionMap s.roomHeap s.roomIdCounter

section
variable {hashes : List Nat} {conns conns' : TreeMap Nat Connection} {map map' : TreeMap Nat Nat}
  {heap heap' : TreeMap Nat Room} {counter p ptr cidHash : Nat} {r r' : Room} {c c' : Connection}

theorem Registry.connect (registry : Registry hashes conns map heap counter)
    (absent : conns[ptr]? = none) (fresh : cidHash ∉ hashes) :
    Registry (hashes ++ [cidHash]) (conns.insert ptr { cidHashVal := cidHash }) map heap counter := by
  have lookup : ∀ {ptr' : Nat} {c : Connection},
    (conns.insert ptr { cidHashVal := cidHash })[ptr']? = some c →
      (ptr' = ptr ∧ c = { cidHashVal := cidHash }) ∨ (ptr' ≠ ptr ∧ conns[ptr']? = some c) := by
    intro ptr' c found
    rw [OrderedMap.lookup_insert] at found
    split at found
    · rename_i same
      exact .inl ⟨same.symm, (Option.some.inj found).symm⟩
    · rename_i different
      exact .inr ⟨Ne.symm different, found⟩
  have unmapped : map[cidHash]? = none := by
    cases entry : map[cidHash]? with
    | none => rfl
    | some p =>
      obtain ⟨ptr', c, found, same⟩ := registry.mapped entry
      exact absurd (same ▸ registry.used found) fresh
  have kept : ∀ {ptr' : Nat} {c : Connection}, conns[ptr']? = some c →
      (conns.insert ptr { cidHashVal := cidHash })[ptr']? = some c := by
    intro ptr' c found
    have different : ptr ≠ ptr' := by
      rintro rfl
      rw [absent] at found
      contradiction
    rw [OrderedMap.lookup_insert_ne _ _ different, found]
  constructor
  case used =>
    intro ptr' c found
    obtain ⟨rfl, rfl⟩ | ⟨_, old⟩ := lookup found
    · simp
    · exact List.mem_append_left _ (registry.used old)
  case unique =>
    intro ptr₁ ptr₂ c₁ c₂ found₁ found₂ same
    obtain ⟨rfl, rfl⟩ | ⟨_, old₁⟩ := lookup found₁
    · obtain ⟨rfl, _⟩ | ⟨_, old₂⟩ := lookup found₂
      · rfl
      · exact absurd (registry.used old₂) (same ▸ fresh)
    · obtain ⟨rfl, rfl⟩ | ⟨_, old₂⟩ := lookup found₂
      · exact absurd (registry.used old₁) (same ▸ fresh)
      · exact registry.unique old₁ old₂ same
  case unmatched =>
    intro ptr' c found waiting
    obtain ⟨rfl, rfl⟩ | ⟨_, old⟩ := lookup found
    · exact unmapped
    · exact registry.unmatched old waiting
  case seated =>
    intro p r cidHash' player live seat
    obtain ⟨⟨c, found, same⟩, entry⟩ := registry.seated live seat
    exact ⟨⟨c, kept found, same⟩, entry⟩
  case mapped =>
    intro cidHash' p entry
    obtain ⟨ptr', c, found, same⟩ := registry.mapped entry
    exact ⟨ptr', c, kept found, same⟩
  case bounded => exact registry.bounded
  case entered => exact registry.entered
  case kept =>
    intro p r seat live member
    obtain ⟨known, past⟩ := registry.kept live member
    refine ⟨List.mem_append_left _ known, fun found => ?_⟩
    obtain ⟨rfl, rfl⟩ | ⟨_, old⟩ := lookup found
    · intro same
      change cidHash = seat.hash at same
      exact fresh (same ▸ known)
    · exact past old

/-- A flag of a connection changes. -/
theorem Registry.flag (registry : Registry hashes conns map heap counter)
    (found : conns[ptr]? = some c) (sameHash : c'.cidHashVal = c.cidHashVal)
    (matched : c'.roomConfigReceived = false → c.roomConfigReceived = false) :
    Registry hashes (conns.insert ptr c') map heap counter := by
  have lookup : ∀ {ptr' : Nat} {d : Connection}, (conns.insert ptr c')[ptr']? = some d →
      ∃ old : Connection, conns[ptr']? = some old ∧
      d.cidHashVal = old.cidHashVal ∧
        (d.roomConfigReceived = false → old.roomConfigReceived = false) := by
    intro ptr' d inserted
    rw [OrderedMap.lookup_insert] at inserted
    split at inserted
    · rename_i same
      cases Option.some.inj inserted
      exact ⟨c, same ▸ found, sameHash, matched⟩
    · exact ⟨d, inserted, rfl, id⟩
  have kept : ∀ {ptr' : Nat} {d : Connection}, conns[ptr']? = some d →
      ∃ new : Connection, (conns.insert ptr c')[ptr']? = some new ∧
        new.cidHashVal = d.cidHashVal := by
    intro ptr' d old
    rw [OrderedMap.lookup_insert]
    by_cases same : ptr = ptr'
    · subst same
      cases Option.some.inj (found.symm.trans old)
      exact ⟨c', if_pos rfl, sameHash⟩
    · exact ⟨d, by rw [if_neg same, old], rfl⟩
  constructor
  case used =>
    intro ptr' d inserted
    obtain ⟨old, before, same, _⟩ := lookup inserted
    exact same ▸ registry.used before
  case unique =>
    intro ptr₁ ptr₂ c₁ c₂ inserted₁ inserted₂ same
    obtain ⟨old₁, before₁, same₁, _⟩ := lookup inserted₁
    obtain ⟨old₂, before₂, same₂, _⟩ := lookup inserted₂
    exact registry.unique before₁ before₂ (by rw [← same₁, ← same₂, same])
  case unmatched =>
    intro ptr' d inserted waiting
    obtain ⟨old, before, same, earlier⟩ := lookup inserted
    rw [same]
    exact registry.unmatched before (earlier waiting)
  case seated =>
    intro p r cidHash player live seat
    obtain ⟨⟨d, before, same⟩, entry⟩ := registry.seated live seat
    obtain ⟨new, now, sameNew⟩ := kept before
    exact ⟨⟨new, now, sameNew.trans same⟩, entry⟩
  case mapped =>
    intro cidHash p entry
    obtain ⟨ptr', d, before, same⟩ := registry.mapped entry
    obtain ⟨new, now, sameNew⟩ := kept before
    exact ⟨ptr', new, now, sameNew.trans same⟩
  case bounded => exact registry.bounded
  case entered => exact registry.entered
  case kept =>
    intro p r seat live member
    obtain ⟨known, past⟩ := registry.kept live member
    refine ⟨known, fun inserted => ?_⟩
    obtain ⟨old, before, same, _⟩ := lookup inserted
    exact same ▸ past before

/-- A room changes and keeps its seats. -/
theorem Registry.room (registry : Registry hashes conns map heap counter) (live : heap[p]? = some r)
    (players : r'.playermap = r.playermap) (seats : r'.disconnectedPlayers = r.disconnectedPlayers)
    (config : r'.roomConfig = r.roomConfig) :
    Registry hashes conns map (heap.insert p r') counter := by
  have lookup : ∀ {q : Nat} {r₁ : Room}, (heap.insert p r')[q]? = some r₁ →
    ∃ old : Room, heap[q]? = some old ∧
      r₁.playermap = old.playermap ∧ r₁.disconnectedPlayers = old.disconnectedPlayers ∧
      r₁.roomConfig = old.roomConfig := by
    intro q r₁ inserted
    rw [OrderedMap.lookup_insert] at inserted
    split at inserted
    · rename_i same
      cases Option.some.inj inserted
      exact ⟨r, same ▸ live, players, seats, config⟩
    · exact ⟨r₁, inserted, rfl, rfl, rfl⟩
  constructor
  case used => exact registry.used
  case unique => exact registry.unique
  case unmatched => exact registry.unmatched
  case seated =>
    intro q r₁ cidHash player inserted seat
    obtain ⟨old, before, samePlayers, _⟩ := lookup inserted
    exact registry.seated before (samePlayers ▸ seat)
  case mapped => exact registry.mapped
  case bounded => exact registry.bounded
  case entered =>
    intro cidHash q r₁ entry inserted
    obtain ⟨old, before, samePlayers, _, sameConfig⟩ := lookup inserted
    rw [samePlayers, sameConfig]
    exact registry.entered entry before
  case kept =>
    intro q r₁ seat inserted member
    obtain ⟨old, before, _, sameSeats, _⟩ := lookup inserted
    exact registry.kept before (sameSeats ▸ member)

/-- A matched connection takes a place in room `p`, which may be a new one, or is
entered for a room that has no place at all. -/
theorem Registry.seat {counter' : Nat} (registry : Registry hashes conns map heap counter)
    (found : conns[ptr]? = some c) (matched : c.roomConfigReceived = true)
    (unmapped : map[c.cidHashVal]? = none)
    (entries : ∀ h : Nat, map'[h]? = if c.cidHashVal = h then some p else map[h]?)
    (roomsAfter : ∀ q : Nat, heap'[q]? = if p = q then some r' else heap[q]?)
    (later : counter ≤ counter') (numbered : p < counter')
    (own : ∀ player : Player, r'.playermap[c.cidHashVal]? = some player →
      player.qconnection.ptr = ptr)
    (others : ∀ (h : Nat) (player : Player), c.cidHashVal ≠ h → r'.playermap[h]? = some player →
      ∃ r : Room, heap[p]? = some r ∧ r.playermap[h]? = some player)
    (enters : c.cidHashVal ∈ r'.playermap ∨ r'.roomConfig.maxPlayers ≤ 0)
    (remains : ∀ h : Nat, map[h]? = some p → h ∈ r'.playermap ∨ r'.roomConfig.maxPlayers ≤ 0)
    (kept : ∀ seat ∈ r'.disconnectedPlayers, ∃ r : Room, heap[p]? = some r ∧
      seat ∈ r.disconnectedPlayers) :
    Registry hashes conns map' heap' counter' := by
  have old_entry : ∀ {h q : Nat}, map[h]? = some q → map'[h]? = some q := by
    intro h q entry
    have different : c.cidHashVal ≠ h := by
      rintro rfl
      rw [unmapped] at entry
      contradiction
    rw [entries, if_neg different, entry]
  constructor
  case used => exact registry.used
  case unique => exact registry.unique
  case unmatched =>
    intro ptr' d live waiting
    have different : c.cidHashVal ≠ d.cidHashVal := by
      intro same
      obtain rfl := registry.unique found live same
      cases Option.some.inj (found.symm.trans live)
      rw [matched] at waiting
      contradiction
    rw [entries, if_neg different]
    exact registry.unmatched live waiting
  case seated =>
    intro q h r₁ player live seat
    rw [roomsAfter] at live
    split at live
    · rename_i here
      cases Option.some.inj live
      subst here
      by_cases same : c.cidHashVal = h
      · subst same
        refine ⟨⟨c, ?_, rfl⟩, by rw [entries, if_pos rfl]⟩
        rw [own player seat, found]
      · obtain ⟨r, before, seatBefore⟩ := others h player same seat
        obtain ⟨owner, entry⟩ := registry.seated before seatBefore
        exact ⟨owner, old_entry entry⟩
    · obtain ⟨owner, entry⟩ := registry.seated live seat
      exact ⟨owner, old_entry entry⟩
  case mapped =>
    intro h q entry
    rw [entries] at entry
    split at entry
    · rename_i same
      exact ⟨ptr, c, found, same⟩
    · exact registry.mapped entry
  case bounded =>
    intro h q entry
    rw [entries] at entry
    split at entry
    · cases Option.some.inj entry
      exact numbered
    · exact Nat.lt_of_lt_of_le (registry.bounded entry) later
  case entered =>
    intro h q r₁ entry live
    rw [entries] at entry
    rw [roomsAfter] at live
    split at live
    · rename_i here
      cases Option.some.inj live
      subst here
      split at entry
      · rename_i same
        exact same ▸ enters
      · exact remains h entry
    · rename_i elsewhere
      split at entry
      · exact absurd (Option.some.inj entry) elsewhere
      · exact registry.entered entry live
  case kept =>
    intro q r₁ seat live member
    rw [roomsAfter] at live
    split at live
    · cases Option.some.inj live
      obtain ⟨r, before, memberBefore⟩ := kept seat member
      exact registry.kept before memberBefore
    · exact registry.kept live member

/-- A connection is gone, with its entry and its seat. A seat that is kept for
it is kept under its hash. -/
theorem Registry.unseat (registry : Registry hashes conns map heap counter)
    (found : conns[ptr]? = some c)
    (entries : ∀ h : Nat, map'[h]? = if c.cidHashVal = h then none else map[h]?)
    (roomsAfter : ∀ (q : Nat) (r' : Room), heap'[q]? = some r' → ∃ r : Room, heap[q]? = some r ∧
      r'.roomConfig = r.roomConfig ∧
      (∀ h : Nat, r'.playermap[h]? = if c.cidHashVal = h then none else r.playermap[h]?) ∧
      ∀ seat ∈ r'.disconnectedPlayers, seat ∈ r.disconnectedPlayers ∨ seat.hash = c.cidHashVal) :
    Registry hashes (conns.erase ptr) map' heap' counter := by
  have lookup : ∀ {ptr' : Nat} {d : Connection}, (conns.erase ptr)[ptr']? = some d →
      conns[ptr']? = some d ∧ c.cidHashVal ≠ d.cidHashVal := by
    intro ptr' d left
    rw [OrderedMap.lookup_erase] at left
    split at left
    · contradiction
    · rename_i different
      exact ⟨left, fun same => different (registry.unique found left same)⟩
  have remains : ∀ {ptr' : Nat} {d : Connection}, conns[ptr']? = some d →
    c.cidHashVal ≠ d.cidHashVal →
      (conns.erase ptr)[ptr']? = some d := by
    intro ptr' d live different
    have elsewhere : ptr ≠ ptr' := by
      rintro rfl
      cases Option.some.inj (found.symm.trans live)
      exact different rfl
    rw [OrderedMap.lookup_erase_ne _ elsewhere, live]
  have entry_before : ∀ {h q : Nat}, map'[h]? = some q → map[h]? = some q ∧ c.cidHashVal ≠ h := by
    intro h q entry
    rw [entries] at entry
    split at entry
    · contradiction
    · rename_i different
      exact ⟨entry, different⟩
  constructor
  case used => exact fun left => registry.used (lookup left).1
  case unique => exact fun left₁ left₂ same =>
    registry.unique (lookup left₁).1 (lookup left₂).1 same
  case unmatched =>
    intro ptr' d left waiting
    obtain ⟨live, different⟩ := lookup left
    rw [entries, if_neg different]
    exact registry.unmatched live waiting
  case seated =>
    intro q h r' player live seat
    obtain ⟨r, before, _, players, _⟩ := roomsAfter q r' live
    rw [players] at seat
    split at seat
    · contradiction
    · rename_i different
      obtain ⟨⟨d, owner, same⟩, entry⟩ := registry.seated before seat
      exact ⟨⟨d, remains owner (same.symm ▸ different), same⟩, by rw [entries, if_neg different, entry]⟩
  case mapped =>
    intro h q entry
    obtain ⟨before, different⟩ := entry_before entry
    obtain ⟨ptr', d, live, same⟩ := registry.mapped before
    exact ⟨ptr', d, remains live (same.symm ▸ different), same⟩
  case bounded => exact fun entry => registry.bounded (entry_before entry).1
  case entered =>
    intro h q r' entry live
    obtain ⟨entryBefore, different⟩ := entry_before entry
    obtain ⟨r, before, config, players, _⟩ := roomsAfter q r' live
    rw [config, OrderedMap.mem_iff_lookup, players, if_neg different, ← OrderedMap.mem_iff_lookup]
    exact registry.entered entryBefore before
  case kept =>
    intro q r' seat live member
    obtain ⟨r, before, _, _, seats⟩ := roomsAfter q r' live
    rcases seats seat member with old | new
    · obtain ⟨known, past⟩ := registry.kept before old
      exact ⟨known, fun left => past (lookup left).1⟩
    · rw [new]
      exact ⟨registry.used found, fun left same => (lookup left).2 same.symm⟩

/-- A room is deleted, and the entries of its players and of its kept seats. -/
theorem Registry.sweep (registry : Registry hashes conns map heap counter)
    (live : heap[p]? = some r) (entries : ∀ h : Nat, map'[h]? =
      if h ∈ r.playermap.keys ++ r.disconnectedPlayers.map (·.hash) then none else map[h]?)
    (roomsAfter : ∀ q : Nat, heap'[q]? = if p = q then none else heap[q]?) :
    Registry hashes conns map' heap' counter := by
  have entry_before : ∀ {h q : Nat}, map'[h]? = some q → map[h]? = some q := by
    intro h q entry
    rw [entries] at entry
    split at entry
    · contradiction
    · exact entry
  have room_before : ∀ {q : Nat} {r₁ : Room}, heap'[q]? = some r₁ → p ≠ q ∧ heap[q]? = some r₁ := by
    intro q r₁ still
    rw [roomsAfter] at still
    split at still
    · contradiction
    · rename_i different
      exact ⟨different, still⟩
  constructor
  case used => exact registry.used
  case unique => exact registry.unique
  case unmatched =>
    intro ptr' d found waiting
    rw [entries]
    split
    · rfl
    · exact registry.unmatched found waiting
  case seated =>
    intro q h r₁ player still seat
    obtain ⟨different, before⟩ := room_before still
    obtain ⟨⟨d, owner, same⟩, entry⟩ := registry.seated before seat
    refine ⟨⟨d, owner, same⟩, ?_⟩
    have untouched : h ∉ r.playermap.keys ++ r.disconnectedPlayers.map (·.hash) := by
      intro member
      rcases List.mem_append.mp member with isPlayer | kept
      · obtain ⟨player', seat'⟩ := OrderedMap.mem_iff_lookup.mp (TreeMap.mem_keys.mp isPlayer)
        have entry' := (registry.seated live seat').2
        exact different (Option.some.inj (entry'.symm.trans entry))
      · obtain ⟨keptSeat, listed, sameHash⟩ := List.mem_map.mp kept
        exact (registry.kept live listed).2 owner (same.trans sameHash.symm)
    rw [entries, if_neg untouched, entry]
  case mapped => exact fun entry => registry.mapped (entry_before entry)
  case bounded => exact fun entry => registry.bounded (entry_before entry)
  case entered => exact fun entry still =>
    registry.entered (entry_before entry) (room_before still).2
  case kept => exact fun still member => registry.kept (room_before still).2 member

end
end Gearsdk.Roomserver
