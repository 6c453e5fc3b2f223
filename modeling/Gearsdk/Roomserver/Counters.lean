import Gearsdk.Room.Countdown
import Gearsdk.Roomserver.FirstRoom

/-! The room counters in Redis. The waiting rooms of a signature are counted
under one key and the started ones under another. Outside the time between the
expiry of a key and the delivery of its notification, the counters are right as
long as nothing in that time creates or sweeps a waiting room of that signature. -/
namespace Gearsdk.Roomserver
open Std Transition

variable {site : Site} {s t : Roomserver} {p : Nat} {r r' : Room} {key : Qstring}

/-! ### Keys -/

theorem wroomKey_head (site : Site) (r : Room) : (wroomKey site r).head? = some 119 := by
  have start : Qstring.literal "wroom:" = [119, 114, 111, 111, 109, 58] := by decide
  simp only [wroomKey, Room.getRoomSignature]
  rw [start]
  rfl

theorem roomKey_head (site : Site) (r : Room) : (roomKey site r).head? = some 114 := by
  have start : Qstring.literal "room:" = [114, 111, 111, 109, 58] := by decide
  simp only [roomKey, Room.getRoomSignature]
  rw [start]
  rfl

theorem wroomKey_ne_roomKey (site : Site) (r r' : Room) : wroomKey site r ≠ roomKey site r' := by
  intro same
  have heads := (wroomKey_head site r).symm.trans (same ▸ roomKey_head site r')
  exact absurd heads (by decide)

/-- A signature depends on the configuration only. -/
theorem wroomKey_config (site : Site) (same : r'.roomConfig = r.roomConfig) :
    wroomKey site r' = wroomKey site r := by
  simp only [wroomKey, Room.getRoomSignature]
  rw [same]

theorem roomKey_config (site : Site) (same : r'.roomConfig = r.roomConfig) :
    roomKey site r' = roomKey site r := by
  simp only [roomKey, Room.getRoomSignature]
  rw [same]

/-! ### Rooms of a signature -/

/-- How many of the listed rooms have this key. -/
def keyCount (heap : TreeMap Nat Room) (keyOf : Room → Qstring) (key : Qstring)
    (listed : List Nat) : Nat :=
  listed.countP fun p => (heap[p]?).any fun r => keyOf r = key

section
variable {heap : TreeMap Nat Room} {keyOf : Room → Qstring} {listed : List Nat}

theorem keyCount_zero (other : ∀ r, keyOf r ≠ key) : keyCount heap keyOf key listed = 0 := by
  rw [keyCount, List.countP_eq_zero]
  intro p member
  cases heap[p]? <;> simp [other]

/-- A room that keeps its configuration keeps its place in the count. -/
theorem keyCount_same (live : heap[p]? = some r) (same : keyOf r' = keyOf r) :
    keyCount (heap.insert p r') keyOf key listed = keyCount heap keyOf key listed := by
  apply List.countP_congr
  intro q member
  rw [OrderedMap.lookup_insert]
  split
  · rename_i here
    rw [← here, live]
    simp [same]
  · rfl

theorem keyCount_elsewhere (absent : p ∉ listed) (heap' : TreeMap Nat Room)
    (others : ∀ q : Nat, p ≠ q → heap'[q]? = heap[q]?) :
    keyCount heap' keyOf key listed = keyCount heap keyOf key listed := by
  apply List.countP_congr
  intro q member
  rw [others q fun same => absent (same ▸ member)]

theorem keyCount_append (live : heap[p]? = some r) :
    keyCount heap keyOf key (listed ++ [p]) = keyCount heap keyOf key listed + if keyOf r =
      key then 1 else 0 := by
  simp [keyCount, List.countP_append, List.countP_singleton, live]

theorem keyCount_filter (once : listed.Nodup) (member : p ∈ listed) (live : heap[p]? = some r) :
    keyCount heap keyOf key listed =
      keyCount heap keyOf key (listed.filter (· ≠ p)) + if keyOf r = key then 1 else 0 := by
  have split : listed.Perm (p :: listed.filter (· ≠ p)) := by
    have erased := List.perm_cons_erase member
    have same : listed.erase p = listed.filter (· ≠ p) := by
      rw [once.erase_eq_filter]
      exact List.filter_congr fun q _ => by by_cases here : q = p <;> simp [here]
    rwa [same] at erased
  simp only [keyCount]
  rw [split.countP_eq, List.countP_cons, live]
  simp

end

/-! ### The tally -/

/-- The counters are right for every key whose expiry is not in flight; a key in
flight is absent. Only keys of waiting rooms have a lifetime. -/
structure Tally (site : Site) (redis : Redis) (heap : TreeMap Nat Room)
    (waiting started : List Nat) : Prop where
  once : redis.published.Nodup
  absent : ∀ key ∈ redis.published, redis.store key = none
  inFlight : ∀ key ∈ redis.published, ∃ r, key = wroomKey site r
  lifetimes : ∀ key, redis.canExpire key = true → ∃ r, key = wroomKey site r
  counts : ∀ key ∉ redis.published, redis.value key =
    keyCount heap (wroomKey site) key waiting + keyCount heap (roomKey site) key started

abbrev Tallied (site : Site) (s : Roomserver) : Prop :=
  Tally site s.hiredis s.roomHeap s.waitingRooms s.rooms

section
variable {redis : Redis} {heap : TreeMap Nat Room} {waiting started : List Nat}

theorem Tally.not_roomKey (tally : Tally site redis heap waiting started) (r : Room) :
    roomKey site r ∉ redis.published := by
  intro member
  obtain ⟨r', same⟩ := tally.inFlight _ member
  exact wroomKey_ne_roomKey site r' r same.symm

/-- A room changes and keeps its configuration and its list. -/
theorem Tally.same (tally : Tally site redis heap waiting started) (live : heap[p]? = some r)
    (config : r'.roomConfig = r.roomConfig) :
    Tally site redis (heap.insert p r') waiting started := by
  refine ⟨tally.once, tally.absent, tally.inFlight, tally.lifetimes, fun key quiet => ?_⟩
  rw [keyCount_same live (wroomKey_config site config),
    keyCount_same live (roomKey_config site config)]
  exact tally.counts key quiet

/-- A waiting room is created while its key is not in flight. -/
theorem Tally.create (tally : Tally site redis heap waiting started)
    (unlisted : p ∉ waiting ∧ p ∉ started) (quiet : wroomKey site r ∉ redis.published) :
    Tally site (((redis.incrBy (wroomKey site r) 1).1).expireKey (wroomKey site r) oneMinute)
      (heap.insert p r) (waiting ++ [p]) started := by
  have others : ∀ q : Nat, p ≠ q → (heap.insert p r)[q]? = heap[q]? :=
    fun q different => OrderedMap.lookup_insert_ne _ _ different
  constructor
  case once => simpa using tally.once
  case absent =>
    intro key member
    have inFlight : key ∈ redis.published := by simpa using member
    have different : key ≠ wroomKey site r := fun same => quiet (same ▸ inFlight)
    rw [Redis.store_expireKey_ne _ different, Redis.store_incrBy_ne _ different]
    exact tally.absent key inFlight
  case inFlight =>
    intro key member
    exact tally.inFlight key (by simpa using member)
  case lifetimes =>
    intro key expirable
    rcases Redis.canExpire_of_expireKey expirable with same | before
    · exact ⟨r, same⟩
    · rw [Redis.canExpire_incrBy] at before
      exact tally.lifetimes key before
  case counts =>
    intro key calm
    have counts := tally.counts key (by simpa using calm)
    have fresh : (heap.insert p r)[p]? = some r := by rw [OrderedMap.lookup_insert, if_pos rfl]
    rw [keyCount_append fresh, keyCount_elsewhere unlisted.1 _ others,
      keyCount_elsewhere unlisted.2 _ others, Redis.value_expireKey, Redis.value_incrBy]
    by_cases same : key = wroomKey site r
    · rw [if_pos same, if_pos same.symm, ← same]
      omega
    · rw [if_neg same, if_neg (Ne.symm same)]
      omega

/-- A waiting room starts. If it is the first room, no other has started before. -/
theorem Tally.start (tally : Tally site redis heap waiting started) (live : heap[p]? = some r)
    (config : r'.roomConfig = r.roomConfig) (once : waiting.Nodup) (waits : p ∈ waiting)
    (unstarted : p ∉ started) (first : r'.roomId = 0 → started = []) :
    Tally site (startCounters site redis r') (heap.insert p r') (waiting.filter (· ≠ p))
      (started ++ [p]) := by
  have apart := wroomKey_ne_roomKey site
  have others : ∀ q : Nat, p ≠ q → (heap.insert p r')[q]? = heap[q]? :=
    fun q different => OrderedMap.lookup_insert_ne _ _ different
  simp only [startCounters]
  constructor
  case once => simpa using tally.once
  case absent =>
    intro key member
    have inFlight : key ∈ redis.published := by simpa using member
    have notStarted : key ≠ roomKey site r' := fun same => tally.not_roomKey r' (same ▸ inFlight)
    rw [store_countStarted_ne _ _ _ _ notStarted]
    by_cases same : key = wroomKey site r'
    · rw [same]
      exact store_countWaitingDown_absent _ _ (tally.absent _ (same ▸ inFlight))
    · rw [store_countWaitingDown_ne _ _ _ same]
      exact tally.absent key inFlight
  case inFlight =>
    intro key member
    exact tally.inFlight key (by simpa using member)
  case lifetimes =>
    intro key expirable
    rcases canExpire_of_countWaitingDown _ _ _ (canExpire_of_countStarted _ _ _ _ expirable) with
      same | before
    · exact ⟨r', same⟩
    · exact tally.lifetimes key before
  case counts =>
    intro key calm
    have counts := tally.counts key (by simpa using calm)
    have fresh : (heap.insert p r')[p]? = some r' := by rw [OrderedMap.lookup_insert, if_pos rfl]
    rw [keyCount_append fresh, keyCount_elsewhere unstarted _ others,
      keyCount_same live (wroomKey_config site config)]
    rw [keyCount_filter once waits live, ← wroomKey_config site config] at counts
    rw [value_countStarted, value_countWaitingDown, value_countWaitingDown,
      if_neg (apart r' r').symm]
    by_cases starts : key = roomKey site r'
    · subst starts
      rw [keyCount_zero fun r₁ => apart r₁ r'] at counts ⊢
      rw [if_neg (apart r' r')] at counts
      rw [if_pos rfl, if_pos rfl]
      split
      · rename_i zero
        rw [first zero]
        rfl
      · push_cast
        omega
    · rw [if_neg starts, if_neg (Ne.symm starts)]
      by_cases waited : key = wroomKey site r'
      · subst waited
        rw [keyCount_zero fun r₁ => (apart r' r₁).symm] at counts ⊢
        rw [if_pos rfl] at counts ⊢
        push_cast at counts
        omega
      · rw [if_neg (Ne.symm waited)] at counts
        rw [if_neg waited]
        exact counts

/-- The destructor of a room takes one from the counter of its list. A waiting
room is deleted while its key is not in flight. -/
theorem Tally.delete (tally : Tally site redis heap waiting started) (live : heap[p]? = some r)
    (once : waiting.Nodup ∧ started.Nodup) (waits : p ∈ waiting ↔ r.state = .roomWaiting)
    (runs : p ∈ started ↔ r.state ≠ .roomWaiting)
    (quiet : r.state = .roomWaiting → wroomKey site r ∉ redis.published) :
    Tally site (redis.decrBy (r.getRoomSignature
        (if r.state = .roomWaiting then "wroom:" else "room:") site.hostId site.portId) 1).1
      (heap.erase p) (waiting.filter (· ≠ p)) (started.filter (· ≠ p)) := by
  have apart := wroomKey_ne_roomKey site
  have others : ∀ q : Nat, p ≠ q → (heap.erase p)[q]? = heap[q]? :=
    fun q different => OrderedMap.lookup_erase_ne _ different
  have gone : ∀ {listed : List Nat}, p ∉ listed.filter (· ≠ p) := by simp
  generalize named : r.getRoomSignature (if r.state = .roomWaiting then "wroom:" else "room:")
    site.hostId site.portId = own
  have calm : own ∉ redis.published := by
    rw [← named]
    split
    · rename_i waiting
      exact quiet waiting
    · exact tally.not_roomKey r
  simp only [Redis.decrBy]
  constructor
  case once => exact tally.once
  case absent =>
    intro key member
    have different : key ≠ own := fun same => calm (same ▸ member)
    rw [Redis.store_incrBy_ne _ different]
    exact tally.absent key member
  case inFlight => exact tally.inFlight
  case lifetimes =>
    intro key expirable
    rw [Redis.canExpire_incrBy] at expirable
    exact tally.lifetimes key expirable
  case counts =>
    intro key quietKey
    have counts := tally.counts key quietKey
    rw [keyCount_elsewhere gone _ others, keyCount_elsewhere gone _ others, Redis.value_incrBy]
    by_cases state : r.state = .roomWaiting
    · rw [if_pos state] at named
      change wroomKey site r = own at named
      rw [keyCount_filter once.1 (waits.mpr state) live, named] at counts
      rw [filter_absent fun member => runs.mp member state]
      by_cases same : key = own
      · subst same
        rw [if_pos rfl] at counts ⊢
        push_cast at counts
        omega
      · rw [if_neg (Ne.symm same)] at counts
        rw [if_neg same]
        exact counts
    · rw [if_neg state] at named
      change roomKey site r = own at named
      rw [keyCount_filter once.2 (runs.mpr state) live, named] at counts
      rw [filter_absent fun member => state (waits.mp member)]
      by_cases same : key = own
      · subst same
        rw [if_pos rfl] at counts ⊢
        push_cast at counts
        omega
      · rw [if_neg (Ne.symm same)] at counts
        rw [if_neg same]
        exact counts

/-- A key expires; it had a lifetime, so it was not in flight already. -/
theorem Tally.expire (tally : Tally site redis heap waiting started)
    (expirable : redis.canExpire key = true) :
    Tally site (redis.expire key) heap waiting started := by
  have fresh : key ∉ redis.published := by
    intro member
    rw [Redis.canExpire, tally.absent key member] at expirable
    cases expirable
  have store : ∀ other, (redis.expire key).store other = if other = key then none
    else redis.store other :=
    fun _ => rfl
  constructor
  case once =>
    refine List.nodup_append.mpr ⟨tally.once, by simp, fun other member last single same => ?_⟩
    rw [List.mem_singleton.mp single] at same
    exact fresh (same ▸ member)
  case absent =>
    intro other member
    rw [store]
    split
    · rfl
    · rename_i different
      rcases List.mem_append.mp member with before | now
      · exact tally.absent other before
      · exact absurd (List.mem_singleton.mp now) different
  case inFlight =>
    intro other member
    rcases List.mem_append.mp member with before | now
    · exact tally.inFlight other before
    · rw [List.mem_singleton.mp now]
      exact tally.lifetimes key expirable
  case lifetimes =>
    intro other still
    have before : redis.canExpire other = true := Redis.canExpire_of_put none rfl still
    exact tally.lifetimes other before
  case counts =>
    intro other calm
    have different : other ≠ key :=
      fun same => calm (List.mem_append_right _ (List.mem_singleton.mpr same))
    rw [Redis.value_expire, if_neg different]
    exact tally.counts other fun member => calm (List.mem_append_left _ member)

/-- The notification of an expired key arrives; the counter is written anew if
there is something to count. -/
theorem Tally.deliver (tally : Tally site redis heap waiting started)
    (inFlight : key ∈ redis.published) (n : Nat)
    (counted : n = keyCount heap (wroomKey site) key waiting) :
    Tally site (if n > 0 then (((redis.takeNotification key).incrBy key n).1).expireKey key oneMinute
      else redis.takeNotification key) heap waiting started := by
  obtain ⟨r, named⟩ := tally.inFlight key inFlight
  have unstarted : keyCount heap (roomKey site) key started = 0 :=
    keyCount_zero fun r' => named ▸ (wroomKey_ne_roomKey site r r').symm
  have zero : redis.value key = 0 := by
    rw [Redis.value, tally.absent key inFlight]
    rfl
  have remaining : ∀ other ∈ redis.published.erase key, other ∈ redis.published ∧ other ≠ key := by
    intro other member
    have kept := (List.Nodup.mem_erase_iff tally.once).mp member
    exact ⟨kept.2, kept.1⟩
  have notified : ∀ other ∉ redis.published.erase key, other ≠ key → other ∉ redis.published :=
    fun other calm different member =>
      calm ((List.Nodup.mem_erase_iff tally.once).mpr ⟨different, member⟩)
  split
  · rename_i positive
    have published : ((((redis.takeNotification key).incrBy key n).1).expireKey key oneMinute).published =
        redis.published.erase key := by
      rw [Redis.published_expireKey, Redis.published_incrBy]
      rfl
    constructor
    case once =>
      rw [published]
      exact tally.once.erase key
    case absent =>
      intro other member
      obtain ⟨before, different⟩ := remaining other (published ▸ member)
      rw [Redis.store_expireKey_ne _ different, Redis.store_incrBy_ne _ different]
      exact tally.absent other before
    case inFlight =>
      intro other member
      exact tally.inFlight other (remaining other (published ▸ member)).1
    case lifetimes =>
      intro other expirable
      rcases Redis.canExpire_of_expireKey expirable with same | before
      · exact ⟨r, same.trans named⟩
      · rw [Redis.canExpire_incrBy] at before
        exact tally.lifetimes other before
    case counts =>
      intro other calm
      rw [Redis.value_expireKey, Redis.value_incrBy, Redis.value_takeNotification,
        Redis.value_takeNotification]
      split
      · rename_i same
        rw [same, zero, unstarted, ← counted]
        omega
      · rename_i different
        exact tally.counts other (notified other (published ▸ calm) different)
  · rename_i none_left
    refine ⟨tally.once.erase key, fun other member => tally.absent other (remaining other member).1,
      fun other member => tally.inFlight other (remaining other member).1, tally.lifetimes,
        fun other calm => ?_⟩
    rw [Redis.value_takeNotification]
    by_cases same : other = key
    · rw [same, zero, unstarted, ← counted]
      omega
    · exact tally.counts other (notified other calm same)

end

theorem countSignature_counts (s : Roomserver) (key : Qstring) (listed : List Nat) (n : Nat)
    (counted : s.countSignature site key listed = .ok n) :
    n = keyCount s.roomHeap (wroomKey site) key listed := by
  induction listed generalizing n with
  | nil =>
    cases counted
    rfl
  | cons p rest ih =>
    simp only [countSignature] at counted
    split at counted
    · rename_i r others live searched
      cases counted
      rw [keyCount, List.countP_cons, deref_ok.mp live, ih others searched]
      simp only [Option.any_some, decide_eq_true_eq, keyCount]
      split <;> rfl
    · cases counted
    · cases counted

/-! ### Events -/

/-- Starting a room of known bounds means that it was startable. -/
theorem startable_of_starts (inv : r.Inv) (change : Room.Change r op r' calls)
    (waited : r.state = .roomWaiting) (started : r'.state = .roomStart) : Startable r := by
  have unstarted : r.state ≠ .roomStart := by simp [waited]
  obtain ⟨_, enough, fits⟩ := change.bounds inv unstarted started
  refine ⟨waited, Int.le_trans enough fits, ?_⟩
  cases change with
  | fills accepted =>
    have room := Room.room_of_accepts accepted
    have seats : 0 ≤ r.getPlaymapCount := Int.natCast_nonneg _
    omega
  | lastTick listed => exact inv.positive (by simp [listed])
  | @seated q pid prev =>
    exact absurd ((Room.occupied_state r q pid prev).symm.trans started) unstarted
  | @countsDown q pid prev =>
    exact absurd ((Room.occupied_state r q pid prev).symm.trans started) unstarted
  | ends => cases started
  | _ => exact absurd started unstarted

theorem Tallied.conns (tallied : Tallied site s) (conns : TreeMap Nat Connection) :
    Tallied site { s with conns := conns } :=
  tallied

theorem Tallied.operate {op : Room.Op} (tallied : Tallied site s) (sound : Sound site s)
    (alone : ∀ r : Room, s.roomHeap[0]? = some r → Startable r → s.roomIdCounter = 1)
    (live : s.roomHeap[p]? = some r) (allowed : r.allows op = true) :
    Tallied site (s.updateRoom site p (r.apply op).1 (r.apply op).2) := by
  have inv := sound.inv live
  have change := Room.change_of_inv inv allowed
  by_cases starts : r.state = .roomWaiting ∧ (r.apply op).1.state = .roomStart
  · have waits := sound.waiting_iff.mpr ⟨r, live, starts.1⟩
    have unstarted := sound.not_both waits
    rw [updateRoom_starts change starts.1 starts.2 waits unstarted]
    refine tallied.start live change.sameConfig sound.waitingNodup waits unstarted fun zero => ?_
    have named : (p : Int) = 0 :=
      (sound.lives live).roomId.symm.trans (change.sameRoomId.symm.trans zero)
    obtain rfl : p = 0 := by omega
    have single := alone r live (startable_of_starts inv change starts.1 starts.2)
    refine List.eq_nil_iff_forall_not_mem.mpr fun q member => ?_
    obtain ⟨r₁, other, _⟩ := sound.rooms_iff.mp member
    have born := sound.born other
    obtain rfl : q = 0 := by omega
    exact unstarted member
  · rw [updateRoom_stays change starts]
    exact tallied.same live change.sameConfig

theorem Tallied.joinNewRoom (sound : Sound site s) (tallied : Tallied site s) (q : QconnIo)
    (msg : MsgRoomMatchRequest) (alone : ∀ r : Room, s.roomHeap[0]? = some r → ¬ Startable r)
    (quiet : wroomKey site (newborn site s q msg) ∉ s.hiredis.published) :
    Tallied site (s.joinNewRoom site q msg) := by
  have unlisted : s.roomIdCounter ∉ s.waitingRooms ∧ s.roomIdCounter ∉ s.rooms := by
    rw [sound.waiting_iff, sound.rooms_iff, (sound.unborn (Nat.le_refl s.roomIdCounter)).1]
    simp
  have created : Tallied site (s.createWaitingRoom site msg.roomConfig).1 := by
    have config : (newborn site s q msg).roomConfig =
        (Room.create site.roomClass s.roomIdCounter s.evNow (.ofMsg msg.roomConfig)).1.roomConfig := by
      rw [newborn_roomConfig, Room.create_eq]
    rw [wroomKey_config site config] at quiet
    rw [createWaitingRoom_eq]
    dsimp only [Tallied]
    exact tallied.create unlisted quiet
  have live : (s.createWaitingRoom site msg.roomConfig).1.roomHeap[s.roomIdCounter]? =
      some (Room.create site.roomClass s.roomIdCounter s.evNow (.ofMsg msg.roomConfig)).1 := by
    rw [createWaitingRoom_eq, OrderedMap.lookup_insert, if_pos rfl]
  have first : ∀ r : Room, (s.createWaitingRoom site msg.roomConfig).1.roomHeap[0]? = some r →
    Startable r →
      (s.createWaitingRoom site msg.roomConfig).1.roomIdCounter = 1 := by
    intro r zero startable
    rw [createWaitingRoom_eq] at zero ⊢
    change (s.roomHeap.insert s.roomIdCounter _)[0]? = some r at zero
    rw [OrderedMap.lookup_insert] at zero
    split at zero
    · rename_i here
      exact congrArg (· + 1) here
    · exact absurd startable (alone r zero)
  have joined := created.operate (sound.create msg.roomConfig) first live
    (rfl : Room.allows _ (.tryAdd q msg.pid 0) = true)
  rw [joinNewRoom_eq]
  exact joined

theorem Tallied.delete (sound : Sound site s) (tallied : Tallied site s)
    (live : s.roomHeap[p]? = some r)
    (quiet : r.state = .roomWaiting → wroomKey site r ∉ s.hiredis.published) :
    Tallied site (({ s with
      waitingRooms := s.waitingRooms.filter (· ≠ p)
      rooms := s.rooms.filter (· ≠ p) } : Roomserver).deleteRoom site p r) := by
  have ready := (sound.inv live).initialised
  have runs : p ∈ s.rooms ↔ r.state ≠ .roomWaiting := by
    rw [sound.rooms_live live]
    cases state : r.state <;> simp_all [States.rank]
  rw [deleteRoom_eq]
  exact Tally.delete tallied live ⟨sound.waitingNodup,
    sound.roomsNodup⟩ (sound.waiting_live live) runs quiet

theorem Tallied.sweeps (sound : Sound site s) (tallied : Tallied site s)
    (sweeps : Sweeps site s zombies t)
    (quiet : ∀ p ∈ zombies, ∀ r : Room, s.roomHeap[p]? = some r → r.state = .roomWaiting →
      wroomKey site r ∉ s.hiredis.published) : Tallied site t := by
  induction sweeps with
  | done => exact tallied
  | @next s t room zombie zombies live rest ih =>
    have framed : Sound site (s.forgotten zombie) := sound.frame rfl rfl rfl rfl rfl
    have swept_eq : s.swept site room zombie = ({ s.forgotten zombie with
        waitingRooms := s.waitingRooms.filter (· ≠ room)
        rooms := s.rooms.filter (· ≠ room) } : Roomserver).deleteRoom site room zombie := by
      simp only [swept]
      rw [swept_rooms sound]
    have talliedForgotten : Tallied site (s.forgotten zombie) := tallied
    have first := Tallied.delete framed talliedForgotten live
      (quiet room (List.mem_cons_self ..) zombie live)
    have soundSwept := framed.delete live
    have published : (s.swept site room zombie).hiredis.published = s.hiredis.published := by
      rw [swept_eq, deleteRoom_eq]
      rfl
    rw [swept_eq] at ih published
    refine ih soundSwept first fun p member r still waiting => ?_
    rw [published]
    rw [deleteRoom_eq, OrderedMap.lookup_erase] at still
    split at still
    · cases still
    · exact quiet p (List.mem_cons_of_mem _ member) r still waiting

theorem Tallied.joined {q : QconnIo} {msg : MsgRoomMatchRequest} (tallied : Tallied site s)
    (sound : Sound site s) (first : s.FirstRoom) (joined : Joined site s q msg t)
    (quiet : s.joinOutcome q msg = .ok .creates →
    wroomKey site (newborn site s q msg) ∉ s.hiredis.published) :
    Tallied site t := by
  cases joined with
  | alreadySeated => exact tallied
  | @joins room prev r base outcome found accepted same =>
    have operated :=
      tallied.operate sound first.alone found (rfl : r.allows (.tryAdd q msg.pid prev) = true)
    exact operated
  | @creates base outcome same =>
    have framed : Sound site { s with connectionMap := base } := sound.frame rfl rfl rfl rfl rfl
    have talliedBase : Tallied site { s with connectionMap := base } := tallied
    exact Tallied.joinNewRoom framed talliedBase q msg
      (fun r live startable => first.not_creates sound live startable q msg outcome) (quiet outcome)

theorem Tallied.vacates (tallied : Tallied site s) (sound : Sound site s) (first : s.FirstRoom)
    (live : s.roomHeap[p]? = some r) (q : QconnIo) : Tallied site (s.vacates site q p r) := by
  have framed : Sound site { s with connectionMap := s.connectionMap.erase q.cidHashVal } :=
    sound.frame rfl rfl rfl rfl rfl
  have talliedErased : Tallied site { s with
    connectionMap := s.connectionMap.erase q.cidHashVal } := tallied
  exact talliedErased.operate framed first.alone live (rfl : r.allows (.remove q) = true)

/-- While the notification of a key is in flight, the event neither creates a
room of that signature nor sweeps a waiting one. -/
structure Undisturbed (site : Site) (s : Roomserver) (e : Event) : Prop where
  creates : ∀ ptr buf doc connection rq, e = .message ptr buf doc →
    Requests s ptr doc connection rq →
    s.joinOutcome ⟨ptr, connection.cidHashVal⟩ rq = .ok .creates →
    wroomKey site (newborn site s ⟨ptr, connection.cidHashVal⟩ rq) ∉ s.hiredis.published
  sweeps : ∀ (p : Nat) (r : Room), e = .checkZombieRooms → s.roomHeap[p]? = some r → s.Zombie p →
    r.state = .roomWaiting → wroomKey site r ∉ s.hiredis.published

theorem Effect.tallied (sound : Sound site s) (first : s.FirstRoom) (tallied : Tallied site s)
    (effect : Effect site s e t) (undisturbed : Undisturbed site s e) : Tallied site t := by
  cases effect with
  | connect | connected | hi | ignored | shutdown | unseated | clock => exact tallied
  | @request _ _ _ _ ptr connection requests joined =>
    have soundMatched := sound_matched sound ptr connection
    have firstMatched : (s.matched ptr connection).FirstRoom := ⟨first.entered, first.alone⟩
    have talliedMatched : Tallied site (s.matched ptr connection) := tallied
    refine talliedMatched.joined soundMatched firstMatched joined fun outcome => ?_
    rw [joinOutcome_matched] at outcome
    exact undisturbed.creates ptr _ _ connection _ rfl requests outcome
  | @chat buf _ ptr room connection r found mapped live =>
    exact tallied.operate sound first.alone live
      (rfl : r.allows (.message connection.cidHashVal buf) = true)
  | tick live active => exact tallied.operate sound first.alone live active
  | leaves found mapped live => exact tallied.vacates sound first live _
  | @leavesLast middle ptr room connection r found mapped live ended empty same listed =>
    have soundMiddle : Sound site middle := same ▸ sound.vacates live _
    have talliedMiddle : Tallied site middle := same ▸ tallied.vacates sound first live _
    have after : middle.roomHeap[room]? = some (r.apply (.remove ⟨ptr, connection.cidHashVal⟩)).1 := by
      rw [same, heap_vacates sound live, OrderedMap.lookup_insert, if_pos rfl]
    have deleted := Tallied.delete soundMiddle talliedMiddle after fun waiting => by
      rw [ended] at waiting
      cases waiting
    exact deleted.conns _
  | sweeps sweeps listed =>
    exact Tallied.sweeps sound tallied sweeps fun p member r live waiting =>
      undisturbed.sweeps p r rfl live (listed p member) waiting
  | keyExpires expirable => exact Tally.expire tallied expirable
  | keyExpired published counted =>
    exact Tally.deliver tallied published _ (countSignature_counts s _ _ _ counted)

/-! ### The counters -/

/-- With no notification in flight, both counters of every signature are right. -/
def CountersRight (site : Site) (s : Roomserver) : Prop :=
  s.hiredis.published = [] → ∀ r : Room,
    s.hiredis.value (wroomKey site r) =
      keyCount s.roomHeap (wroomKey site) (wroomKey site r) s.waitingRooms ∧
    s.hiredis.value (roomKey site r) = keyCount s.roomHeap (roomKey site) (roomKey site r) s.rooms

theorem Tallied.right (tallied : Tallied site s) : CountersRight site s := by
  intro quiet r
  have apart := wroomKey_ne_roomKey site
  have waiting := tallied.counts (wroomKey site r) (by simp [quiet])
  have started := tallied.counts (roomKey site r) (by simp [quiet])
  rw [keyCount_zero fun r' => (apart r r').symm] at waiting
  rw [keyCount_zero fun r' => apart r' r] at started
  exact ⟨by simpa using waiting, by simpa using started⟩

theorem tallied_init (site : Site) : Tallied site (machine site).init := by
  constructor
  case once => exact List.nodup_nil
  case absent => simp [machine]
  case inFlight => simp [machine]
  case lifetimes => simp [machine, Redis.canExpire]
  case counts =>
    intro key _
    rfl

/-- In a run that is never disturbed between the expiry of a key and its
notification, the counters are right whenever no notification is in flight. -/
theorem counters_right (undisturbed : (machine site).Meets (Undisturbed site) es) :
    (machine site).Always (CountersRight site) es := by
  have tallied : (machine site).Always (Tallied site) es :=
    Machine.Meets.always (tallied_init site) (fun before tallied step condition =>
      (step_effect step).tallied (sound_of_run before) (firstRoom_of_run before) tallied condition)
      undisturbed
  exact fun fs s inside run => (tallied fs s inside run).right

/-- The key of the waiting rooms of the default configuration. -/
def defaultKey : Qstring := Qstring.literal "wroom:#-2-4-0-8192"

/-- A waiting room is swept, its counter expires at zero, and before the
notification arrives the next room of that signature is created. -/
def disturbance : List Event :=
  arrival 1 11 {} ++ [.clock 20000, .checkZombieRooms, .clock 60000, .keyExpires defaultKey] ++
    arrival 2 22 {} ++
    [.keyExpired defaultKey]

/-- The new room is counted by its creation and again by the notification. -/
theorem room_counted_twice :
    ∃ s r, (machine ⟨.gameRoom, [], []⟩).Run disturbance s ∧ s.hiredis.published = [] ∧
      s.waitingRooms = [1] ∧
      s.roomHeap[1]? = some r ∧ s.hiredis.value (wroomKey ⟨.gameRoom, [], []⟩ r) = 2 ∧
      ¬ CountersRight ⟨.gameRoom, [], []⟩ s := by
  have shown : ((machine ⟨.gameRoom, [], []⟩).exec {} disturbance).map
      (fun s => (s.hiredis.published, s.waitingRooms,
        (s.roomHeap[1]?).map fun r => s.hiredis.value (wroomKey ⟨.gameRoom, [], []⟩ r))) =
      some ([], [1], some 2) := by decide +kernel
  obtain ⟨s, run, same⟩ := Machine.exec_observe shown
  simp only [Prod.mk.injEq] at same
  obtain ⟨quiet, waiting, counted⟩ := same
  obtain ⟨r, live, two⟩ := Option.map_eq_some_iff.mp counted
  refine ⟨s, r, run, quiet, waiting, live, two, fun right => ?_⟩
  have one := (right quiet r).1
  rw [two, waiting] at one
  simp [keyCount, live] at one

/-- A test for undisturbed schedules. -/
def undisturbedTest (s : Roomserver) : Event → Bool
  | .message _ _ _ | .checkZombieRooms => s.hiredis.published.isEmpty
  | _ => true

theorem undisturbed_of_test (passed : undisturbedTest s e = true) : Undisturbed site s e := by
  constructor
  case creates =>
    rintro ptr buf doc connection rq rfl _ _
    have quiet : s.hiredis.published = [] := List.isEmpty_iff.mp passed
    simp [quiet]
  case sweeps =>
    rintro p r rfl _ _ _
    have quiet : s.hiredis.published = [] := List.isEmpty_iff.mp passed
    simp [quiet]

/-- A waiting room whose counter expires and is written anew. -/
def refresh : List Event :=
  arrival 1 11 {} ++ [.clock 60000, .keyExpires defaultKey, .keyExpired defaultKey]

theorem counters_right_refresh :
    ∃ s, (machine ⟨.gameRoom, [], []⟩).Run refresh s ∧ s.hiredis.value defaultKey = 1 ∧
      CountersRight ⟨.gameRoom, [], []⟩ s := by
  have shown : ((machine ⟨.gameRoom, [], []⟩).exec {} refresh).map (fun s => s.hiredis.value defaultKey) =
      some 1 := by decide +kernel
  have passed : (machine ⟨.gameRoom, [], []⟩).checks undisturbedTest {} refresh = true := by
    decide +kernel
  obtain ⟨s, run, same⟩ := Machine.exec_observe shown
  have undisturbed : (machine ⟨.gameRoom, [], []⟩).Meets (Undisturbed ⟨.gameRoom, [], []⟩) refresh :=
    fun fs e t inside path => Machine.meets_of_checks (fun _ _ => undisturbed_of_test) passed inside path
  exact ⟨s, run, same, counters_right undisturbed refresh s (List.prefix_refl _) run⟩

end Gearsdk.Roomserver
