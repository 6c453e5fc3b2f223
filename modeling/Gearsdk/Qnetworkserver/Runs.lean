import Gearsdk.Qnetworkserver.Actions

/-! Whole runs of the server. The calls that reach the room server are always a run
of it, so that what holds of every run of the room server holds of the room server
inside; and the table of connections always lists the connections it knows. -/
namespace Gearsdk.Qnetworkserver
open Std Transition Relation

variable {host : Host} {s t : Qnetworkserver} {e : NetEvent} {ptr p : Nat}

/-- An event ends in a series of actions, or in a fault of the room server. -/
inductive Ends (host : Host) (e : NetEvent) (s : Qnetworkserver) :
    Except Fault Qnetworkserver → Prop where
  | moves {t : Qnetworkserver} (acts : ReflTransGen (Acts host e) s t)
      (consistent : Consistent host t) : Ends host e s (.ok t)
  | faults (fault : Gearsdk.Fault) : Ends host e s (.error (.room fault))

theorem Ends.stays (consistent : Consistent host s) : Ends host e s (.ok s) :=
  .moves .refl consistent

theorem Ends.acts (consistent : Consistent host s) (acts : Acts host e s t) :
    Ends host e s (.ok t) :=
  .moves (.single acts) (acts.consistent consistent)

theorem Ends.after (first : ReflTransGen (Acts host e) s t) (ends : Ends host e t result) :
    Ends host e s result := by
  cases ends with
  | moves acts consistent => exact .moves (first.trans acts) consistent
  | faults fault => exact .faults fault

theorem Ends.of_ok (ends : Ends host e s (.ok t)) :
    ReflTransGen (Acts host e) s t ∧ Consistent host t := by
  cases ends with
  | moves acts consistent => exact ⟨acts, consistent⟩

theorem Ends.deliver (inner : Event) (consistent : Consistent host s)
    (possible : s.room.enabled inner = true) (other : passes inner = true)
    (timed : ∀ now, inner = .clock now → e = .clock now) :
    Ends host e s (s.deliver host inner) := by
  cases called : s.deliver host inner with
  | ok t => exact .acts consistent (.calls possible other timed called)
  | error fault =>
    rw [Qnetworkserver.deliver] at called
    split at called
    · cases called
      exact .faults _
    · cases called

/-! ### Datagrams -/

theorem isEstablished_deliver {inner : Event} (consistent : Consistent host s)
    (possible : s.room.enabled inner = true) (kept : Roomserver.ofNetwork inner = false)
    (called : s.deliver host inner = .ok t) (p : Nat) :
    t.isEstablished p = s.isEstablished p := by
  obtain ⟨step, -⟩ := deliver_step possible called
  rw [Bool.eq_iff_iff, isEstablished_iff, isEstablished_iff,
    Roomserver.profile_kept consistent.run step kept]

theorem Ends.readStreams (consistent : Consistent host s) (established : s.isEstablished ptr = true)
    (inside : ptr ∈ s.conns) (reads : List Qstring) :
    Ends host e s (readStreams host ptr s reads) := by
  induction reads generalizing s with
  | nil => exact .stays consistent
  | cons buf rest ih =>
    rw [Qnetworkserver.readStreams]
    split
    · have acts : Acts host e s (s.heard ptr) := .hears inside
      have still : (s.heard ptr).isEstablished ptr = true := by
        rw [isEstablished, (heard_frame s ptr).2.1]
        exact established
      exact (ih (acts.consistent consistent) still ((mem_heard s ptr).mpr inside)).after (.single acts)
    · have possible : s.room.enabled (.message ptr buf (host.parse buf)) = true := established
      have ends : Ends host e s (s.deliver host (.message ptr buf (host.parse buf))) :=
        .deliver _ consistent possible rfl (by simp)
      cases called : s.deliver host (.message ptr buf (host.parse buf)) with
      | error fault =>
        rw [called] at ends
        cases ends with
        | faults fault => exact .faults fault
      | ok t =>
        rw [called] at ends
        obtain ⟨acts, consistent'⟩ := ends.of_ok
        have still : t.isEstablished ptr = true := by
          rw [isEstablished_deliver consistent possible rfl called]
          exact established
        have there : ptr ∈ t.conns := by
          rw [(deliver_step possible called).2]
          exact inside
        exact (ih consistent' still there).after acts

theorem Ends.receive (consistent : Consistent host s) (inside : ptr ∈ s.conns)
    (datagram : Datagram) :
    Ends host e s (s.receive host ptr datagram) := by
  simp only [Qnetworkserver.receive]
  split
  · cases established : s.isEstablished ptr with
    | true =>
      rw [if_pos rfl]
      exact .readStreams consistent established inside datagram.reads
    | false =>
      rw [if_neg Bool.false_ne_true]
      obtain ⟨connection, found⟩ := OrderedMap.mem_iff_lookup.mp (consistent.mem_room.mpr inside)
      have possible : s.room.enabled (.connected ptr) = true := by
        simpa [isEstablished, found, Roomserver.enabled] using established
      have ends : Ends host e s (s.deliver host (.connected ptr)) :=
        .deliver _ consistent possible rfl (by simp)
      cases called : s.deliver host (.connected ptr) with
      | error fault =>
        rw [called] at ends
        cases ends with
        | faults fault => exact .faults fault
      | ok t =>
        rw [called] at ends
        obtain ⟨acts, consistent'⟩ := ends.of_ok
        obtain ⟨step, same⟩ := deliver_step possible called
        have now : t.isEstablished ptr = true := by
          rw [isEstablished_iff, Roomserver.profile_connected step, if_pos rfl, Roomserver.profile,
            found]
          exact ⟨_, rfl⟩
        have there : ptr ∈ t.conns := by
          rw [same]
          exact inside
        exact (Ends.readStreams consistent' now there datagram.reads).after acts
  · exact .stays consistent

/-- The token arrays are large enough for every address and every id. -/
theorem mintToken_fits (header : Header) (datagram : Datagram) :
    ∃ token tokenLen, mintToken header.connId datagram.peerAddr (List.replicate maxTokenLen 0) =
      some (token, tokenLen) ∧
      token.take tokenLen = Qstring.literal "quiche" ++ datagram.peerAddr ++ header.connId := by
  have short : header.connId.length ≤ AddressToken.quicheMaxConnIdLen :=
    (List.length_take_le _ _).trans header.dcidLen_le
  have text : (Qstring.literal "quiche").length = 6 := by decide +kernel
  have fits : (Qstring.literal "quiche").length + datagram.peerAddr.length + header.connId.length ≤
      (List.replicate maxTokenLen (0 : UInt8)).length := by
    have size := datagram.peerAddr_size
    rw [List.length_replicate, maxTokenLen]
    omega
  obtain ⟨token, minted⟩ :=
    AddressToken.mint_of_fits (Qstring.literal "quiche") header.connId datagram.peerAddr fits
  exact ⟨token, _, minted, AddressToken.take_of_mint minted⟩

theorem Ends.statelessRetry (consistent : Consistent host s) (datagram : Datagram)
    (header : Header) :
    Ends host e s (s.statelessRetry datagram header) := by
  obtain ⟨token, tokenLen, minted, shape⟩ := mintToken_fits header datagram
  have short : header.connId.length ≤ AddressToken.quicheMaxConnIdLen :=
    (List.length_take_le _ _).trans header.dcidLen_le
  rw [Qnetworkserver.statelessRetry, minted]
  simp only [sendRetry, shape]
  cases datagram.newCid with
  | none => exact .stays consistent
  | some newCid =>
    dsimp only
    split
    · exact .acts consistent (.retries short)
    · exact .stays consistent

theorem Ends.onDatagram (consistent : Consistent host s) (datagram : Datagram)
    (possible : s.enabled (.datagram datagram) = true) :
    Ends host (.datagram datagram) s (s.onDatagram host datagram) := by
  rw [Qnetworkserver.onDatagram]
  cases parsed : datagram.header with
  | none => exact .stays consistent
  | some header =>
    dsimp only
    cases found : s.h.find header.connId with
    | some ptr =>
      have outcome := consistent.holds.find header.connId
      rw [found] at outcome
      cases outcome with
      | hit inside => exact .receive consistent ((consistent.mem ptr).mpr inside) datagram
    | none =>
      dsimp only
      split
      · rw [negotiateVersion]
        split
        · exact .acts consistent (.negotiates datagram.peerAddr)
        · exact .stays consistent
      split
      · exact .statelessRetry consistent datagram header
      -- the token decides
      have outcome :=
        AddressToken.validate_outcome (Qstring.literal "quiche") header.token datagram.peerAddr
        (List.replicate AddressToken.quicheMaxConnIdLen 0)
      change AddressToken.Outcome _ _ _ _ (validateToken header.token datagram.peerAddr _) at outcome
      generalize validateToken header.token datagram.peerAddr _ = result at outcome ⊢
      cases outcome with
      | refused => exact .stays consistent
      | accepted shape =>
        dsimp only
        cases accepted : datagram.accepted with
        | none => exact .stays consistent
        | some ptr =>
          have allocated : ptr ≠ Roomserver.nullptr ∧ ptr ∉ s.conns := by
            rw [enabled, accepted, Option.all_some, Bool.and_eq_true, decide_eq_true_eq,
              Bool.not_eq_true'] at possible
            refine ⟨possible.1, fun inside => ?_⟩
            rw [TreeMap.mem_iff_contains, possible.2] at inside
            contradiction
          dsimp only
          cases created : s.createConn host ptr header datagram.peerAddr with
          | ok t =>
            obtain ⟨consistent', order⟩ := consistent.opened allocated.1 allocated.2 created
            have acts : Acts host (.datagram datagram) s t :=
              .opens rfl parsed allocated.1 allocated.2 found shape created
            have there : ptr ∈ t.conns := by
              rw [consistent'.mem, order]
              exact List.mem_append_right _ (List.mem_singleton_self ptr)
            exact (Ends.receive consistent' there datagram).after (.single acts)
          | error fault =>
            have unlisted : ptr ∉ s.h.items :=
              fun inside => allocated.2 ((consistent.mem ptr).mpr inside)
            obtain ⟨h, added, -⟩ := consistent.holds.add header.cid unlisted
            simp only [createConn, added, Qnetworkserver.deliver] at created
            split at created
            · cases created
              exact .faults _
            · cases created

/-! ### Loops over the connections -/

/-- Those that are left are as they were, at the same time. -/
structure Leaves (s t : Qnetworkserver) (left : List Nat) : Prop where
  items : t.h.items = left
  conns : ∀ ptr, ptr ∈ left → t.conns[ptr]? = s.conns[ptr]?
  time : t.room.evNow = s.room.evNow

/-- One connection destroyed leaves the others. -/
theorem Consistent.leaves (consistent : Consistent host s) (inside : ptr ∈ s.conns)
    (destroyed : s.destroyConnection host ptr = .ok t) : Leaves s t (s.h.items.erase ptr) := by
  have order := (consistent.destroyed inside destroyed).2
  obtain ⟨room, moved, rfl⟩ := destroyConnection_eq_ok destroyed
  refine ⟨order, fun p member => ?_, ?_⟩
  · have other := (consistent.holds.distinct.mem_erase_iff.mp member).1
    exact OrderedMap.lookup_erase_ne s.conns (Ne.symm other)
  · exact Roomserver.evNow_step ⟨consistent.destroy_enabled inside, moved⟩

theorem Leaves.trans {u : Qnetworkserver} {left fewer : List Nat} (first : Leaves s t left)
    (second : Leaves t u fewer) (part : ∀ ptr ∈ fewer, ptr ∈ left) : Leaves s u fewer :=
  ⟨second.items, fun ptr member => (second.conns ptr member).trans (first.conns ptr (part ptr member)),
    second.time.trans first.time⟩

theorem Ends.destroyConnection (consistent : Consistent host s) (inside : ptr ∈ s.conns) :
    Ends host e s (s.destroyConnection host ptr) := by
  cases destroyed : s.destroyConnection host ptr with
  | ok t => exact .acts consistent (.destroys inside destroyed)
  | error fault =>
    rw [Qnetworkserver.destroyConnection, Qnetworkserver.deliver] at destroyed
    cases moved : Roomserver.next host.site s.room (.destroyConnection ptr) with
    | error fault =>
      rw [moved] at destroyed
      cases destroyed
      exact .faults fault
    | ok room =>
      rw [moved] at destroyed
      cases destroyed

/-- A loop over the connections that destroys those which a test selects: the test
may look at the time and at the connection itself. -/
theorem hashIter_spec (test : Qnetworkserver → Nat → Bool) (consistent : Consistent host s)
    (steady : ∀ {t left ptr}, Leaves s t left → ptr ∈ left → test t ptr = test s ptr) :
    Ends host e s
        (hashIter (fun s ptr => if test s ptr then s.destroyConnection host ptr else .ok s) s) ∧
      ∀ t, hashIter (fun s ptr =>
          if test s ptr then s.destroyConnection host ptr else .ok s) s = .ok t →
        Leaves s t (s.h.items.filter fun ptr => !test s ptr) := by
  -- `kept` are the connections that the loop has passed
  let Inv : Qnetworkserver → List Nat → Prop := fun t rest =>
    Consistent host t ∧ ∃ kept, Leaves s t (kept ++ rest) ∧
      kept ++ rest.filter (fun ptr => !test s ptr) = s.h.items.filter fun ptr => !test s ptr
  let body := fun s ptr => if test s ptr then Qnetworkserver.destroyConnection host s ptr else .ok s
  have start : Inv s s.h.items := ⟨consistent, [], ⟨rfl, fun _ _ => rfl, rfl⟩, rfl⟩
  have visit : ∀ {t ptr rest}, Inv t (ptr :: rest) → ∀ {u}, body t ptr = .ok u → Inv u rest := by
    rintro t ptr rest ⟨consistent', kept, leaves, selected⟩ u moved
    have here : ptr ∈ kept ++ ptr :: rest := List.mem_append_right _ List.mem_cons_self
    have same := steady leaves here
    simp only [body] at moved
    split at moved
    · rename_i chosen
      have inside : ptr ∈ t.conns := (consistent'.mem ptr).mpr (leaves.items.symm ▸ here)
      have distinct := consistent'.holds.distinct
      have after := consistent'.leaves inside moved
      rw [leaves.items] at distinct after
      rw [Uthash.Hash.erase_middle distinct] at after
      refine ⟨(consistent'.destroyed inside moved).1, kept, leaves.trans after fun p member => ?_, ?_⟩
      · rcases List.mem_append.mp member with early | late
        · exact List.mem_append_left _ early
        · exact List.mem_append_right _ (List.mem_cons_of_mem _ late)
      · rwa [List.filter_cons_of_neg (by simp [← same, chosen])] at selected
    · rename_i spared
      cases moved
      refine ⟨consistent', kept ++ [ptr], ?_, ?_⟩
      · rwa [List.append_assoc]
      · rw [List.filter_cons_of_pos (by simp [← same, spared])] at selected
        rwa [List.append_assoc]
  have step : ∀ {t ptr rest}, Inv t (ptr :: rest) →
      t.h.app.next ptr = rest.head? ∧ ∀ {u}, body t ptr = .ok u → Inv u rest := by
    intro t ptr rest inv
    refine ⟨?_, visit inv⟩
    obtain ⟨consistent', kept, leaves, -⟩ := inv
    have spells := consistent'.holds.spells
    rw [leaves.items] at spells
    rw [spells.next_of_append, Option.or_none]
  obtain ⟨walked, last⟩ := DoublyLinked.forEach_eq Fault.endless step start consistent.holds.cnt.ge
  rw [← consistent.holds.head] at walked
  have loop : hashIter body s = s.h.items.foldlM body s := walked
  change Ends host e s (hashIter body s) ∧ ∀ t, hashIter body s = .ok t → _
  rw [loop]
  constructor
  · -- each visit is an action of its own
    have whole : ∀ (rest : List Nat) t, Inv t rest → Ends host e t (rest.foldlM body t) := by
      intro rest
      induction rest with
      | nil => exact fun t inv => .stays inv.1
      | cons ptr rest ih =>
        intro t inv
        rw [List.foldlM_cons]
        have ends : Ends host e t (body t ptr) := by
          obtain ⟨consistent', kept, leaves, -⟩ := inv
          simp only [body]
          split
          · refine .destroyConnection consistent' ((consistent'.mem ptr).mpr (leaves.items.symm ▸ ?_))
            exact List.mem_append_right _ List.mem_cons_self
          · exact .stays consistent'
        cases moved : body t ptr with
        | error fault =>
          rw [moved] at ends
          exact ends
        | ok u =>
          rw [moved] at ends
          exact (ih u (visit inv moved)).after ends.of_ok.1
    exact whole _ s start
  · intro t done
    obtain ⟨-, kept, leaves, selected⟩ := last done
    rw [List.filter_nil, List.append_nil] at selected
    rw [List.append_nil, selected] at leaves
    exact leaves

theorem steady_closed (closed : List Nat) {left : List Nat} (_leaves : Leaves s t left)
    (_inside : ptr ∈ left) :
    closed.contains ptr = closed.contains ptr :=
  rfl

theorem steady_purges (closed : List Nat) {left : List Nat} (leaves : Leaves s t left)
    (inside : ptr ∈ left) :
    t.purges closed ptr = s.purges closed ptr := by
  rw [purges, purges, leaves.conns ptr inside, leaves.time]

/-! ### Events -/

theorem Ends.heartbeatCheck (consistent : Consistent host s) (closed : List Nat) :
    Ends host e s (s.heartbeatCheck host closed) := by
  have ends : Ends host e s _ :=
    (hashIter_spec (fun s ptr => s.purges closed ptr) consistent (steady_purges closed)).1
  simp only [Qnetworkserver.heartbeatCheck]
  generalize hashIter _ s = result at ends ⊢
  cases ends with
  | faults fault => exact .faults fault
  | @moves t acts consistent' =>
    have counted : Acts host e t t.onHeartbeatCheck := .counts
    exact .moves (acts.tail counted) (counted.consistent consistent')

theorem Ends.next (consistent : Consistent host s) (possible : s.enabled e = true) :
    Ends host e s (next host s e) := by
  cases e with
  | datagram datagram => exact .onDatagram consistent datagram possible
  | received closed =>
    exact (hashIter_spec (fun _ ptr => closed.contains ptr) consistent (steady_closed closed)).1
  | timeout ptr closed =>
    simp only [Qnetworkserver.next, onTimeout]
    split
    · exact .destroyConnection consistent (TreeMap.mem_iff_contains.mpr possible)
    · exact .stays consistent
  | heartbeatCheck closed => exact .heartbeatCheck consistent closed
  | countDownTimer room timer =>
    exact .deliver (.countDownTimer room timer) consistent possible rfl (by simp)
  | checkZombieRooms => exact .deliver .checkZombieRooms consistent possible rfl (by simp)
  | clock now => exact .deliver (.clock now) consistent possible rfl (by simp)
  | keyExpires key => exact .deliver (.keyExpires key) consistent possible rfl (by simp)
  | keyExpired key => exact .deliver (.keyExpired key) consistent possible rfl (by simp)

theorem step_acts (consistent : Consistent host s) (step : (machine host).Step s e t) :
    ReflTransGen (Acts host e) s t ∧ Consistent host t := by
  have ends := Ends.next consistent step.1
  have moved : Qnetworkserver.next host s e = .ok t := step.2
  rw [moved] at ends
  exact ends.of_ok

theorem consistent_of_run (run : (machine host).Run es s) : Consistent host s :=
  Machine.Reaches.invariant (fun consistent step => (step_acts consistent step).2) run .init

/-- What every action of every event keeps holds in every state of a run. -/
theorem Acts.induction {P : List NetEvent → Qnetworkserver → Prop} (initial : P [] {})
    (longer : ∀ {es s} e, P es s → P (es ++ [e]) s)
    (acts : ∀ {es r e s t}, (machine host).Run es r → r.enabled e = true → Consistent host s →
    P (es ++ [e]) s →
      Acts host e s t → P (es ++ [e]) t)
    (run : (machine host).Run es s) : P es s := by
  refine Machine.Run.induction (P := P) initial (fun {es s e t} before holds step => ?_) run
  obtain ⟨series, -⟩ := step_acts (consistent_of_run before) step
  have possible := step.1
  clear step
  have both : P (es ++ [e]) t ∧ Consistent host t := by
    induction series with
    | refl => exact ⟨longer e holds, consistent_of_run before⟩
    | tail _ last ih =>
      obtain ⟨holds, consistent⟩ := ih
      exact ⟨acts before possible consistent holds last, last.consistent consistent⟩
  exact both.1

/-- The calls that the network layer has made are a run of the room server: it
reports a connection before its messages and not after its end. The table lists
the connections of the room server, under the ids that they are hashed by. A step
can fail only inside the room server. -/
theorem network_refines_rooms (run : (machine host).Run es s) :
    (Roomserver.machine host.site).Run s.delivered s.room ∧ s.h.fsck = true ∧
      (∀ ptr, ptr ∈ s.h.items ↔ ptr ∈ s.room.conns) ∧
      (∀ ptr connection, s.room.conns[ptr]? = some connection →
        connection.cidHashVal = cidHashVal (s.h.key ptr)) ∧
      ∀ e, (machine host).enabled s e →
        (∃ t, (machine host).Step s e t) ∨
          ∃ fault, (machine host).next s e = .error (.room fault) := by
  have consistent := consistent_of_run run
  refine ⟨consistent.run, consistent.holds.fsck, fun ptr => consistent.items_iff,
    fun ptr connection found => ?_,
    fun e possible => ?_⟩
  · have known : s.room.profile ptr = some (connection.cidHashVal, connection.connectionEstablished) := by
      rw [Roomserver.profile, found]
      rfl
    have hash := consistent.hashes ptr
    rw [known, Option.map_some, eq_comm, Option.map_eq_some_iff] at hash
    obtain ⟨qconnection, object, same⟩ := hash
    rw [consistent.keys object, same]
  · have ends : Ends host e s (next host s e) := .next consistent possible
    generalize moved : Qnetworkserver.next host s e = result at ends
    cases ends with
    | moves => exact .inl ⟨_, possible, moved⟩
    | faults fault => exact .inr ⟨fault, moved⟩

/-- A server that parses nothing. -/
def lobby : Host where
  site := ⟨.gameRoom, [], []⟩
  parse _ := none

def visitorAddr : Sockaddr := List.replicate 16 7

/-- A header with an id of equal bytes. -/
def visitorHeader (byte : UInt8) (dcidLen : Nat) (short : dcidLen ≤ AddressToken.quicheMaxConnIdLen)
    (token : Qstring) : Header where
  versionSupported := true
  dcid := List.replicate 20 byte
  dcidLen
  token
  dcid_size := rfl
  dcidLen_le := short

/-- The first datagram of a visitor, which is answered with a retry. -/
def knock : Datagram where
  peerAddr := visitorAddr
  peerAddr_size := by decide
  header := some (visitorHeader 3 16 (by decide) [])
  newCid := some (List.replicate 16 9)

/-- The second one, with the token and under the new id. -/
def enter : Datagram where
  peerAddr := visitorAddr
  peerAddr_size := by decide
  header := some (visitorHeader 9 16 (by decide) (Qstring.literal "quiche" ++ visitorAddr ++
    List.replicate 16 3))
  accepted := some 1
  reads := [heartbeat, Qstring.literal "hello"]

/-- A visitor who sends one heartbeat and one message, and is purged. -/
def visit : List NetEvent := [.datagram knock, .datagram enter, .clock 10001, .heartbeatCheck []]

theorem network_refines_rooms_visit :
    ∃ s, (machine lobby).Run visit s ∧ s.delivered.length = 5 ∧
      (Roomserver.machine lobby.site).Run s.delivered s.room ∧ ∀ ptr, ptr ∉ s.room.conns := by
  have shown : ((machine lobby).exec {} visit).map (fun s => (s.delivered.length, s.h.items)) =
      some (5, []) := by
    decide +kernel
  obtain ⟨s, run, same⟩ := Machine.exec_observe shown
  obtain ⟨calls, left⟩ := Prod.mk.inj same
  obtain ⟨inner, -, listed, -⟩ := network_refines_rooms run
  refine ⟨s, run, calls, inner, fun ptr inside => ?_⟩
  have member := (listed ptr).mpr inside
  rw [left] at member
  exact List.not_mem_nil member

end Gearsdk.Qnetworkserver
