import Gearsdk.Qnetworkserver.Runs

/-! The connections of the server over whole runs: how long one may be silent, when
their ids are distinct, and which addresses they belong to. -/
namespace Gearsdk.Qnetworkserver
open Std Transition Relation

variable {host : Host} {s t u : Qnetworkserver} {e : NetEvent} {ptr p : Nat}

/-! ### Heartbeats -/

/-- The clock of the event loop does not go back. -/
def Forward (s : Qnetworkserver) (e : NetEvent) : Prop := ∀ now, e = .clock now → s.room.evNow ≤ now

/-- It is `base` or later, and the connections outside `closed` have been heard of
after the limit before `base`. -/
structure Recent (base : Int) (closed : List Nat) (s : Qnetworkserver) : Prop where
  base_le : base ≤ s.room.evNow
  heard : ∀ {ptr qconnection}, ptr ∉ closed → s.conns[ptr]? = some qconnection →
    base - heartbeatLimit ≤ qconnection.lastHeartbeatTime

theorem Acts.time (acts : Acts host e s t) (consistent : Consistent host s) :
    t.room.evNow = s.room.evNow ∨ e = .clock t.room.evNow := by
  cases acts with
  | opens event parsed nonnull fresh unknown shape created =>
    obtain ⟨h, room, added, moved, rfl⟩ := createConn_eq_ok created
    have step : (Roomserver.machine host.site).Step s.room (.connect _ _) room :=
      ⟨consistent.connect_enabled nonnull fresh _, moved⟩
    exact .inl (Roomserver.evNow_step step)
  | calls possible other timed called =>
    have passed := Roomserver.evNow_step (deliver_step possible called).1
    rename_i inner
    cases inner with
    | clock now => exact .inr (passed ▸ timed now rfl)
    | _ => exact .inl passed
  | hears => exact .inl (by rw [(heard_frame s _).2.1])
  | destroys inside destroyed => exact .inl (consistent.leaves inside destroyed).time
  | negotiates | retries | counts => exact .inl rfl

/-- Each connection after an action was there before it and has been heard of since,
or it is new. -/
theorem Acts.conns (acts : Acts host e s t) (found : t.conns[p]? = some qconnection) :
    (∃ before, s.conns[p]? = some before ∧ before.cid = qconnection.cid ∧
    before.peerAddr = qconnection.peerAddr ∧
        (before.lastHeartbeatTime = qconnection.lastHeartbeatTime ∨
          qconnection.lastHeartbeatTime = s.room.evNow)) ∨
      qconnection.lastHeartbeatTime = s.room.evNow ∧ ∃ datagram header connId,
        e = .datagram datagram ∧
        datagram.header = some header ∧ header.cid = qconnection.cid ∧
          datagram.peerAddr = qconnection.peerAddr ∧
        header.token = Qstring.literal "quiche" ++ qconnection.peerAddr ++ connId := by
  cases acts with
  | opens event parsed nonnull fresh unknown shape created =>
    obtain ⟨h, room, added, moved, rfl⟩ := createConn_eq_ok created
    change (s.conns.insert _ _)[p]? = some qconnection at found
    rw [OrderedMap.lookup_insert] at found
    split at found
    · cases found
      exact .inr ⟨rfl, _, _, _, event, parsed, rfl, rfl, shape⟩
    · exact .inl ⟨qconnection, found, rfl, rfl, .inl rfl⟩
  | calls possible other timed called =>
    rw [(deliver_step possible called).2] at found
    exact .inl ⟨qconnection, found, rfl, rfl, .inl rfl⟩
  | hears =>
    rw [lookup_heard, Option.map_eq_some_iff] at found
    obtain ⟨before, there, rfl⟩ := found
    refine .inl ⟨before, there, ?_⟩
    split
    · exact ⟨rfl, rfl, .inr rfl⟩
    · exact ⟨rfl, rfl, .inl rfl⟩
  | destroys inside destroyed =>
    obtain ⟨room, moved, rfl⟩ := destroyConnection_eq_ok destroyed
    change (s.conns.erase _)[p]? = some qconnection at found
    rw [OrderedMap.lookup_erase] at found
    split at found
    · cases found
    · exact .inl ⟨qconnection, found, rfl, rfl, .inl rfl⟩
  | negotiates | retries | counts => exact .inl ⟨qconnection, found, rfl, rfl, .inl rfl⟩

theorem Recent.step {base : Int} {closed : List Nat} (recent : Recent base closed s)
    (consistent : Consistent host s) (forward : Forward s e) (step : (machine host).Step s e t) :
    Recent base closed t := by
  obtain ⟨series, -⟩ := step_acts consistent step
  clear step
  have later : Recent base closed t ∧ Consistent host t := by
    induction series with
    | refl => exact ⟨recent, consistent⟩
    | @tail u v _ last ih =>
      obtain ⟨recent', consistent'⟩ := ih
      refine ⟨⟨?_, fun {ptr qconnection} outside found => ?_⟩, last.consistent consistent'⟩
      · rcases last.time consistent' with same | clock
        · rw [same]
          exact recent'.base_le
        · exact recent.base_le.trans (forward _ clock)
      · have limit : (0 : Int) ≤ heartbeatLimit := by decide
        have base_le := recent'.base_le
        rcases last.conns found with ⟨before, there, -, -, same | now⟩ | ⟨now, -⟩
        · rw [← same]
          exact recent'.heard outside there
        · omega
        · omega
  exact later.1

/-- The heartbeat check destroys the open connections that have been silent for too
long and no other. Until the next check no open connection is silent for longer
than the limit and the time that has passed since this one. -/
theorem silence_bounded (before : (machine host).Run es s)
    (check : (machine host).Step s (.heartbeatCheck closed) t)
    (path : (machine host).Reaches t fs u)
    (forward : (machine host).Meets Forward (es ++ .heartbeatCheck closed :: fs)) :
    t.h.items = s.h.items.filter (fun ptr => !s.purges closed ptr) ∧
      ∀ ptr qconnection, u.conns[ptr]? = some qconnection → ptr ∉ closed →
        u.room.evNow - qconnection.lastHeartbeatTime ≤ heartbeatLimit +
          (u.room.evNow - t.room.evNow) := by
  have consistent := consistent_of_run before
  have moved : s.heartbeatCheck host closed = .ok t := check.2
  simp only [heartbeatCheck] at moved
  have spec : Ends host (.heartbeatCheck closed) s _ ∧ _ :=
    hashIter_spec (fun s ptr => s.purges closed ptr) consistent (steady_purges closed)
  have loop := spec.2
  generalize hashIter _ s = result at loop moved
  cases result with
  | error fault => cases moved
  | ok middle =>
    cases moved
    have leaves := loop middle rfl
    refine ⟨leaves.items, ?_⟩
    -- those that the check has spared have been heard of in time
    have start : Recent middle.room.evNow closed middle.onHeartbeatCheck := by
      refine ⟨Int.le_refl middle.room.evNow, fun {ptr qconnection} outside found => ?_⟩
      have listed : ptr ∈ s.h.items.filter fun ptr => !s.purges closed ptr := by
        rw [← leaves.items]
        exact ((step_acts consistent check).2.mem ptr).mp (OrderedMap.mem_of_lookup found)
      have spared := (List.mem_filter.mp listed).2
      have object : s.conns[ptr]? = some qconnection := (leaves.conns ptr listed).symm.trans found
      have kept : s.room.evNow - qconnection.lastHeartbeatTime ≤ heartbeatLimit := by
        simpa [purges, outside, object] using spared
      have time := leaves.time
      omega
    have recent : Recent middle.room.evNow closed u := by
      have first : (machine host).Run (es ++ [.heartbeatCheck closed]) middle.onHeartbeatCheck :=
        before.step check
      generalize target : middle.onHeartbeatCheck = t at start path first
      clear loop leaves
      induction path with
      | refl => exact start
      | @step gs v e w earlier last ih =>
        have shorter : es ++ .heartbeatCheck closed :: gs <+: es ++ .heartbeatCheck closed ::
          (gs ++ [e]) :=
          ⟨[e], by simp⟩
        have upto := first.trans earlier
        have earlierForward := Machine.Meets.prefix forward shorter
        refine (ih earlierForward).step (consistent_of_run upto) ?_ last
        refine forward _ e v ⟨[], ?_⟩ upto
        simp
    intro ptr qconnection found outside
    have heard := recent.heard outside found
    change u.room.evNow - qconnection.lastHeartbeatTime ≤ heartbeatLimit +
      (u.room.evNow - middle.room.evNow)
    omega

def isForward (s : Qnetworkserver) : NetEvent → Bool
  | .clock now => s.room.evNow ≤ now
  | _ => true

theorem forward_of_test (s : Qnetworkserver) (e : NetEvent) (test : isForward s e = true) :
    Forward s e := by
  rintro now rfl
  simpa [isForward] using test

/-- A visitor who is heard of five seconds after he came. -/
def beats : List NetEvent :=
  [.datagram knock, .datagram enter, .clock 5000,
    .datagram { enter with accepted := none, reads := [heartbeat] }, .clock 14000]

theorem silence_bounded_beats :
    ∃ (u : Qnetworkserver) (qconnection : Qconnection), u.conns[1]? = some qconnection ∧
      u.room.evNow - qconnection.lastHeartbeatTime ≤ heartbeatLimit + 2000 := by
  have passed : (machine lobby).checks isForward {} (beats ++ [.heartbeatCheck [], .clock 16000]) =
      true := by
    decide +kernel
  have forward : (machine lobby).Meets Forward (beats ++ .heartbeatCheck [] :: [.clock 16000]) :=
    fun fs e s inside path => Machine.meets_of_checks forward_of_test passed inside path
  have shown : ((machine lobby).exec {} (beats ++ [.heartbeatCheck [], .clock 16000])).map
      (fun s => ((s.conns[1]?).isSome, s.room.evNow)) = some (true, 16000) := by decide +kernel
  obtain ⟨u, run, same⟩ := Machine.exec_observe shown
  obtain ⟨there, late⟩ := Prod.mk.inj same
  have cut : (machine lobby).Run ((beats ++ [.heartbeatCheck []]) ++ [.clock 16000]) u := run
  obtain ⟨t, checked, path⟩ := Machine.Reaches.split cut
  obtain ⟨s, before, check⟩ := checked.snoc_inv
  obtain ⟨qconnection, found⟩ := Option.isSome_iff_exists.mp there
  have time : t.room.evNow = 14000 := by
    have seen : ((machine lobby).exec {} (beats ++ [.heartbeatCheck []])).map (·.room.evNow) =
        some 14000 := by
      decide +kernel
    obtain ⟨t', checked', now⟩ := Machine.exec_observe seen
    cases checked.unique checked'
    exact now
  have bound := (silence_bounded before check path forward).2 1 qconnection found (by simp)
  refine ⟨u, qconnection, found, ?_⟩
  rw [late, time] at bound
  rw [late]
  exact bound

/-! ### Opening a connection -/

/-- The header with which a datagram opens a connection, and the object that is made
for it. -/
def opening (s : Qnetworkserver) (datagram : Datagram) : Option (Header × Nat) := do
  let header ← datagram.header
  let ptr ← datagram.accepted
  let (valid, _,
    _) ← validateToken header.token datagram.peerAddr (List.replicate AddressToken.quicheMaxConnIdLen 0)
  if (s.h.find header.connId).isNone && header.versionSupported &&
    valid then some (header, ptr) else none

theorem validateToken_iff (token : Qstring) (addr : Sockaddr) (odcid : List UInt8) :
    (∃ rest, validateToken token addr odcid = some (true, rest)) ↔
      ∃ connId, token = Qstring.literal "quiche" ++ addr ++ connId ∧
        connId.length ≤ odcid.length := by
  have outcome := AddressToken.validate_outcome (Qstring.literal "quiche") token addr odcid
  change AddressToken.Outcome _ _ _ _ (validateToken token addr odcid) at outcome
  constructor
  · rintro ⟨rest, valid⟩
    rw [valid] at outcome
    cases outcome with
    | accepted shape wrote =>
      have fits := Buffer.write_fits wrote
      exact ⟨_, shape, by omega⟩
  · rintro ⟨connId, shape, short⟩
    generalize validateToken token addr odcid = result at outcome ⊢
    cases outcome with
    | accepted => exact ⟨_, rfl⟩
    | refused other => exact absurd short (Nat.not_le.mpr (other connId shape))

theorem opening_eq_some_iff {datagram : Datagram} {header : Header} :
    s.opening datagram = some (header, ptr) ↔
      datagram.header = some header ∧ datagram.accepted = some ptr ∧ s.h.find header.connId = none ∧
        header.versionSupported = true ∧ ∃ connId, header.token = Qstring.literal "quiche" ++
          datagram.peerAddr ++ connId ∧
          connId.length ≤ AddressToken.quicheMaxConnIdLen := by
  have valid := validateToken_iff header.token datagram.peerAddr
    (List.replicate AddressToken.quicheMaxConnIdLen 0)
  rw [List.length_replicate] at valid
  rw [← valid]
  simp only [opening, Option.bind_eq_bind, Option.bind_eq_some_iff]
  constructor
  · rintro ⟨header', parsed, ptr', accepted, ⟨valid', rest⟩, validated, chosen⟩
    split at chosen
    · rename_i all
      cases chosen
      simp only [Bool.and_eq_true, Option.isNone_iff_eq_none] at all
      obtain ⟨⟨unknown, supported⟩, rfl⟩ := all
      exact ⟨parsed, accepted, unknown, supported, rest, validated⟩
    · cases chosen
  · rintro ⟨parsed, accepted, unknown, supported, rest, validated⟩
    exact ⟨header, parsed, ptr, accepted, (true, rest), validated, by simp [unknown, supported]⟩

theorem conns_readStreams {reads : List Qstring} (read : readStreams host ptr s reads = .ok t)
    (p : Nat) :
    (t.conns[p]?).map (fun q => (q.cid, q.peerAddr)) = (s.conns[p]?).map fun q =>
      (q.cid, q.peerAddr) := by
  induction reads generalizing s with
  | nil =>
    cases Except.ok.inj read
    rfl
  | cons buf rest ih =>
    rw [readStreams] at read
    split at read
    · rw [ih read, lookup_heard, Option.map_map]
      refine congrArg (fun f => Option.map f s.conns[p]?) (funext fun qconnection => ?_)
      rw [Function.comp_apply]
      split <;> rfl
    · cases called : s.deliver host (.message ptr buf (host.parse buf)) with
      | error fault =>
        rw [called] at read
        cases read
      | ok u =>
        simp only [called] at read
        obtain ⟨room, -, rfl⟩ := deliver_eq_ok_iff.mp called
        have later := ih read
        exact later

theorem conns_receive {datagram : Datagram} (received : s.receive host ptr datagram = .ok t)
    (p : Nat) :
    (t.conns[p]?).map (fun q => (q.cid, q.peerAddr)) = (s.conns[p]?).map fun q =>
      (q.cid, q.peerAddr) := by
  simp only [receive] at received
  split at received
  · split at received
    · exact conns_readStreams received p
    · cases called : s.deliver host (.connected ptr) with
      | error fault =>
        rw [called] at received
        cases received
      | ok u =>
        simp only [called] at received
        obtain ⟨room, -, rfl⟩ := deliver_eq_ok_iff.mp called
        have later := conns_readStreams received p
        exact later
  · cases Except.ok.inj received
    rfl

/-- A datagram makes one connection or none, and takes none away. -/
theorem conns_onDatagram {datagram : Datagram} (moved : s.onDatagram host datagram = .ok t)
    (p : Nat) :
    (t.conns[p]?).map (fun q => (q.cid, q.peerAddr)) =
      match s.opening datagram with
      | none => (s.conns[p]?).map fun q => (q.cid, q.peerAddr)
      | some (header, ptr) =>
          if ptr = p then some (header.cid, datagram.peerAddr)
          else (s.conns[p]?).map fun q => (q.cid, q.peerAddr) := by
  rw [onDatagram] at moved
  cases parsed : datagram.header with
  | none =>
    rw [parsed] at moved
    cases moved
    simp [opening, parsed]
  | some header =>
    simp only [parsed] at moved
    cases found : s.h.find header.connId with
    | some ptr =>
      simp only [found] at moved
      have opens : s.opening datagram = none := by
        rw [Option.eq_none_iff_forall_ne_some]
        rintro ⟨header', ptr'⟩ opens
        obtain ⟨parsed', -, unknown, -⟩ := opening_eq_some_iff.mp opens
        cases Option.some.inj (parsed.symm.trans parsed')
        rw [found] at unknown
        cases unknown
      rw [opens]
      exact conns_receive moved p
    | none =>
      simp only [found] at moved
      have closed (refused : ∀ ptr, s.opening datagram ≠ some (header, ptr)) : s.opening datagram =
          none := by
        rw [Option.eq_none_iff_forall_ne_some]
        rintro ⟨header', ptr'⟩ opens
        cases Option.some.inj (parsed.symm.trans (opening_eq_some_iff.mp opens).1)
        exact refused ptr' opens
      cases supported : header.versionSupported with
      | false =>
        have opens := closed fun ptr opens => by
          have known := (opening_eq_some_iff.mp opens).2.2.2.1
          rw [supported] at known
          cases known
        rw [opens]
        simp only [supported, Bool.not_false, if_true, negotiateVersion] at moved
        split at moved <;> cases moved <;> rfl
      | true =>
        rw [supported, Bool.not_true, if_neg Bool.false_ne_true] at moved
        have text : Qstring.literal "quiche" ≠ [] := by decide +kernel
        split at moved
        · rename_i empty
          have opens := closed fun ptr opens => by
            obtain ⟨connId, shape, -⟩ := (opening_eq_some_iff.mp opens).2.2.2.2
            rw [List.length_eq_zero_iff.mp empty] at shape
            simp [text] at shape
          rw [opens]
          simp only [statelessRetry] at moved
          generalize mintToken header.connId datagram.peerAddr _ = minted at moved
          cases minted with
          | none => cases moved
          | some minted =>
            simp only [sendRetry] at moved
            split at moved
            · cases moved
              rfl
            · split at moved <;> cases moved <;> rfl
        · cases validated : validateToken header.token datagram.peerAddr
              (List.replicate AddressToken.quicheMaxConnIdLen 0) with
          | none =>
            rw [validated] at moved
            cases moved
          | some result =>
            rw [validated] at moved
            obtain ⟨valid, rest⟩ := result
            cases valid with
            | false =>
              cases moved
              simp [opening, parsed, validated]
            | true =>
              dsimp only at moved
              cases accepted : datagram.accepted with
              | none =>
                rw [accepted] at moved
                cases moved
                simp [opening, accepted]
              | some ptr =>
                have opens : s.opening datagram = some (header, ptr) := by
                  simp [opening, parsed, accepted, validated, found, supported]
                rw [accepted] at moved
                cases created : s.createConn host ptr header datagram.peerAddr with
                | error fault =>
                  simp only [created] at moved
                  cases moved
                | ok u =>
                  simp only [created] at moved
                  obtain ⟨h, room, -, -, rfl⟩ := createConn_eq_ok created
                  rw [opens, conns_receive moved p]
                  change ((s.conns.insert ptr _)[p]?).map _ = _
                  rw [OrderedMap.lookup_insert]
                  dsimp only
                  split <;> rfl

/-! ### Ids -/

def cidOf (s : Qnetworkserver) (ptr : Nat) : Option (List UInt8) := (s.conns[ptr]?).map (·.cid)

/-- No two connections have the same id. -/
def Distinct (s : Qnetworkserver) : Prop :=
  ∀ p q cid, s.cidOf p = some cid → s.cidOf q = some cid → p = q

/-- A datagram that opens a connection under an id of another length than the
server's does not begin with the id of a connection that is there. -/
def NewId (s : Qnetworkserver) (e : NetEvent) : Prop :=
  ∀ datagram header ptr, e = .datagram datagram → s.opening datagram = some (header, ptr) →
    header.dcidLen ≠ localConnIdLen → ∀ p, s.cidOf p ≠ some header.cid

theorem cidOf_onDatagram {datagram : Datagram} (moved : s.onDatagram host datagram = .ok t)
    (p : Nat) :
    t.cidOf p =
      match s.opening datagram with
      | none => s.cidOf p
      | some (header, ptr) => if ptr = p then some header.cid else s.cidOf p := by
  have both := congrArg (Option.map Prod.fst) (conns_onDatagram moved p)
  rw [Option.map_map] at both
  refine both.trans ?_
  cases s.opening datagram with
  | none =>
    dsimp only
    rw [Option.map_map]
    rfl
  | some opened =>
    dsimp only
    split
    · rfl
    · rw [Option.map_map]
      rfl

/-- An event that is no datagram makes no connection. -/
theorem cidOf_other (consistent : Consistent host s) (step : (machine host).Step s e t)
    (other : ∀ datagram, e ≠ .datagram datagram) (found : t.cidOf p = some cid) :
    s.cidOf p = some cid := by
  obtain ⟨series, -⟩ := step_acts consistent step
  clear step
  induction series with
  | refl => exact found
  | tail _ last ih =>
    obtain ⟨qconnection, object, rfl⟩ := Option.map_eq_some_iff.mp found
    rcases last.conns object with ⟨before, there, same, -⟩ | ⟨-, datagram, _, _, event, -⟩
    · refine ih ?_
      rw [cidOf, there, Option.map_some, same]
    · exact absurd event (other datagram)

theorem Distinct.step_iff (distinct : Distinct s) (consistent : Consistent host s)
    (step : (machine host).Step s e t) :
    Distinct t ↔ NewId s e := by
  by_cases datagrams : ∃ datagram, e = .datagram datagram
  · obtain ⟨datagram, rfl⟩ := datagrams
    have moved : s.onDatagram host datagram = .ok t := step.2
    have after := cidOf_onDatagram moved
    cases opens : s.opening datagram with
    | none =>
      rw [opens] at after
      refine iff_of_true (fun p q cid first second => ?_) fun other header ptr same opened => ?_
      · exact distinct p q cid ((after p).symm.trans first) ((after q).symm.trans second)
      · cases same
        rw [opens] at opened
        cases opened
    | some opened =>
      obtain ⟨header, ptr⟩ := opened
      rw [opens] at after
      dsimp only at after
      obtain ⟨-, accepted, unknown, -⟩ := opening_eq_some_iff.mp opens
      have fresh : ptr ∉ s.conns := by
        have possible : s.enabled (.datagram datagram) = true := step.1
        rw [enabled, accepted, Option.all_some, Bool.and_eq_true, Bool.not_eq_true'] at possible
        intro inside
        rw [TreeMap.mem_iff_contains, possible.2] at inside
        contradiction
      -- an id of the right length was looked up in full
      have known : header.dcidLen = localConnIdLen → ∀ p, s.cidOf p ≠ some header.cid := by
        intro length p same
        obtain ⟨qconnection, object, cid⟩ := Option.map_eq_some_iff.mp same
        have outcome := consistent.holds.find header.connId
        rw [unknown] at outcome
        cases outcome with
        | miss absent =>
          refine absent p ((consistent.mem p).mp (OrderedMap.mem_of_lookup object)) ?_
          rw [consistent.keys object, cid, Header.cid, Header.connId, length]
      have unused : Distinct t ↔ ∀ p, s.cidOf p ≠ some header.cid := by
        constructor
        · intro distinct' p same
          have other : ptr ≠ p := by
            rintro rfl
            obtain ⟨qconnection, object, -⟩ := Option.map_eq_some_iff.mp same
            exact fresh (OrderedMap.mem_of_lookup object)
          refine other (distinct' ptr p header.cid ?_ ?_)
          · rw [after, if_pos rfl]
          · rw [after, if_neg other, same]
        · intro unused p q cid first second
          rw [after] at first second
          split at first <;> split at second
          · rename_i here there
            exact here.symm.trans there
          · cases first
            exact absurd second (unused q)
          · cases second
            exact absurd first (unused p)
          · exact distinct p q cid first second
      rw [unused]
      constructor
      · intro unused other header' ptr' same opened _
        cases same
        cases Option.some.inj (opens.symm.trans opened)
        exact unused
      · intro newId
        by_cases length : header.dcidLen = localConnIdLen
        · exact known length
        · exact newId datagram header ptr rfl opens length
  · have other : ∀ datagram, e ≠ .datagram datagram :=
      fun datagram same => datagrams ⟨datagram, same⟩
    refine iff_of_true (fun p q cid first second => ?_) fun datagram _ _ same =>
      absurd same (other datagram)
    exact distinct p q cid (cidOf_other consistent step other first)
      (cidOf_other consistent step other second)

/-- The ids in the table stay distinct exactly as long as no datagram opens a
connection with an id of another length that begins with an id in the table: the
table is searched for the whole id, and only its first bytes are entered. -/
theorem ids_distinct_iff (run : (machine host).Run es s) :
    (machine host).Always Distinct es ↔ (machine host).Meets NewId es := by
  refine Machine.always_iff_meets ?_ ?_ run
  · intro p q cid found
    simp [machine, cidOf] at found
  · intro es s e t before distinct step
    exact distinct.step_iff (consistent_of_run before) step

/-- Two connections of one client, with ids of seventeen equal bytes. -/
def twins : List NetEvent :=
  [1, 2].map fun ptr => .datagram
    { enter with
      header := some (visitorHeader 9 17 (by decide) (Qstring.literal "quiche" ++ visitorAddr))
      accepted := some ptr }

theorem ids_distinct_iff_twins :
    ∃ s, (machine lobby).Run twins s ∧ ¬ (machine lobby).Meets NewId twins := by
  have shown : ((machine lobby).exec {} twins).map (fun s => (s.cidOf 1, s.cidOf 2)) =
      some (some (List.replicate 16 9), some (List.replicate 16 9)) := by decide +kernel
  obtain ⟨s, run, same⟩ := Machine.exec_observe shown
  obtain ⟨first, second⟩ := Prod.mk.inj same
  refine ⟨s, run, fun meets => ?_⟩
  have distinct := (ids_distinct_iff run).mpr meets twins s (List.prefix_refl _) run
  exact absurd (distinct 1 2 _ first second) (by decide)

/-! ### Addresses -/

/-- Each connection was opened by a datagram from its address with a token for it. -/
def Validated (es : List NetEvent) (s : Qnetworkserver) : Prop :=
  ∀ (ptr : Nat) (qconnection : Qconnection), s.conns[ptr]? = some qconnection →
    ∃ datagram header connId, .datagram datagram ∈ es ∧ datagram.header = some header ∧
      datagram.peerAddr = qconnection.peerAddr ∧ header.cid = qconnection.cid ∧
      header.token = Qstring.literal "quiche" ++ qconnection.peerAddr ++ connId

theorem validated_of_run (run : (machine host).Run es s) : Validated es s := by
  refine Acts.induction (P := Validated) ?_ ?_ ?_ run
  · intro ptr qconnection found
    simp at found
  · intro es s e validated ptr qconnection found
    obtain ⟨datagram, header, connId, earlier, opened⟩ := validated ptr qconnection found
    exact ⟨datagram, header, connId, List.mem_append_left _ earlier, opened⟩
  · intro es r e s t _ _ _ validated acts ptr qconnection found
    rcases acts.conns found with ⟨before, there, cid, peerAddr, -⟩ | ⟨-, datagram, header, connId,
      rfl, parsed, cid, peerAddr, shape⟩
    · rw [← cid, ← peerAddr]
      exact validated ptr before there
    · exact ⟨datagram, header, connId, by simp, parsed, peerAddr, cid, shape⟩

/-- Each retry has carried a token for the address that it was sent to. -/
def Minted (s : Qnetworkserver) : Prop :=
  ∀ peerAddr newCid token, .retry peerAddr newCid token ∈ s.sent →
    ∃ connId, token = Qstring.literal "quiche" ++ peerAddr ++ connId ∧
      connId.length ≤ AddressToken.quicheMaxConnIdLen

theorem Acts.minted (acts : Acts host e s t) (minted : Minted s) : Minted t := by
  cases acts with
  | opens event parsed nonnull fresh unknown shape created =>
    obtain ⟨h, room, -, -, rfl⟩ := createConn_eq_ok created
    exact minted
  | calls possible other timed called =>
    rw [(deliver_step possible called).2]
    exact minted
  | hears =>
    rw [Minted, (heard_frame s _).2.2.2]
    exact minted
  | destroys inside destroyed =>
    obtain ⟨room, -, rfl⟩ := destroyConnection_eq_ok destroyed
    exact minted
  | negotiates =>
    intro peerAddr newCid token member
    rcases List.mem_append.mp member with earlier | last
    · exact minted peerAddr newCid token earlier
    · simp at last
  | retries short =>
    intro peerAddr newCid token member
    rcases List.mem_append.mp member with earlier | last
    · exact minted peerAddr newCid token earlier
    · cases List.mem_singleton.mp last
      exact ⟨_, rfl, short⟩
  | counts => exact minted

theorem minted_of_run (run : (machine host).Run es s) : Minted s := by
  refine Acts.induction (P := fun _ s => Minted s) ?_ (fun _ => id) ?_ run
  · intro peerAddr newCid token member
    simp at member
  · intro es r e s t _ _ _ minted acts
    exact acts.minted minted

/-- A connection belongs to the address in the token that opened it, and that
datagram came from there. The token of a retry is taken from the address that the
retry went to at any later time, and then opens a connection under the new id. -/
theorem addresses_validated (run : (machine host).Run es s) :
    Validated es s ∧
      ∀ peerAddr newCid token, .retry peerAddr newCid token ∈ s.sent →
        ∀ datagram header ptr, datagram.peerAddr = peerAddr → datagram.header = some header →
          header.token = token →
          header.versionSupported = true → s.h.find header.connId = none →
            datagram.accepted = some ptr →
            ∀ t, s.onDatagram host datagram = .ok t →
              ∃ qconnection, t.conns[ptr]? = some qconnection ∧ qconnection.cid = header.cid ∧
                qconnection.peerAddr = peerAddr := by
  refine ⟨validated_of_run run, ?_⟩
  rintro peerAddr newCid token member datagram header ptr rfl parsed rfl supported unknown accepted t moved
  have minted := minted_of_run run _ newCid _ member
  have opens : s.opening datagram = some (header, ptr) :=
    opening_eq_some_iff.mpr ⟨parsed, accepted, unknown, supported, minted⟩
  have after := conns_onDatagram moved ptr
  rw [opens] at after
  simp only [if_true] at after
  obtain ⟨qconnection, found, same⟩ := Option.map_eq_some_iff.mp after
  exact ⟨qconnection, found, congrArg Prod.fst same, congrArg Prod.snd same⟩

theorem addresses_validated_visit :
    ∃ s t qconnection, (machine lobby).Run [.datagram knock] s ∧ s.onDatagram lobby enter = .ok t ∧
      t.conns[1]? = some qconnection ∧ qconnection.peerAddr = visitorAddr := by
  have shown : ((machine lobby).exec {} [.datagram knock]).map (fun s =>
      (s.sent, s.h.find (List.replicate 16 9), (s.onDatagram lobby enter).isOk)) =
        some ([.retry visitorAddr (List.replicate 16 9)
          (Qstring.literal "quiche" ++ visitorAddr ++ List.replicate 16 3)], none, true) := by
            decide +kernel
  obtain ⟨s, run, same⟩ := Machine.exec_observe shown
  obtain ⟨sent, rest⟩ := Prod.mk.inj same
  obtain ⟨unknown, taken⟩ := Prod.mk.inj rest
  cases moved : s.onDatagram lobby enter with
  | error fault =>
    rw [moved] at taken
    cases taken
  | ok t =>
    have member : .retry visitorAddr (List.replicate 16 9)
        (Qstring.literal "quiche" ++ visitorAddr ++ List.replicate 16 3) ∈ s.sent := by
      rw [sent]
      exact List.mem_singleton_self _
    obtain ⟨qconnection, found, -, peerAddr⟩ :=
      (addresses_validated run).2 _ _ _ member enter _ 1 rfl rfl rfl rfl unknown rfl t moved
    exact ⟨s, t, qconnection, run, moved, found, peerAddr⟩

end Gearsdk.Qnetworkserver
