import Gearsdk.Qnetwork

/-! Messages on the game streams. The reads on one side should yield the
messages of the other side. They do where every message is written whole and
read by itself; the streams promise neither. -/
namespace Gearsdk.Qnetwork

def submitted (events : List ClientEvent) : List Qstring :=
  events.filterMap fun
    | .sendMessage buffer => some buffer
    | .sendCb _ => none

/-- What the server should hand on of the messages of a client. -/
def messagesOf (events : List ClientEvent) : List Qstring :=
  (hi :: submitted events).filter (· ≠ heartbeat)

/-- Every byte is read by itself. -/
def bytewise (sent : List StreamData) : List StreamData :=
  sent.flatMap fun entry => entry.2.map fun byte => (entry.1, [byte])

theorem length_bytewise (member : entry ∈ bytewise sent) : entry.2.length = 1 := by
  obtain ⟨_, _, inside⟩ := List.mem_flatMap.mp member
  obtain ⟨_, _, rfl⟩ := List.mem_map.mp inside
  rfl

theorem streamBytes_cons (stream : Nat) (entry : StreamData) (data : List StreamData) :
    streamBytes stream (entry :: data) = (if entry.1 = stream then entry.2 else []) ++
      streamBytes stream data :=
  List.flatMap_cons

theorem streamBytes_single_bytes (stream source : Nat) (bytes : Qstring) :
    streamBytes stream (bytes.map fun byte => (source, [byte])) = if source = stream then bytes
      else [] := by
  induction bytes with
  | nil => exact (ite_self []).symm
  | cons byte rest ih =>
    rw [List.map_cons, streamBytes_cons, ih]
    split
    · rfl
    · rfl

theorem delivers_bytewise (sent : List StreamData) : Delivers sent (bytewise sent) where
  bytes stream := by
    induction sent with
    | nil => rfl
    | cons entry sent ih =>
      rw [bytewise, List.flatMap_cons, streamBytes_append, streamBytes_single_bytes,
        streamBytes_cons]
      exact congrArg _ ih
  cut entry member := by
    have one := length_bytewise member
    constructor
    · intro empty
      rw [empty] at one
      cases one
    · rw [one, bufferSize]
      omega

/-- The writes that put something into a stream. -/
def nonempty (sent : List StreamData) : List StreamData := sent.filter fun entry => entry.2 ≠ []

/-- A stream that is offered a message takes all of it or nothing. -/
def Entire (message : Qstring) : Option Nat → Prop
  | none => True
  | some n => n = 0 ∨ message.length ≤ n

/-- No message is empty, and none is taken in part. -/
def Whole (events : List ClientEvent) : Prop :=
  ∀ message ∈ submitted events, message ≠ [] ∧
    ∀ writables, .sendCb writables ∈ events → ∀ stream accepts, some (stream, accepts) ∈ writables →
      Entire message accepts

/-- Another stream than the one before is writable and takes the message. -/
def Open (call : ServerCall) : Prop :=
  call.buffer ≠ [] ∧ (∀ last, ∃ stream ∈ call.writable, stream ≠ last) ∧
    ∃ n, call.first = some n ∧ call.buffer.length ≤ n

theorem sendMessage_entire (writable : Writable) {message : Qstring} (full : message ≠ [])
    (entire : ∀ stream accepts, writable = some (stream, accepts) → Entire message accepts) :
    (sendMessage writable message).1 = message.length ∧
      (nonempty (sendMessage writable message).2).map Prod.snd = [message] ∨
      (sendMessage writable message).1 ≠ message.length ∧
        nonempty (sendMessage writable message).2 = [] := by
  have positive : 0 < message.length := List.length_pos_iff.mpr full
  -- every way to fail answers -5
  have fails : ∀ stream accepts, (streamSend stream accepts message).1 ≠ message.length →
      sendMessage (some (stream, accepts)) message = (-5, (streamSend stream accepts message).2) :=
    fun _ _ short => if_neg short
  cases writable with
  | none =>
    right
    refine ⟨?_, rfl⟩
    simp only [sendMessage]
    omega
  | some offer =>
    obtain ⟨stream, accepts⟩ := offer
    have entire := entire stream accepts rfl
    cases accepts with
    | none =>
      right
      rw [fails stream none (by simp only [streamSend]; omega)]
      refine ⟨by simp only; omega, rfl⟩
    | some n =>
      rcases entire with rfl | enough
      · right
        rw [fails stream (some 0) (by simp only [streamSend, List.take_zero, List.length_nil]; omega)]
        refine ⟨by simp only; omega, rfl⟩
      · left
        have whole : message.take n = message := List.take_of_length_le enough
        simp [sendMessage, streamSend, whole, nonempty, full]

theorem sendCb_entire {queue : List Qstring} {writables : List Writable}
    (entire : ∀ message ∈ queue, message ≠ [] ∧
      ∀ stream accepts, some (stream, accepts) ∈ writables → Entire message accepts) :
    ∃ done, queue = done ++ (sendCb queue writables).1 ∧
      (nonempty (sendCb queue writables).2).map Prod.snd = done := by
  induction writables generalizing queue with
  | nil =>
    cases queue with
    | nil => exact ⟨[], rfl, rfl⟩
    | cons message queue => exact ⟨[], rfl, rfl⟩
  | cons writable writables ih =>
    cases queue with
    | nil => exact ⟨[], rfl, rfl⟩
    | cons message queue =>
      obtain ⟨full, here⟩ := entire message List.mem_cons_self
      have rest : ∀ message ∈ queue, message ≠ [] ∧
          ∀ stream accepts, some (stream, accepts) ∈ writables → Entire message accepts := by
        intro other member
        obtain ⟨full, takes⟩ := entire other (List.mem_cons_of_mem _ member)
        exact ⟨full, fun stream accepts offered => takes stream accepts (List.mem_cons_of_mem _ offered)⟩
      obtain ⟨done, left, sent⟩ := ih rest
      have taken := sendMessage_entire writable full fun stream accepts same =>
        here stream accepts (same ▸ List.mem_cons_self)
      simp only [sendCb]
      rcases taken with ⟨counts, bytes⟩ | ⟨fails, nothing⟩
      · rw [if_pos counts]
        refine ⟨message :: done, congrArg (message :: ·) left, ?_⟩
        simp only [nonempty, List.filter_append, List.map_append] at bytes sent ⊢
        rw [bytes, sent]
        rfl
      · rw [if_neg fails]
        exact ⟨[], rfl, by rw [nothing]; rfl⟩

theorem nonempty_append (sent more : List StreamData) :
    nonempty (sent ++ more) = nonempty sent ++ nonempty more :=
  List.filter_append ..

/-- What has left the queue has been written, message by message. -/
theorem run_entire {events : List ClientEvent} (client : Client)
    (entire : ∀ message ∈ client.sendBuffer ++ submitted events, message ≠ [] ∧
      ∀ writables, .sendCb writables ∈ events →
        ∀ stream accepts, some (stream, accepts) ∈ writables →
        Entire message accepts) :
    ∃ done, client.sendBuffer ++ submitted events = done ++
      (events.foldl Client.step client).sendBuffer ∧
      (nonempty (events.foldl Client.step client).sent).map Prod.snd =
        (nonempty client.sent).map Prod.snd ++ done := by
  induction events generalizing client with
  | nil => exact ⟨[], by simp [submitted], by simp⟩
  | cons event events ih =>
    cases event with
    | sendMessage buffer =>
      have next : client.sendBuffer ++ submitted (.sendMessage buffer :: events) =
          (client.step (.sendMessage buffer)).sendBuffer ++ submitted events := by
        simp [submitted, Client.step]
      rw [next] at entire ⊢
      refine ih _ fun message member => ?_
      obtain ⟨full, takes⟩ := entire message member
      exact ⟨full, fun writables later => takes writables (List.mem_cons_of_mem _ later)⟩
    | sendCb writables =>
      have now : ∀ message ∈ client.sendBuffer, message ≠ [] ∧
          ∀ stream accepts, some (stream, accepts) ∈ writables → Entire message accepts := by
        intro message member
        obtain ⟨full, takes⟩ := entire message (List.mem_append_left _ member)
        exact ⟨full, takes writables List.mem_cons_self⟩
      obtain ⟨first, left, sent⟩ := sendCb_entire now
      have rest : ∀ message ∈ (client.step (.sendCb writables)).sendBuffer ++ submitted events,
        message ≠ [] ∧
          ∀ writables, .sendCb writables ∈ events →
            ∀ stream accepts, some (stream, accepts) ∈ writables →
            Entire message accepts := by
        intro message member
        have known : message ∈ client.sendBuffer ++ submitted (.sendCb writables :: events) := by
          rcases List.mem_append.mp member with queued | later
          · refine List.mem_append_left _ ?_
            rw [left]
            exact List.mem_append_right _ queued
          · exact List.mem_append_right _ later
        obtain ⟨full, takes⟩ := entire message known
        exact ⟨full, fun writables later => takes writables (List.mem_cons_of_mem _ later)⟩
      obtain ⟨done, whole, written⟩ := ih _ rest
      refine ⟨first ++ done, ?_, ?_⟩
      · rw [List.foldl_cons, List.append_assoc, ← whole, ← List.append_assoc]
        exact congrArg (· ++ submitted events) left
      · rw [List.foldl_cons, written, ← List.append_assoc]
        refine congrArg (· ++ done) ?_
        simp only [Client.step, nonempty_append, List.map_append, sent]

/-- The first stream that is tried takes the message, and no other one is tried. -/
theorem sendmessage_open {call : ServerCall} (opened : Open call) (last : Nat) :
    ∃ stream, sendmessage last call = (stream, [(stream, call.buffer)]) := by
  obtain ⟨_, writable, n, first, enough⟩ := opened
  obtain ⟨stream, member, other⟩ := writable last
  have whole : call.buffer.take n = call.buffer := List.take_of_length_le enough
  cases tried : call.writable.find? (· ≠ last) with
  | none =>
    have none := List.find?_eq_none.mp tried stream member
    simp [other] at none
  | some stream =>
    exact ⟨stream, by simp only [sendmessage, tried, streamSend, first, whole, if_true]⟩

theorem serverSends_open {calls : List ServerCall} (opened : ∀ call ∈ calls, Open call)
    (last : Nat) :
    nonempty (serverSends last calls) = serverSends last calls ∧
      (serverSends last calls).map Prod.snd = calls.map ServerCall.buffer := by
  induction calls generalizing last with
  | nil => exact ⟨rfl, rfl⟩
  | cons call calls ih =>
    obtain ⟨stream, sent⟩ := sendmessage_open (opened call List.mem_cons_self) last
    obtain ⟨full, buffers⟩ :=
      ih (fun other member => opened other (List.mem_cons_of_mem _ member)) stream
    simp only [serverSends, sent, List.map_cons, List.singleton_append]
    constructor
    · rw [nonempty, List.filter_cons_of_pos (by simpa using (opened call List.mem_cons_self).1)]
      exact congrArg _ full
    · rw [buffers]

theorem hi_length : hi.length = 11 := by decide +kernel

/-- The messages of a client never survive all ways to cut its streams, and
those of the server do not unless each is a single byte. Both survive where the
streams take each message whole and each write is read by itself. -/
theorem game_streams_unframed (events : List ClientEvent) (last : Nat) (calls : List ServerCall) :
    (∃ reads, Delivers (Client.run events).sent reads ∧ handed reads ≠ messagesOf events) ∧
    (Whole events → (Client.run events).sendBuffer = [] →
      handed (nonempty (Client.run events).sent) = messagesOf events) ∧
    ((∃ call ∈ calls, call.buffer.length ≠ 1) →
      ∃ reads, Delivers (serverSends last calls) reads ∧
        onmessages reads ≠ calls.map ServerCall.buffer) ∧
    ((∀ call ∈ calls, Open call) →
      onmessages (nonempty (serverSends last calls)) = calls.map ServerCall.buffer) := by
  refine ⟨?_, ?_, ?_, ?_⟩
  · refine ⟨bytewise (Client.run events).sent, delivers_bytewise _, fun same => ?_⟩
    have expected : hi ∈ messagesOf events := by
      refine List.mem_filter.mpr ⟨List.mem_cons_self, ?_⟩
      decide +kernel
    rw [← same, handed_eq] at expected
    obtain ⟨entry, read, whole⟩ := List.mem_map.mp (List.mem_filter.mp expected).1
    have one := length_bytewise read
    rw [whole, hi_length] at one
    cases one
  · intro whole drained
    obtain ⟨done, all, sent⟩ := run_entire {} whole
    have everything : submitted events = done := by
      rw [← List.append_nil done, ← drained]
      exact all
    rw [handed_eq, messagesOf, everything]
    exact congrArg _ sent
  · rintro ⟨call, member, long⟩
    refine ⟨bytewise (serverSends last calls), delivers_bytewise _, fun same => ?_⟩
    have expected : call.buffer ∈ onmessages (bytewise (serverSends last calls)) := by
      rw [same]
      exact List.mem_map_of_mem member
    obtain ⟨entry, read, whole⟩ := List.mem_map.mp expected
    exact long (whole ▸ length_bytewise read)
  · intro opened
    obtain ⟨full, buffers⟩ := serverSends_open opened last
    rw [full]
    exact buffers

def text : String → Qstring := Qstring.literal

/-- A message and a heartbeat. -/
def oneMessage : List ClientEvent :=
  [.sendMessage (text "one"), .sendMessage heartbeat,
    .sendCb [some (4, some 100), some (4, some 100)]]

/-- Two messages of the server while the streams 4 and 5 are writable. -/
def twoCalls : List ServerCall :=
  [text "one", text "two"].map fun buffer => ⟨buffer, [4, 5], some 100, fun _ => none⟩

theorem messages_read_one_by_one :
    handed (nonempty (Client.run oneMessage).sent) = messagesOf oneMessage ∧
      onmessages (nonempty (serverSends 0 twoCalls)) = twoCalls.map ServerCall.buffer ∧
      ∃ reads, Delivers (serverSends 0 twoCalls) reads ∧
        onmessages reads ≠ twoCalls.map ServerCall.buffer := by
  obtain ⟨_, client, server, opened⟩ := game_streams_unframed oneMessage 0 twoCalls
  refine ⟨client ?_ (by decide +kernel), opened ?_, server ?_⟩
  · intro message member
    have all : ∀ message ∈ submitted oneMessage, message ≠ [] ∧ message.length ≤ 100 := by
      decide +kernel
    have short := all message member
    refine ⟨short.1, ?_⟩
    rintro writables called stream accepts offered
    have hundred : accepts = some 100 := by
      simp only [oneMessage, List.mem_cons, ClientEvent.sendCb.injEq, reduceCtorEq,
        List.not_mem_nil, false_or, or_false] at called
      subst called
      simp only [List.mem_cons, Option.some.injEq, Prod.mk.injEq, List.not_mem_nil, or_false,
        or_self] at offered
      exact offered.2
    rw [hundred]
    exact .inr short.2
  · intro call member
    obtain ⟨buffer, known, rfl⟩ := List.mem_map.mp member
    have all : ∀ buffer ∈ [text "one", text "two"], buffer ≠ [] ∧ buffer.length ≤ 100 := by
      decide +kernel
    have short := all buffer known
    refine ⟨short.1, fun last => ?_, 100, rfl, short.2⟩
    by_cases four : last = 4
    · exact ⟨5, by simp, by omega⟩
    · exact ⟨4, by simp, by omega⟩
  · exact ⟨⟨text "one", [4, 5], some 100, fun _ => none⟩, List.mem_cons_self, by decide +kernel⟩

/-- The message and the heartbeat are read together, and the server hands on a
message that the client has not sent. -/
theorem heartbeat_handed_on :
    Delivers (Client.run oneMessage).sent [(4, hi), (4, text "onehb")] ∧
      handed [(4, hi), (4, text "onehb")] = [hi, text "onehb"] ∧
        messagesOf oneMessage = [hi, text "one"] := by
  refine ⟨⟨fun stream => ?_, by decide +kernel⟩, by decide +kernel, by decide +kernel⟩
  have sent : (Client.run oneMessage).sent = [(4, hi), (4, text "one"), (4, heartbeat)] := by
    decide +kernel
  have joined : text "onehb" = text "one" ++ heartbeat := by decide +kernel
  rw [sent, joined]
  simp only [streamBytes_cons]
  split <;> simp

end Gearsdk.Qnetwork
