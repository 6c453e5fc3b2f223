import Gearsdk.Qstring

/-! The byte streams between a game client and its server. A message is written
to a stream without a mark of its end, and what one read of a stream yields is
taken for a message. -/
namespace Gearsdk.Qnetwork

/-- Bytes of one stream: accepted by one write, or yielded by one read. -/
abbrev StreamData := Nat × Qstring

/-- The first message of a client, with the terminator of its literal. -/
def hi : Qstring := Qstring.literal "\x7b\"m\":\"hi\"\x7d" ++ [0]

def heartbeat : Qstring := Qstring.literal "hb"

def bufferSize : Nat := 65535

/-- A stream takes a beginning of what it is offered, or answers an error. -/
def streamSend (stream : Nat) (accepts : Option Nat) (buf : Qstring) : Int × List StreamData :=
  match accepts with
  | none => (-1, [])
  | some n => ((buf.take n).length, [(stream, buf.take n)])

/-- The first writable stream of a client, if there is one, and what it takes. -/
abbrev Writable := Option (Nat × Option Nat)

/-- Only a message that is taken whole counts as sent. -/
def sendMessage (writable : Writable) (buf : Qstring) : Int × List StreamData :=
  match writable with
  | none => (-5, [])
  | some (stream, accepts) =>
      let (sentLen, sent) := streamSend stream accepts buf
      if sentLen = buf.length then (sentLen, sent) else (-5, sent)

/-- One run of the send timer: messages leave the queue until one is not sent. -/
def sendCb : List Qstring → List Writable → List Qstring × List StreamData
  | [], _ => ([], [])
  | queue, [] => (queue, [])
  | message :: queue, writable :: later =>
      let (result, sent) := sendMessage writable message
      if result = message.length then
        let (left, more) := sendCb queue later
        (left, sent ++ more)
      else (message :: queue, sent)

structure Client where
  sendBuffer : List Qstring := []
  sent : List StreamData := [(4, hi)]

inductive ClientEvent where
  | sendMessage (buffer : Qstring)
  | sendCb (writables : List Writable)

def Client.step (client : Client) : ClientEvent → Client
  | .sendMessage buffer => { client with sendBuffer := client.sendBuffer ++ [buffer] }
  | .sendCb writables =>
      let (sendBuffer, sent) := sendCb client.sendBuffer writables
      ⟨sendBuffer, client.sent ++ sent⟩

def Client.run (events : List ClientEvent) : Client := events.foldl Client.step {}

def maxSendStreamToTry : Nat := 200

def nextStream (s : Nat) : Nat := (s + 1) + s % 2

/-- The second loop of `sendmessage`: a higher stream each time. -/
def tryStreams (accepts : Nat → Option Nat) (buf : Qstring) :
    Nat → Nat → Option Nat × List StreamData
  | 0, _ => (none, [])
  | fuel + 1, s =>
      if s < maxSendStreamToTry then
        let (sentLen, sent) := streamSend (nextStream s) (accepts (nextStream s)) buf
        if sentLen = buf.length then (some (nextStream s), sent)
        else
          let (found, more) := tryStreams accepts buf fuel (nextStream s)
          (found, sent ++ more)
      else (none, [])

/-- A message of the server, the writable streams, what the one that is tried
first takes, and what those that are tried afterwards take. -/
structure ServerCall where
  buffer : Qstring
  writable : List Nat
  first : Option Nat
  accepts : Nat → Option Nat

/-- A message does not go to the stream of the message before unless no other
stream takes it. -/
def sendmessage (lastStream : Nat) (call : ServerCall) : Nat × List StreamData :=
  let tried := match call.writable.find? (· ≠ lastStream) with
    | none => (none, [])
    | some s =>
        let (sentLen, sent) := streamSend s call.first call.buffer
        (if sentLen = call.buffer.length then some s else none, sent)
  match tried with
  | (some s, sent) => (s, sent)
  | (none, sent) =>
      let (found, more) := tryStreams call.accepts call.buffer maxSendStreamToTry lastStream
      (found.getD lastStream, sent ++ more)

/-- What the server writes for a sequence of messages. -/
def serverSends (lastStream : Nat) : List ServerCall → List StreamData
  | [] => []
  | call :: calls =>
      let (lastStream, sent) := sendmessage lastStream call
      sent ++ serverSends lastStream calls

/-- What the server hands on of what it reads. -/
def handed (reads : List StreamData) : List Qstring :=
  (reads.map Prod.snd).filter fun chunk =>
    !(chunk.length = 2 && chunk[0]? = some 104 && chunk[1]? = some 98)

/-- The client hands on everything. -/
def onmessages (reads : List StreamData) : List Qstring := reads.map Prod.snd

def streamBytes (stream : Nat) (data : List StreamData) : Qstring :=
  data.flatMap fun entry => if entry.1 = stream then entry.2 else []

/-- The reads yield the bytes of every stream in order, cut in some way. -/
structure Delivers (sent reads : List StreamData) : Prop where
  bytes : ∀ stream, streamBytes stream reads = streamBytes stream sent
  cut : ∀ entry ∈ reads, entry.2 ≠ [] ∧ entry.2.length ≤ bufferSize

theorem streamBytes_append (stream : Nat) (data more : List StreamData) :
    streamBytes stream (data ++ more) = streamBytes stream data ++ streamBytes stream more :=
  List.flatMap_append

theorem heartbeat_iff (chunk : Qstring) :
    (chunk.length = 2 && chunk[0]? = some 104 && chunk[1]? = some 98) = true ↔
      chunk = heartbeat := by
  have text : heartbeat = [104, 98] := by decide +kernel
  rw [text]
  match chunk with
  | [] | [_] | _ :: _ :: _ :: _ => simp
  | [a, b] => simp

theorem handed_eq (reads : List StreamData) :
    handed reads = (reads.map Prod.snd).filter (· ≠ heartbeat) := by
  refine List.filter_congr fun chunk _ => ?_
  rw [Bool.eq_iff_iff, Bool.not_eq_true', decide_eq_true_eq, ← Bool.not_eq_true, heartbeat_iff]

end Gearsdk.Qnetwork
