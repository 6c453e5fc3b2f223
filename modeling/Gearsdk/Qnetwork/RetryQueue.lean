import Gearsdk.Buffer
import Gearsdk.Qstring
import Gearsdk.Transition

/-! The datagrams of a game client that its socket did not take. They wait in a
queue until a timer sends them again. A queued datagram has its own copy of the
address, but its data stays in the output array of the connection, where the
next packet is written. The loops of the callbacks are cut into their rounds. -/
namespace Gearsdk.Qnetwork
open Transition

def maxDatagramSize : Nat := 1350
def sendtoInitialRetryInterval : Rat := 2
def maxSendtoRetryCount : Nat := 4

/-- What one call of `sendto` is given. -/
structure Datagram where
  bytes : Qstring
  destAddr : Qstring
deriving DecidableEq

/-- The pointer to the data is the same in every entry: that of `egress_out`. -/
structure SocketData where
  len : Nat
  destAddr : Qstring

structure Resent where
  /-- The place of the datagram among those whose send failed. -/
  number : Nat
  datagram : Datagram
  sent : Int

inductive RetryPhase where
  | idle
  | flushegress
  | sendtoRetryCb
deriving DecidableEq

inductive RetryEvent where
  | flushegress
  /-- A packet of the connection, and what `sendto` answers for it. -/
  | connSend (packet destAddr : Qstring) (sent : Int)
  /-- There is no packet, or it can not be made; nothing is written then. -/
  | connSendFails
  | sendtoRetryCb
  /-- What `sendto` answers for the datagram at the head of the queue. -/
  | sendto (sent : Int)

structure RetryQueue where
  egressOut : Qstring := List.replicate maxDatagramSize 0
  pendingSocketDataBuffer : List SocketData := []
  sendtoRetryCount : Nat := 0
  timerActive : Bool := false
  timerRepeat : Rat := sendtoInitialRetryInterval
  phase : RetryPhase := .idle
  /-- Every datagram whose send failed. -/
  failed : List Datagram := []
  resent : List Resent := []

namespace RetryQueue

/-- What is sent for a queued entry. -/
def content (s : RetryQueue) (data : SocketData) : Datagram :=
  ⟨Buffer.read s.egressOut 0 data.len, data.destAddr⟩

/-- The number of datagrams that have left the queue. -/
def left (s : RetryQueue) : Nat := s.failed.length - s.pendingSocketDataBuffer.length

def resetSendtoRetryTimer (s : RetryQueue) : RetryQueue :=
  { s with timerActive := false, timerRepeat := sendtoInitialRetryInterval, sendtoRetryCount := 0 }

def socketSendto (s : RetryQueue) (buf destAddr : Qstring) (sent : Int) : RetryQueue :=
  if sent < 0 then
    { s with
      pendingSocketDataBuffer := s.pendingSocketDataBuffer ++ [⟨buf.length, destAddr⟩]
      timerActive := true
      failed := s.failed ++ [⟨buf, destAddr⟩] }
  else s

/-- The loop of `flushegress` goes on while its packets are sent whole. -/
def connSend (s : RetryQueue) (egressOut packet destAddr : Qstring) (sent : Int) : RetryQueue :=
  { ({ s with egressOut := egressOut } : RetryQueue).socketSendto packet destAddr sent with
    phase := if sent = packet.length then .flushegress else .idle }

/-- The queue keeps its entries when the retries are given up. -/
def sendtoRetryCb (s : RetryQueue) : RetryQueue :=
  if s.sendtoRetryCount ≥ maxSendtoRetryCount then s.resetSendtoRetryTimer
  else if s.pendingSocketDataBuffer = [] then s.resetSendtoRetryTimer
  else { s with sendtoRetryCount := s.sendtoRetryCount + 1, phase := .sendtoRetryCb }

/-- One round of the loop of `sendto_retry_cb`. -/
def sendto (s : RetryQueue) (data : SocketData) (rest : List SocketData) (sent : Int) :
    RetryQueue :=
  let s : RetryQueue := { s with resent := s.resent ++ [⟨s.left, s.content data, sent⟩] }
  if sent < 0 then { s with timerRepeat := s.timerRepeat * (5 / 4), timerActive := true, phase := .idle }
  else if rest = [] then { s.resetSendtoRetryTimer with
    pendingSocketDataBuffer := rest, phase := .idle }
  else { s with pendingSocketDataBuffer := rest }

def ready (s : RetryQueue) : RetryEvent → Bool
  | .flushegress => s.phase = .idle
  | .connSend .. | .connSendFails => s.phase = .flushegress
  | .sendtoRetryCb => s.phase = .idle && s.timerActive
  | .sendto _ => s.phase = .sendtoRetryCb

def next (s : RetryQueue) : RetryEvent → Except Unit RetryQueue
  | .flushegress => .ok { s with phase := .flushegress }
  | .connSend packet destAddr sent =>
      match Buffer.write s.egressOut 0 packet with
      | none => .error ()
      | some egressOut => .ok (s.connSend egressOut packet destAddr sent)
  | .connSendFails => .ok { s with phase := .idle }
  | .sendtoRetryCb => .ok s.sendtoRetryCb
  | .sendto sent =>
      match s.pendingSocketDataBuffer with
      | [] => .error ()
      | data :: rest => .ok (s.sendto data rest sent)

abbrev machine : Machine RetryQueue RetryEvent Unit where
  init := {}
  enabled s e := s.ready e = true
  next := next

/-- What is sent again is what was to be sent at first, in the order of the
failures and until it has been sent once, and the rest waits unchanged. -/
structure Faithful (s : RetryQueue) : Prop where
  waiting : s.pendingSocketDataBuffer.map s.content = s.failed.drop s.left
  same : ∀ resent ∈ s.resent, s.failed[resent.number]? = some resent.datagram
  order : (s.resent.map (·.number)).Pairwise (· ≤ ·)
  once : (s.resent.filter fun resent => 0 ≤ resent.sent).map (·.number) = List.range s.left

/-- A packet that is written while datagrams wait repeats what they are read from. -/
def Spares (s : RetryQueue) : RetryEvent → Prop
  | .connSend packet _ _ => ∀ data ∈ s.pendingSocketDataBuffer, packet.take data.len <+: s.egressOut
  | _ => True

/-- What holds whatever is written: the queue is worked off from its head. -/
structure Counted (s : RetryQueue) : Prop where
  bound : s.pendingSocketDataBuffer.length ≤ s.failed.length
  reached : ∀ resent ∈ s.resent, resent.number ≤ s.left
  order : (s.resent.map (·.number)).Pairwise (· ≤ ·)
  once : (s.resent.filter fun resent => 0 ≤ resent.sent).map (·.number) = List.range s.left

/-- What a step leaves to the datagrams that are known. -/
inductive Effect (s : RetryQueue) : RetryEvent → RetryQueue → Prop where
  | quiet (sameBuffer : t.egressOut = s.egressOut)
      (samePending : t.pendingSocketDataBuffer = s.pendingSocketDataBuffer)
      (sameFailed : t.failed = s.failed) (sameResent : t.resent =
        s.resent) (silent : Spares s e) : Effect s e t
  | sent (wrote : Buffer.write s.egressOut 0 packet = some t.egressOut)
      (samePending : t.pendingSocketDataBuffer =
        s.pendingSocketDataBuffer) (sameFailed : t.failed = s.failed)
      (sameResent : t.resent = s.resent) : Effect s (.connSend packet destAddr sent) t
  | fails (wrote : Buffer.write s.egressOut 0 packet = some t.egressOut)
      (queued : t.pendingSocketDataBuffer = s.pendingSocketDataBuffer ++ [⟨packet.length, destAddr⟩])
      (known : t.failed = s.failed ++ [⟨packet, destAddr⟩]) (sameResent : t.resent = s.resent) :
      Effect s (.connSend packet destAddr sent) t
  | resent (head : s.pendingSocketDataBuffer = data :: rest)
      (sameBuffer : t.egressOut = s.egressOut)
      (queue : t.pendingSocketDataBuffer = if sent < 0 then data :: rest
        else rest) (sameFailed : t.failed = s.failed)
      (noted : t.resent = s.resent ++ [⟨s.left, s.content data, sent⟩]) : Effect s (.sendto sent) t

theorem effect_connSend {s : RetryQueue} {written : Qstring}
    (wrote : Buffer.write s.egressOut 0 packet = some written) :
    Effect s (.connSend packet destAddr sent) (s.connSend written packet destAddr sent) := by
  simp only [connSend, socketSendto]
  split
  · exact .fails wrote rfl rfl rfl
  · exact .sent wrote rfl rfl rfl

theorem effect_sendto {s : RetryQueue} (head : s.pendingSocketDataBuffer = data :: rest) :
    Effect s (.sendto sent) (s.sendto data rest sent) := by
  simp only [sendto]
  split
  · rename_i fails
    exact .resent head rfl (head.trans (if_pos fails).symm) rfl rfl
  · rename_i taken
    split
    · exact .resent head rfl (if_neg taken).symm rfl rfl
    · exact .resent head rfl (if_neg taken).symm rfl rfl

theorem effect_of_step {s t : RetryQueue} (step : machine.Step s e t) : Effect s e t := by
  obtain ⟨_, stepped⟩ := step
  cases e with
  | flushegress | connSendFails =>
    cases Except.ok.inj stepped
    exact .quiet rfl rfl rfl rfl trivial
  | connSend packet destAddr sent =>
    simp only [next] at stepped
    split at stepped
    · contradiction
    · rename_i wrote
      cases Except.ok.inj stepped
      exact effect_connSend wrote
  | sendtoRetryCb =>
    cases Except.ok.inj stepped
    simp only [sendtoRetryCb]
    split
    · exact .quiet rfl rfl rfl rfl trivial
    · split
      · exact .quiet rfl rfl rfl rfl trivial
      · exact .quiet rfl rfl rfl rfl trivial
  | sendto sent =>
    simp only [next] at stepped
    split at stepped
    · contradiction
    · rename_i head
      cases Except.ok.inj stepped
      exact effect_sendto head

/-! ### The queue -/

theorem left_of_same {s t : RetryQueue}
    (samePending : t.pendingSocketDataBuffer = s.pendingSocketDataBuffer)
    (sameFailed : t.failed = s.failed) : t.left = s.left := by
  rw [left, left, samePending, sameFailed]

theorem left_of_failure {s t : RetryQueue}
    (queued : t.pendingSocketDataBuffer = s.pendingSocketDataBuffer ++ [data])
    (known : t.failed = s.failed ++ [last]) : t.left = s.left := by
  rw [left, left, queued, known, List.length_append, List.length_append, List.length_singleton,
    List.length_singleton]
  omega

/-- A datagram leaves the queue when it has been sent. -/
theorem left_of_resent {s t : RetryQueue} {sent : Int}
    (bound : s.pendingSocketDataBuffer.length ≤ s.failed.length)
    (head : s.pendingSocketDataBuffer = data :: rest) (sameFailed : t.failed = s.failed)
    (queue : t.pendingSocketDataBuffer = if sent < 0 then data :: rest else rest) :
    t.left = if sent < 0 then s.left else s.left + 1 := by
  rw [head, List.length_cons] at bound
  rw [left, left, queue, sameFailed, head]
  split
  · rfl
  · rw [List.length_cons]
    omega

theorem counted_of_same {s t : RetryQueue} (counted : Counted s)
    (bound : t.pendingSocketDataBuffer.length ≤ t.failed.length) (sameLeft : t.left = s.left)
    (sameResent : t.resent = s.resent) : Counted t := by
  refine ⟨bound, ?_, ?_, ?_⟩
  · rw [sameResent, sameLeft]
    exact counted.reached
  · rw [sameResent]
    exact counted.order
  · rw [sameResent, sameLeft]
    exact counted.once

theorem counted_of_resent {s t : RetryQueue} {sent : Int} (counted : Counted s)
    (head : s.pendingSocketDataBuffer = data :: rest)
    (queue : t.pendingSocketDataBuffer = if sent < 0 then data :: rest else rest)
    (sameFailed : t.failed = s.failed)
    (noted : t.resent = s.resent ++ [⟨s.left, s.content data, sent⟩]) : Counted t := by
  have gone := left_of_resent counted.bound head sameFailed queue
  have further : s.left ≤ t.left := by
    rw [gone]
    split <;> omega
  refine ⟨?_, ?_, ?_, ?_⟩
  · have bound := counted.bound
    rw [head, List.length_cons] at bound
    rw [queue, sameFailed]
    split
    · exact bound
    · exact Nat.le_of_succ_le bound
  · rw [noted]
    intro resent member
    rcases List.mem_append.mp member with before | here
    · exact Nat.le_trans (counted.reached resent before) further
    · cases List.mem_singleton.mp here
      exact further
  · rw [noted, List.map_append, List.pairwise_append]
    refine ⟨counted.order, List.pairwise_singleton _ _, ?_⟩
    intro number before last here
    obtain ⟨resent, member, rfl⟩ := List.mem_map.mp before
    cases List.mem_singleton.mp here
    exact counted.reached resent member
  · rw [noted, List.filter_append, List.map_append, counted.once, gone]
    by_cases fails : sent < 0
    · rw [if_pos fails, List.filter_cons_of_neg (by simpa using fails)]
      exact List.append_nil _
    · rw [if_neg fails, List.range_succ, List.filter_cons_of_pos (by simpa using fails)]
      rfl

theorem counted_of_effect {s t : RetryQueue} (counted : Counted s) (effect : Effect s e t) :
    Counted t := by
  cases effect with
  | quiet _ samePending sameFailed sameResent | sent _ samePending sameFailed sameResent =>
    refine counted_of_same counted ?_ (left_of_same samePending sameFailed) sameResent
    rw [samePending, sameFailed]
    exact counted.bound
  | fails _ queued known sameResent =>
    refine counted_of_same counted ?_ (left_of_failure queued known) sameResent
    rw [queued, known, List.length_append, List.length_append]
    exact Nat.succ_le_succ counted.bound
  | resent head _ queue sameFailed noted =>
    exact counted_of_resent counted head queue sameFailed noted

theorem counted_of_run (run : machine.Run es s) : Counted s := by
  refine run.invariant (P := Counted) (fun counted step =>
    counted_of_effect counted (effect_of_step step)) ?_
  exact ⟨Nat.le_refl _, fun _ member => absurd member List.not_mem_nil, List.Pairwise.nil, rfl⟩

/-! ### The data of what waits -/

theorem content_congr {s t : RetryQueue} (sameBuffer : t.egressOut = s.egressOut) :
    t.content = s.content := by
  funext data
  rw [content, content, sameBuffer]

/-- The waiting datagrams stay the same exactly when the packet spares them. -/
theorem map_content_iff {s t : RetryQueue}
    (wrote : Buffer.write s.egressOut 0 packet = some t.egressOut) :
    s.pendingSocketDataBuffer.map t.content = s.pendingSocketDataBuffer.map s.content ↔
      Spares s (.connSend packet destAddr sent) := by
  rw [List.map_inj_left]
  refine forall₂_congr fun data _ => ?_
  rw [content, content, Datagram.mk.injEq, and_iff_left rfl]
  exact Buffer.read_write_start_iff wrote data.len

theorem content_written {s t : RetryQueue}
    (wrote : Buffer.write s.egressOut 0 packet = some t.egressOut) :
    t.content ⟨packet.length, destAddr⟩ = ⟨packet, destAddr⟩ :=
  congrArg (Datagram.mk · destAddr) (Buffer.read_write wrote)

theorem faithful_step_iff {s t : RetryQueue} (counted : Counted s) (faithful : Faithful s)
    (effect : Effect s e t) :
    Faithful t ↔ Spares s e := by
  have after := counted_of_effect counted effect
  cases effect with
  | quiet sameBuffer samePending sameFailed sameResent silent =>
    refine iff_of_true ⟨?_, ?_, after.order, after.once⟩ silent
    · rw [samePending, content_congr sameBuffer, sameFailed, left_of_same samePending sameFailed]
      exact faithful.waiting
    · rw [sameResent, sameFailed]
      exact faithful.same
  | sent wrote samePending sameFailed sameResent =>
    refine Iff.trans ?_ (map_content_iff wrote)
    have sameLeft := left_of_same samePending sameFailed
    constructor
    · intro again
      have waiting := again.waiting
      rw [samePending, sameFailed, sameLeft] at waiting
      exact waiting.trans faithful.waiting.symm
    · intro spared
      refine ⟨?_, ?_, after.order, after.once⟩
      · rw [samePending, sameFailed, sameLeft, spared]
        exact faithful.waiting
      · rw [sameResent, sameFailed]
        exact faithful.same
  | @fails packet destAddr sent t wrote queued known sameResent =>
    refine Iff.trans ?_ (map_content_iff wrote)
    have sameLeft := left_of_failure queued known
    have known_drop : t.failed.drop t.left = s.failed.drop s.left ++ [⟨packet, destAddr⟩] := by
      rw [sameLeft, known]
      exact List.drop_append_of_le_length (Nat.sub_le _ _)
    have queued_map : t.pendingSocketDataBuffer.map t.content =
        s.pendingSocketDataBuffer.map t.content ++ [⟨packet, destAddr⟩] := by
      rw [queued, List.map_append, List.map_singleton, content_written wrote]
    constructor
    · intro again
      have waiting := again.waiting
      rw [known_drop, queued_map, List.append_cancel_right_eq] at waiting
      exact waiting.trans faithful.waiting.symm
    · intro spared
      refine ⟨?_, ?_, after.order, after.once⟩
      · rw [known_drop, queued_map, spared, faithful.waiting]
      · rw [sameResent, known]
        intro resent member
        have kept := faithful.same resent member
        rwa [List.getElem?_append_left (List.getElem?_eq_some_iff.mp kept).1]
  | @resent data rest sent t head sameBuffer queue sameFailed noted =>
    have waiting := faithful.waiting
    rw [head, List.map_cons] at waiting
    refine iff_of_true ⟨?_, ?_, after.order, after.once⟩ trivial
    · rw [content_congr sameBuffer, sameFailed, queue,
        left_of_resent counted.bound head sameFailed queue]
      split
      · rw [List.map_cons, waiting]
      · rw [← List.tail_drop, ← waiting, List.tail_cons]
    · rw [noted, sameFailed]
      intro resent member
      rcases List.mem_append.mp member with before | here
      · exact faithful.same resent before
      · cases List.mem_singleton.mp here
        rw [← List.head?_drop, ← waiting, List.head?_cons]

/-! ### Runs -/

/-- In a run every datagram that is sent again is the one whose send failed, in the
order of the failures and until it has been sent once, exactly when no packet is
written over the data of a datagram that waits. -/
theorem faithful_iff (run : machine.Run es s) :
    machine.Always Faithful es ↔ machine.Meets Spares es := by
  refine Machine.always_iff_meets ?_ ?_ run
  · exact ⟨rfl, fun _ member => absurd member List.not_mem_nil, List.Pairwise.nil, rfl⟩
  · intro es s e t before faithful step
    exact faithful_step_iff (counted_of_run before) faithful (effect_of_step step)

def sparesTest (s : RetryQueue) : RetryEvent → Bool
  | .connSend packet _ _ =>
    s.pendingSocketDataBuffer.all fun data => (packet.take data.len).isPrefixOf s.egressOut
  | _ => true

theorem spares_of_test (s : RetryQueue) (e : RetryEvent) (passed : sparesTest s e = true) :
    Spares s e := by
  cases e with
  | connSend packet destAddr sent =>
    intro data member
    exact List.isPrefixOf_iff_prefix.mp (List.all_eq_true.mp passed data member)
  | flushegress | connSendFails | sendtoRetryCb | sendto => trivial

/-- A datagram is sent at the second attempt, and the next packet after it. -/
def retriedRun : List RetryEvent :=
  [.flushegress, .connSend [1, 2, 3] [127] (-1), .sendtoRetryCb, .sendto (-1), .sendtoRetryCb,
    .sendto 3, .flushegress, .connSend [4, 5] [127] 2, .connSendFails]

theorem faithful_retried :
    ∃ s, machine.Run retriedRun s ∧
      s.resent.map (fun resent => (resent.datagram, resent.sent)) =
        [(⟨[1, 2, 3], [127]⟩, -1), (⟨[1, 2, 3], [127]⟩, 3)] ∧
      machine.Always Faithful retriedRun := by
  have shown : (machine.exec {} retriedRun).map (fun s => s.resent.map fun resent =>
    (resent.datagram, resent.sent)) =
      some [(⟨[1, 2, 3], [127]⟩, -1), (⟨[1, 2, 3], [127]⟩, 3)] := by decide +kernel
  have passed : machine.checks sparesTest {} retriedRun = true := by decide +kernel
  have spares : machine.Meets Spares retriedRun := fun _ _ _ inside path =>
    Machine.meets_of_checks spares_of_test passed inside path
  obtain ⟨s, run, resent⟩ := Machine.exec_observe shown
  exact ⟨s, run, resent, (faithful_iff run).mpr spares⟩

/-- A packet is written between the failure and the retry. -/
def overwrittenRun : List RetryEvent :=
  [.flushegress, .connSend [1, 2, 3] [127] (-1), .flushegress, .connSend [4, 5] [127] 2,
    .connSendFails, .sendtoRetryCb, .sendto 3]

/-- The datagram that is sent again begins with the bytes of a later one. -/
theorem overwritten_datagram :
    ∃ s, machine.Run overwrittenRun s ∧ s.failed = [⟨[1, 2, 3], [127]⟩] ∧
      s.resent.map (·.datagram) = [⟨[4, 5, 3], [127]⟩] ∧ ¬ Faithful s := by
  have shown : (machine.exec {} overwrittenRun).map (fun s => (s.failed, s.resent.map (·.datagram))) =
      some ([⟨[1, 2, 3], [127]⟩], [⟨[4, 5, 3], [127]⟩]) := by decide +kernel
  obtain ⟨s, run, same⟩ := Machine.exec_observe shown
  obtain ⟨failed, resent⟩ := Prod.mk.inj same
  refine ⟨s, run, failed, resent, fun faithful => ?_⟩
  obtain ⟨entry, only, datagram⟩ := List.map_eq_singleton_iff.mp resent
  have member : entry ∈ s.resent := by
    rw [only]
    exact List.mem_singleton_self entry
  have original := List.mem_of_getElem? (faithful.same entry member)
  rw [failed, datagram, List.mem_singleton] at original
  exact absurd original (by decide)

end RetryQueue
end Gearsdk.Qnetwork
