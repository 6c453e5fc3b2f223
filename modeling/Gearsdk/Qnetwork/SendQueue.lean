import Gearsdk.Qnetwork
import Gearsdk.Transition
import Mathlib.Data.List.Nodup

/-! The send queue of a client while its streams take messages in part. A message
that is not taken whole stays at the head of the queue, and the next attempt
offers it from its first byte. The bytes that are taken are named by the number
of their message and their place in it. -/
namespace Gearsdk.Qnetwork
open Transition

/-- How much of a message is taken. -/
def taken : Writable → Qstring → Nat
  | some (_, some n), message => min n message.length
  | some (_, none), _ | none, _ => 0

/-- The attempts of one run of the send timer: the number of the message, and how
much of it is taken. -/
def attempts (first : Nat) : List Qstring → List Writable → List (Nat × Nat)
  | [], _ => []
  | _, [] => []
  | message :: queue, writable :: later =>
      (first, taken writable message) ::
        if (sendMessage writable message).1 = message.length then attempts (first + 1) queue later
          else []

structure SendQueue where
  client : Client := {}
  /-- Every message that has been queued. -/
  messages : List Qstring := []
  attempted : List (Nat × Nat) := []

namespace SendQueue

/-- The number of messages that have left the queue. -/
def done (s : SendQueue) : Nat := s.messages.length - s.client.sendBuffer.length

/-- The message at the head of the queue. -/
def current (s : SendQueue) : Qstring := (s.client.sendBuffer.head?).getD []

def next (s : SendQueue) (e : ClientEvent) : SendQueue :=
  match e with
  | .sendMessage buffer => { s with client := s.client.step e, messages := s.messages ++ [buffer] }
  | .sendCb writables =>
      { s with
        client := s.client.step e
        attempted := s.attempted ++ attempts s.done s.client.sendBuffer writables }

abbrev machine : Machine SendQueue ClientEvent Empty where
  init := {}
  enabled _ _ := True
  next s e := .ok (s.next e)

/-- The first bytes of one message. -/
def start (message count : Nat) : List (Nat × Nat) :=
  (List.range count).map fun place => (message, place)

/-- All bytes of messages that are numbered from `first`. -/
def entire (first : Nat) : List Qstring → List (Nat × Nat)
  | [] => []
  | message :: rest => start first message.length ++ entire (first + 1) rest

/-- The bytes in the order in which they have been taken. -/
def places (attempted : List (Nat × Nat)) : List (Nat × Nat) :=
  attempted.flatMap fun attempt => start attempt.1 attempt.2

def written (sent : List StreamData) : Qstring := sent.flatMap Prod.snd

/-- The completed messages have been taken one after the other, then a beginning
of the one at the head of the queue. -/
structure InOrder (s : SendQueue) : Prop where
  places : ∃ count ≤ s.current.length,
    places s.attempted = entire 0 (s.messages.take s.done) ++ start s.done count ∧
      written s.client.sent = hi ++ (s.messages.take s.done).flatten ++ s.current.take count

/-- How much of the message at the head of the queue has been taken. -/
def progress (s : SendQueue) : Nat := (places s.attempted).countP fun place => place.1 = s.done

/-- A message of which a part has been taken is not taken again. -/
def Stalls (s : SendQueue) : ClientEvent → Prop
  | .sendMessage _ => True
  | .sendCb writables => s.progress = 0 ∨ ∀ writable ∈ writables.head?, taken writable s.current = 0

/-! ### One run of the send timer -/

theorem length_start (message count : Nat) : (start message count).length = count := by
  rw [start, List.length_map, List.length_range]

theorem written_append (sent more : List StreamData) :
    written (sent ++ more) = written sent ++ written more :=
  List.flatMap_append

theorem places_append (attempted more : List (Nat × Nat)) :
    places (attempted ++ more) = places attempted ++ places more :=
  List.flatMap_append

/-- What one attempt writes. -/
theorem sendMessage_spec (writable : Writable) (message : Qstring) :
    written (sendMessage writable message).2 = message.take (taken writable message) ∧
      ((sendMessage writable message).1 = message.length → taken writable message = message.length) := by
  match writable with
  | none => exact ⟨rfl, fun same => absurd same (by simp only [sendMessage]; omega)⟩
  | some (stream, none) =>
    have fails : sendMessage (some (stream, none)) message = (-5, []) := by
      simp only [sendMessage, streamSend]
      exact if_neg (by omega)
    rw [fails]
    exact ⟨rfl, fun same => absurd same (by simp only; omega)⟩
  | some (stream, some n) =>
    have counted : (message.take n).length = min n message.length := List.length_take
    have bytes : written [(stream, message.take n)] = message.take (min n message.length) := by
      rw [written, List.flatMap_cons, List.flatMap_nil, List.append_nil, List.take_eq_take_iff]
      omega
    have outcome : sendMessage (some (stream, some n)) message =
        if ((message.take n).length : Int) = message.length then
          (((message.take n).length : Int), [(stream, message.take n)])
          else (-5, [(stream, message.take n)]) := rfl
    rw [outcome, taken]
    by_cases whole : ((message.take n).length : Int) = message.length
    · rw [if_pos whole]
      exact ⟨bytes, fun _ => by omega⟩
    · rw [if_neg whole]
      exact ⟨bytes, fun same => absurd same (by simp only; omega)⟩

theorem entire_append (first : Nat) (messages more : List Qstring) :
    entire first (messages ++ more) = entire first messages ++
      entire (first + messages.length) more := by
  induction messages generalizing first with
  | nil => rfl
  | cons message rest ih =>
    rw [List.cons_append, entire, ih, entire, List.append_assoc, List.length_cons, Nat.add_assoc,
      Nat.add_comm 1]

/-- A run of the timer completes some messages and takes a beginning of the next. -/
theorem sendCb_spec (queue : List Qstring) (writables : List Writable) (first : Nat) :
    ∃ completed count, completed ≤ queue.length ∧
      (sendCb queue writables).1 = queue.drop completed ∧
      count ≤ (((sendCb queue writables).1.head?).getD []).length ∧
      places (attempts first queue writables) = entire first (queue.take completed) ++
        start (first + completed) count ∧
      written (sendCb queue writables).2 =
        (queue.take completed).flatten ++ (((sendCb queue writables).1.head?).getD []).take count := by
  induction writables generalizing queue first with
  | nil =>
    cases queue with
    | nil => exact ⟨0, 0, Nat.le_refl _, rfl, Nat.zero_le _, rfl, rfl⟩
    | cons message queue => exact ⟨0, 0, Nat.zero_le _, rfl, Nat.zero_le _, rfl, rfl⟩
  | cons writable later ih =>
    cases queue with
    | nil => exact ⟨0, 0, Nat.le_refl _, rfl, Nat.zero_le _, rfl, rfl⟩
    | cons message queue =>
      obtain ⟨bytes, all⟩ := sendMessage_spec writable message
      simp only [sendCb, attempts]
      by_cases whole : (sendMessage writable message).1 = message.length
      · obtain ⟨completed, count, bound, left, fits, order, sent⟩ := ih queue (first + 1)
        rw [all whole] at bytes
        rw [if_pos whole, if_pos whole]
        refine ⟨completed + 1, count, Nat.succ_le_succ bound, left, fits, ?_, ?_⟩
        · rw [places, List.flatMap_cons]
          refine (congrArg (start first (taken writable message) ++ ·) order).trans ?_
          rw [all whole, List.take_succ_cons, entire, List.append_assoc, Nat.add_assoc,
            Nat.add_comm 1]
        · rw [written_append, bytes, sent, List.take_length, List.take_succ_cons, List.flatten_cons,
            List.append_assoc]
      · have within : taken writable message ≤ message.length := by
          match writable with
          | none | some (_, none) => exact Nat.zero_le _
          | some (_, some n) => exact Nat.min_le_right _ _
        rw [if_neg whole, if_neg whole]
        refine ⟨0, taken writable message, Nat.zero_le _, rfl, within, ?_, ?_⟩
        · exact List.append_nil _
        · exact bytes

/-! ### The order of the bytes -/

theorem mem_start : place ∈ start message count ↔ place.1 = message ∧ place.2 < count := by
  rw [start, List.mem_map]
  constructor
  · rintro ⟨offset, inside, rfl⟩
    exact ⟨rfl, List.mem_range.mp inside⟩
  · rintro ⟨rfl, inside⟩
    exact ⟨place.2, List.mem_range.mpr inside, rfl⟩

theorem nodup_start (message count : Nat) : (start message count).Nodup :=
  List.nodup_range.map fun _ _ same => (Prod.mk.inj same).2

theorem mem_entire {messages : List Qstring} (member : place ∈ entire first messages) :
    first ≤ place.1 ∧ place.1 < first + messages.length := by
  induction messages generalizing first with
  | nil => contradiction
  | cons message rest ih =>
    rw [List.length_cons]
    rcases List.mem_append.mp member with here | later
    · have same := (mem_start.mp here).1
      omega
    · have bounds := ih later
      omega

theorem nodup_entire (first : Nat) (messages : List Qstring) : (entire first messages).Nodup := by
  induction messages generalizing first with
  | nil => exact List.nodup_nil
  | cons message rest ih =>
    refine (nodup_start _ _).append (ih _) fun place here later => ?_
    have same := (mem_start.mp here).1
    have bounds := mem_entire later
    omega

theorem InOrder.nodup {s : SendQueue} (ordered : InOrder s) :
    (SendQueue.places s.attempted).Nodup := by
  obtain ⟨count, _, order, _⟩ := ordered
  rw [order]
  refine (nodup_entire _ _).append (nodup_start _ _) fun place before here => ?_
  have same := (mem_start.mp here).1
  have bounds := mem_entire before
  rw [List.length_take] at bounds
  omega

/-- The progress is how far the message at the head has got. -/
theorem progress_eq {s : SendQueue}
    (order : places s.attempted = entire 0 (s.messages.take s.done) ++ start s.done count) :
    s.progress = count := by
  have others : (entire 0 (s.messages.take s.done)).countP (fun place => place.1 = s.done) = 0 := by
    rw [List.countP_eq_zero]
    intro place member
    have bounds := mem_entire member
    rw [List.length_take] at bounds
    simp only [decide_eq_true_eq]
    omega
  have here : (start s.done count).countP (fun place => place.1 = s.done) = count := by
    refine Eq.trans (List.countP_eq_length.mpr fun place member => ?_) (length_start _ _)
    exact decide_eq_true (mem_start.mp member).1
  rw [progress, order, List.countP_append, others, here, Nat.zero_add]

/-! ### Runs -/

/-- The queue holds the messages that have not been completed. -/
def Queued (s : SendQueue) : Prop :=
  s.done ≤ s.messages.length ∧ s.client.sendBuffer = s.messages.drop s.done

theorem queued_of {s : SendQueue} (bound : gone ≤ s.messages.length)
    (left : s.client.sendBuffer = s.messages.drop gone) : s.done = gone ∧ Queued s := by
  have same : s.done = gone := by
    rw [SendQueue.done, left, List.length_drop]
    omega
  refine ⟨same, ?_, ?_⟩
  · rwa [same]
  · rwa [same]

theorem queued_sendMessage {s : SendQueue} (queued : Queued s) (buffer : Qstring) :
    (s.next (.sendMessage buffer)).done = s.done ∧ Queued (s.next (.sendMessage buffer)) := by
  refine queued_of ?_ ?_
  · refine Nat.le_trans queued.1 ?_
    simp [next]
  · change s.client.sendBuffer ++ [buffer] = (s.messages ++ [buffer]).drop s.done
    rw [List.drop_append_of_le_length queued.1, queued.2]

theorem queued_sendCb {s : SendQueue} (queued : Queued s)
    (bound : completed ≤ s.client.sendBuffer.length)
    (left : (sendCb s.client.sendBuffer writables).1 = s.client.sendBuffer.drop completed) :
    (s.next (.sendCb writables)).done = s.done + completed ∧
      Queued (s.next (.sendCb writables)) := by
  obtain ⟨within, buffer⟩ := queued
  have room : completed ≤ s.messages.length - s.done := by
    rw [buffer, List.length_drop] at bound
    exact bound
  refine queued_of ?_ ?_
  · change s.done + completed ≤ s.messages.length
    omega
  · change (sendCb s.client.sendBuffer writables).1 = s.messages.drop (s.done + completed)
    rw [left, buffer, List.drop_drop]

theorem queued_of_run (run : machine.Run es s) : Queued s := by
  refine run.invariant (P := Queued) ?_ ⟨Nat.le_refl _, rfl⟩
  intro s e t queued step
  cases Except.ok.inj step.2
  cases e with
  | sendMessage buffer => exact (queued_sendMessage queued buffer).2
  | sendCb writables =>
    obtain ⟨completed, _, bound, left, _⟩ := sendCb_spec s.client.sendBuffer writables 0
    exact (queued_sendCb queued bound left).2

/-- Queueing a message changes nothing that has been taken. -/
theorem inOrder_sendMessage {s : SendQueue} (queued : Queued s) (ordered : InOrder s)
    (buffer : Qstring) :
    InOrder (s.next (.sendMessage buffer)) := by
  obtain ⟨count, within, order, bytes⟩ := ordered
  have same := (queued_sendMessage queued buffer).1
  have completed : (s.messages ++ [buffer]).take s.done = s.messages.take s.done :=
    List.take_append_of_le_length queued.1
  have begun : (s.next (.sendMessage buffer)).current.take count = s.current.take count ∧
      count ≤ (s.next (.sendMessage buffer)).current.length := by
    simp only [current, next, Client.step] at within ⊢
    cases queue : s.client.sendBuffer with
    | nil =>
      have none_taken : count = 0 := by simpa [queue] using within
      simp [none_taken]
    | cons message rest => simpa [queue] using within
  refine ⟨count, begun.2, ?_, ?_⟩
  · rw [same]
    change places s.attempted = entire 0 ((s.messages ++ [buffer]).take s.done) ++ _
    rw [completed, order]
  · rw [same, begun.1]
    change written s.client.sent = hi ++ ((s.messages ++ [buffer]).take s.done).flatten ++ _
    rw [completed, bytes]

/-- A run of the timer that starts with a new message keeps the order. -/
theorem inOrder_sendCb_fresh {s : SendQueue} (queued : Queued s)
    (order : places s.attempted = entire 0 (s.messages.take s.done))
    (bytes : written s.client.sent = hi ++ (s.messages.take s.done).flatten)
    (writables : List Writable) :
    InOrder (s.next (.sendCb writables)) := by
  obtain ⟨completed, count, bound, left, within, taken, sent⟩ :=
    sendCb_spec s.client.sendBuffer writables s.done
  have counted := (queued_sendCb queued bound left).1
  have split : s.messages.take (s.done + completed) =
      s.messages.take s.done ++ s.client.sendBuffer.take completed := by
    rw [List.take_add, queued.2]
  have size : (s.messages.take s.done).length = s.done := List.length_take_of_le queued.1
  refine ⟨count, within, ?_, ?_⟩
  · rw [counted]
    change places (s.attempted ++ _) = entire 0 (s.messages.take (s.done + completed)) ++ _
    rw [places_append, order, taken, split, entire_append, size, Nat.zero_add, List.append_assoc]
  · rw [counted]
    change written (s.client.sent ++ (sendCb s.client.sendBuffer writables).2) =
      hi ++ (s.messages.take (s.done + completed)).flatten ++ _
    rw [written_append, bytes, sent, split, List.flatten_append]
    simp only [List.append_assoc]
    rfl

/-- A run of the timer in which nothing is taken keeps everything. -/
theorem inOrder_sendCb_blocked {s : SendQueue} (ordered : InOrder s)
    (left : (sendCb s.client.sendBuffer writables).1 = s.client.sendBuffer)
    (nothing : places (attempts s.done s.client.sendBuffer writables) = [])
    (silent : written (sendCb s.client.sendBuffer writables).2 = []) :
    InOrder (s.next (.sendCb writables)) := by
  obtain ⟨count, within, order, bytes⟩ := ordered
  have counted : (s.next (.sendCb writables)).done = s.done := by
    change s.messages.length - (sendCb s.client.sendBuffer writables).1.length = _
    rw [left]
    rfl
  have head : (s.next (.sendCb writables)).current = s.current := by
    change ((sendCb s.client.sendBuffer writables).1.head?).getD [] = _
    rw [left]
    rfl
  refine ⟨count, head ▸ within, ?_, ?_⟩
  · rw [counted]
    change places (s.attempted ++ _) = _
    rw [places_append, nothing, List.append_nil]
    exact order
  · rw [counted, head]
    change written (s.client.sent ++ (sendCb s.client.sendBuffer writables).2) = _
    rw [written_append, silent, List.append_nil]
    exact bytes

theorem inOrder_step_iff {s t : SendQueue} {e : ClientEvent} (queued : Queued s)
    (ordered : InOrder s) (step : machine.Step s e t) : InOrder t ↔ Stalls s e := by
  cases Except.ok.inj step.2
  cases e with
  | sendMessage buffer => exact iff_of_true (inOrder_sendMessage queued ordered buffer) trivial
  | sendCb writables =>
    obtain ⟨count, within, order, bytes⟩ := id ordered
    have far := progress_eq order
    by_cases fresh : count = 0
    · subst fresh
      refine iff_of_true (inOrder_sendCb_fresh queued ?_ ?_ writables) (.inl far)
      · rw [order]
        exact List.append_nil _
      · rw [bytes, List.take_zero, List.append_nil]
    · cases buffer : s.client.sendBuffer with
      | nil =>
        simp only [current, buffer, List.head?_nil, Option.getD_none, List.length_nil] at within
        exact absurd (Nat.le_zero.mp within) fresh
      | cons message rest =>
        have head : s.current = message := by simp [current, buffer]
        cases writables with
        | nil =>
          refine iff_of_true (inOrder_sendCb_blocked ordered ?_ ?_ ?_) (.inr (by simp))
          all_goals rw [buffer]; rfl
        | cons writable later =>
          obtain ⟨sent, all⟩ := sendMessage_spec writable message
          by_cases blocked : taken writable message = 0
          · have part : (sendMessage writable message).1 ≠ message.length := fun whole => by
              have empty := all whole
              rw [head] at within
              omega
            refine iff_of_true (inOrder_sendCb_blocked ordered ?_ ?_ ?_)
              (.inr (by simpa [head] using blocked))
            · simp only [buffer, sendCb, if_neg part]
            · rw [buffer, attempts, if_neg part, blocked]
              rfl
            · simp only [buffer, sendCb, if_neg part, sent, blocked, List.take_zero]
          · refine iff_of_false (fun again => ?_) ?_
            · -- the first byte of the message is taken a second time
              have once := again.nodup
              change (places (s.attempted ++
                attempts s.done s.client.sendBuffer (writable :: later))).Nodup at once
              rw [places_append] at once
              refine List.disjoint_of_nodup_append once (a := (s.done, 0)) ?_ ?_
              · rw [order]
                exact List.mem_append_right _ (mem_start.mpr ⟨rfl, Nat.pos_of_ne_zero fresh⟩)
              · rw [buffer, attempts, places, List.flatMap_cons]
                exact List.mem_append_left _ (mem_start.mpr ⟨rfl, Nat.pos_of_ne_zero blocked⟩)
            · rintro (none_taken | stalls)
              · exact fresh (far.symm.trans none_taken)
              · have nothing := stalls writable rfl
                rw [head] at nothing
                exact blocked nothing

/-- In a run the bytes that the streams have taken are always in order, none twice
and none left out, exactly when no message of which a part has been taken is
taken again. -/
theorem in_order_iff (run : machine.Run es s) :
    machine.Always InOrder es ↔ machine.Meets Stalls es := by
  refine Machine.always_iff_meets ?_ (fun before ordered step =>
    inOrder_step_iff (queued_of_run before) ordered step) run
  exact ⟨0, Nat.zero_le _, rfl, rfl⟩

def stallsTest (s : SendQueue) : ClientEvent → Bool
  | .sendMessage _ => true
  | .sendCb writables => s.progress = 0 || writables.head?.all fun writable =>
    taken writable s.current = 0

theorem stalls_of_test (s : SendQueue) (e : ClientEvent) (passed : stallsTest s e = true) :
    Stalls s e := by
  cases e with
  | sendMessage => trivial
  | sendCb writables =>
    simp only [stallsTest, Bool.or_eq_true, decide_eq_true_eq, Option.all_eq_true] at passed
    exact passed

instance (s : SendQueue) (e : ClientEvent) : Decidable (machine.enabled s e) :=
  inferInstanceAs (Decidable True)

/-- One message is taken whole, and one in part before its stream blocks. -/
def blockedRun : List ClientEvent :=
  [.sendMessage [97, 98], .sendCb [some (4, some 9)], .sendMessage [99, 100],
    .sendCb [some (4, some 1)], .sendCb [some (4, none)]]

theorem in_order_blocked :
    ∃ s, machine.Run blockedRun s ∧ written s.client.sent = hi ++ [97, 98, 99] ∧
      machine.Always InOrder blockedRun := by
  have shown : (machine.exec {} blockedRun).map (fun s => written s.client.sent) =
      some (hi ++ [97, 98, 99]) := by
    decide +kernel
  have passed : machine.checks stallsTest {} blockedRun = true := by decide +kernel
  have stalls : machine.Meets Stalls blockedRun := fun _ _ _ inside path =>
    Machine.meets_of_checks stalls_of_test passed inside path
  obtain ⟨s, run, same⟩ := Machine.exec_observe shown
  exact ⟨s, run, same, (in_order_iff run).mpr stalls⟩

/-- A message of which one byte has been taken is sent again from its start. -/
theorem first_byte_twice :
    ∃ s, machine.Run [.sendMessage [97, 98], .sendCb [some (4, some 1)],
      .sendCb [some (4, some 2)]] s ∧
      written s.client.sent = hi ++ [97, 97, 98] ∧ ¬ InOrder s := by
  have shown : (machine.exec {} [.sendMessage [97, 98], .sendCb [some (4, some 1)],
    .sendCb [some (4, some 2)]]).map
      (fun s => (written s.client.sent, places s.attempted)) =
      some (hi ++ [97, 97, 98], [(0, 0), (0, 0), (0, 1)]) := by decide +kernel
  obtain ⟨s, run, same⟩ := Machine.exec_observe shown
  obtain ⟨bytes, order⟩ := Prod.mk.inj same
  refine ⟨s, run, bytes, fun ordered => ?_⟩
  have once := ordered.nodup
  rw [order] at once
  exact absurd once (by decide)

end SendQueue
end Gearsdk.Qnetwork
