import Gearsdk.Qnetwork
import Mathlib.Data.List.Nodup

/-! One message of the server and the streams that it is offered to. The loops of
`sendmessage` are a relation that counts no rounds, so that a derivation is a call
that returns; the relation has one outcome, and it is the one that is computed. -/
namespace Gearsdk.Qnetwork

/-- A stream that a message is offered to, and what it takes. -/
abbrev Offer := Nat × Option Nat

namespace Sendmessage

/-- The stream answers with the length of the message. -/
def SentWhole (buf : Qstring) (offer : Offer) : Prop :=
  (streamSend offer.1 offer.2 buf).1 = buf.length

/-- The second loop, from a stream on: the offers that it makes, and the stream
that has taken the message. -/
inductive Tries (accepts : Nat → Option Nat) (buf : Qstring) :
    Nat → List Offer → Option Nat → Prop where
  | exhausted : ¬ s < maxSendStreamToTry → Tries accepts buf s [] none
  | sent : s < maxSendStreamToTry → SentWhole buf (nextStream s, accepts (nextStream s)) →
      Tries accepts buf s [(nextStream s, accepts (nextStream s))] (some (nextStream s))
  | again : s < maxSendStreamToTry → ¬ SentWhole buf (nextStream s, accepts (nextStream s)) →
      Tries accepts buf (nextStream s) offers found →
      Tries accepts buf s ((nextStream s, accepts (nextStream s)) :: offers) found

structure Outcome where
  lastStream : Nat
  offers : List Offer

/-- The first writable stream that did not take the message before. -/
def tried (last : Nat) (call : ServerCall) : Option Nat := call.writable.find? (· ≠ last)

/-- A call on a connection, which may not be established. -/
inductive Sends (call : ServerCall) (last : Nat) : Bool → Outcome → Prop where
  | unestablished : Sends call last false ⟨last, []⟩
  | first : tried last call = some s → SentWhole call.buffer (s, call.first) →
      Sends call last true ⟨s, [(s, call.first)]⟩
  | second : (∀ s, tried last call = some s → ¬ SentWhole call.buffer (s, call.first)) →
      Tries call.accepts call.buffer last offers found →
      Sends call last true ⟨found.getD last, (tried last call).toList.map (·, call.first) ++ offers⟩

/-- What is written to the streams by a sequence of offers. -/
def written (buf : Qstring) (offers : List Offer) : List StreamData :=
  offers.flatMap fun offer => (streamSend offer.1 offer.2 buf).2

/-- No stream is offered the message twice; one stream takes the whole of it and
no other stream a byte, or no stream takes a byte. -/
structure OneStream (buf : Qstring) (offers : List Offer) : Prop where
  once : (offers.map Prod.fst).Nodup
  whole_or_nothing :
    (∃ stream, streamBytes stream (written buf offers) = buf ∧
      ∀ other, other ≠ stream → streamBytes other (written buf offers) = []) ∨
    ∀ stream, streamBytes stream (written buf offers) = []

/-- The call returns, and it sends the message to one stream. -/
def Settles (call : ServerCall) (last : Nat) (established : Bool) : Prop :=
  (∃ outcome, Sends call last established outcome) ∧
    ∀ outcome, Sends call last established outcome → OneStream call.buffer outcome.offers

/-! ### When a message goes to one stream -/

/-- How much of a message a stream takes. -/
def takes (buf : Qstring) : Option Nat → Nat
  | none => 0
  | some n => min n buf.length

def TakesWhole (buf : Qstring) : Option Nat → Prop
  | none => False
  | some n => buf.length ≤ n

instance (buf : Qstring) : (accepts : Option Nat) → Decidable (TakesWhole buf accepts)
  | none => inferInstanceAs (Decidable False)
  | some _ => inferInstanceAs (Decidable (_ ≤ _))

/-- The streams of the second loop are the odd ones above the last stream. -/
def Retried (last s : Nat) : Prop :=
  last < maxSendStreamToTry ∧ last < s ∧ s % 2 = 1 ∧ s ≤ maxSendStreamToTry + 1

/-- No stream before it takes the message whole. -/
def Reached (accepts : Nat → Option Nat) (buf : Qstring) (last s : Nat) : Prop :=
  Retried last s ∧ ∀ earlier, Retried last earlier → earlier < s →
    ¬ TakesWhole buf (accepts earlier)

/-- The stream that is tried first takes the message whole, or it takes nothing and
is not among those that are tried afterwards, which take the message whole or
nothing of it. -/
def Unparted (call : ServerCall) (last : Nat) : Prop :=
  ((tried last call).isSome ∧ TakesWhole call.buffer call.first) ∨
    (∀ s, tried last call = some s →
        takes call.buffer call.first = 0 ∧ ¬ Reached call.accepts call.buffer last s) ∧
      ∀ s, Reached call.accepts call.buffer last s →
        TakesWhole call.buffer (call.accepts s) ∨ takes call.buffer (call.accepts s) = 0

/-! ### One offer -/

theorem sentWhole_iff (buf : Qstring) (offer : Offer) :
    SentWhole buf offer ↔ TakesWhole buf offer.2 := by
  obtain ⟨stream, accepts⟩ := offer
  cases accepts with
  | none =>
    simp only [SentWhole, streamSend, TakesWhole, iff_false]
    omega
  | some n =>
    simp only [SentWhole, streamSend, TakesWhole, List.length_take]
    omega

theorem takes_of_whole {accepts : Option Nat} (whole : TakesWhole buf accepts) :
    takes buf accepts = buf.length := by
  cases accepts with
  | none => exact whole.elim
  | some n => exact Nat.min_eq_right whole

theorem whole_of_takes {accepts : Option Nat} (some_taken : takes buf accepts ≠ 0)
    (all : takes buf accepts = buf.length) : TakesWhole buf accepts := by
  cases accepts with
  | none => exact absurd rfl some_taken
  | some n =>
    rw [takes] at all
    rw [TakesWhole]
    omega

theorem streamBytes_offer (stream : Nat) (buf : Qstring) (offer : Offer) :
    streamBytes stream (streamSend offer.1 offer.2 buf).2 =
      if offer.1 = stream then buf.take (takes buf offer.2) else [] := by
  obtain ⟨id, accepts⟩ := offer
  cases accepts with
  | none => simp [streamSend, streamBytes, takes]
  | some n =>
    have counted : buf.take n = buf.take (min n buf.length) := by
      rw [List.take_eq_take_iff]
      omega
    simp only [streamSend, streamBytes, takes, List.flatMap_cons, List.flatMap_nil, List.append_nil,
      ← counted]

/-! ### A sequence of offers -/

theorem written_cons (buf : Qstring) (offer : Offer) (offers : List Offer) :
    written buf (offer :: offers) = (streamSend offer.1 offer.2 buf).2 ++ written buf offers :=
  List.flatMap_cons

theorem streamBytes_absent (buf : Qstring) {offers : List Offer}
    (absent : stream ∉ offers.map Prod.fst) :
    streamBytes stream (written buf offers) = [] := by
  induction offers with
  | nil => rfl
  | cons offer rest ih =>
    rw [List.map_cons, List.mem_cons, not_or] at absent
    rw [written_cons, streamBytes_append, streamBytes_offer, if_neg (Ne.symm absent.1), ih absent.2]
    rfl

/-- A stream that is offered the message once has what it takes of it. -/
theorem streamBytes_offered (buf : Qstring) {offers : List Offer}
    (once : (offers.map Prod.fst).Nodup) (offered : offer ∈ offers) :
    streamBytes offer.1 (written buf offers) = buf.take (takes buf offer.2) := by
  induction offers with
  | nil => contradiction
  | cons head rest ih =>
    rw [List.map_cons, List.nodup_cons] at once
    rw [written_cons, streamBytes_append, streamBytes_offer]
    rcases List.mem_cons.mp offered with rfl | later
    · rw [if_pos rfl, streamBytes_absent buf once.1, List.append_nil]
    · have other : head.1 ≠ offer.1 := fun same => once.1 (same ▸ List.mem_map_of_mem later)
      rw [if_neg other, ih once.2 later]
      rfl

/-- Where only one offer can be taken whole, a message goes to one stream exactly
when every offer is taken whole or not at all. -/
theorem whole_or_nothing_iff (buf : Qstring) {offers : List Offer}
    (once : (offers.map Prod.fst).Nodup)
    (single : ∀ a ∈ offers, ∀ b ∈ offers, TakesWhole buf a.2 → TakesWhole buf b.2 → a.1 = b.1) :
    ((∃ stream, streamBytes stream (written buf offers) = buf ∧
        ∀ other, other ≠ stream → streamBytes other (written buf offers) = []) ∨
      ∀ stream, streamBytes stream (written buf offers) = []) ↔
    ∀ offer ∈ offers, TakesWhole buf offer.2 ∨ takes buf offer.2 = 0 := by
  constructor
  · intro settled offer offered
    by_cases nothing : takes buf offer.2 = 0
    · exact .inr nothing
    · left
      have bytes := streamBytes_offered buf once offered
      have bound : takes buf offer.2 ≤ buf.length := by
        cases offer.2 with
        | none => exact Nat.zero_le _
        | some n => exact Nat.min_le_right _ _
      have size : (streamBytes offer.1 (written buf offers)).length = takes buf offer.2 := by
        rw [bytes, List.length_take_of_le bound]
      rcases settled with ⟨stream, whole, others⟩ | none_taken
      · have same : offer.1 = stream := by
          by_contra different
          rw [others _ different] at size
          exact nothing size.symm
        rw [same, whole] at size
        exact whole_of_takes nothing size.symm
      · rw [none_taken] at size
        exact absurd size.symm nothing
  · intro each
    by_cases taken : ∃ offer ∈ offers, TakesWhole buf offer.2
    · obtain ⟨offer, offered, whole⟩ := taken
      refine .inl ⟨offer.1, ?_, fun other different => ?_⟩
      · rw [streamBytes_offered buf once offered, takes_of_whole whole, List.take_length]
      · by_cases present : other ∈ offers.map Prod.fst
        · obtain ⟨second, inside, rfl⟩ := List.mem_map.mp present
          have nothing := (each second inside).resolve_left fun also =>
            different (single second inside offer offered also whole)
          rw [streamBytes_offered buf once inside, nothing, List.take_zero]
        · exact streamBytes_absent buf present
    · refine .inr fun stream => ?_
      by_cases present : stream ∈ offers.map Prod.fst
      · obtain ⟨offer, offered, rfl⟩ := List.mem_map.mp present
        have nothing := (each offer offered).resolve_left fun whole => taken ⟨offer, offered, whole⟩
        rw [streamBytes_offered buf once offered, nothing, List.take_zero]
      · exact streamBytes_absent buf present

theorem oneStream_iff {buf : Qstring} {offers : List Offer}
    (single : ∀ a ∈ offers, ∀ b ∈ offers, TakesWhole buf a.2 → TakesWhole buf b.2 → a.1 = b.1) :
    OneStream buf offers ↔
      (offers.map Prod.fst).Nodup ∧ ∀ offer ∈ offers, TakesWhole buf offer.2 ∨
        takes buf offer.2 = 0 := by
  constructor
  · rintro ⟨once, settled⟩
    exact ⟨once, (whole_or_nothing_iff buf once single).mp settled⟩
  · rintro ⟨once, each⟩
    exact ⟨once, (whole_or_nothing_iff buf once single).mpr each⟩

/-! ### The second loop -/

variable {accepts : Nat → Option Nat} {buf : Qstring}

theorem retried_iff (last s : Nat) :
    Retried last s ↔ last < maxSendStreamToTry ∧
      (s = nextStream last ∨ Retried (nextStream last) s) := by
  simp only [Retried, nextStream, maxSendStreamToTry]
  omega

/-- The loop ends: every round goes to a higher stream. -/
theorem tries_exists (accepts : Nat → Option Nat) (buf : Qstring) (last : Nat) :
    ∃ offers found, Tries accepts buf last offers found := by
  by_cases more : last < maxSendStreamToTry
  · by_cases whole : SentWhole buf (nextStream last, accepts (nextStream last))
    · exact ⟨_, _, .sent more whole⟩
    · obtain ⟨offers, found, rest⟩ := tries_exists accepts buf (nextStream last)
      exact ⟨_, _, .again more whole rest⟩
  · exact ⟨_, _, .exhausted more⟩
termination_by maxSendStreamToTry - last
decreasing_by
  simp only [nextStream]
  omega

theorem Tries.unique (tries : Tries accepts buf last offers found)
    (other : Tries accepts buf last offers' found') :
    offers = offers' ∧ found = found' := by
  induction tries generalizing offers' found' with
  | exhausted done =>
    cases other with
    | exhausted => exact ⟨rfl, rfl⟩
    | sent more _ | again more _ _ => exact absurd more done
  | sent more whole =>
    cases other with
    | exhausted done => exact absurd more done
    | sent => exact ⟨rfl, rfl⟩
    | again _ part _ => exact absurd whole part
  | again more part _ ih =>
    cases other with
    | exhausted done => exact absurd more done
    | sent _ whole => exact absurd whole part
    | again _ _ rest =>
      obtain ⟨same, alike⟩ := ih rest
      exact ⟨congrArg _ same, alike⟩

theorem reached_iff (accepts : Nat → Option Nat) (buf : Qstring) (last s : Nat) :
    Reached accepts buf last s ↔ last < maxSendStreamToTry ∧ (s = nextStream last ∨
      ¬ TakesWhole buf (accepts (nextStream last)) ∧ Reached accepts buf (nextStream last) s) := by
  constructor
  · rintro ⟨retried, before⟩
    obtain ⟨more, first | later⟩ := (retried_iff last s).mp retried
    · exact ⟨more, .inl first⟩
    · refine ⟨more, .inr ⟨?_, later, fun earlier inside => ?_⟩⟩
      · exact before _ ((retried_iff _ _).mpr ⟨more, .inl rfl⟩) later.2.1
      · exact before earlier ((retried_iff _ _).mpr ⟨more, .inr inside⟩)
  · rintro ⟨more, rfl | ⟨part, later, before⟩⟩
    · refine ⟨(retried_iff _ _).mpr ⟨more, .inl rfl⟩, fun earlier inside below => ?_⟩
      obtain ⟨_, rfl | after⟩ := (retried_iff _ _).mp inside
      · exact absurd below (Nat.lt_irrefl _)
      · exact absurd (Nat.lt_trans after.2.1 below) (Nat.lt_irrefl _)
    · refine ⟨(retried_iff _ _).mpr ⟨more, .inr later⟩, fun earlier inside below => ?_⟩
      obtain ⟨_, rfl | after⟩ := (retried_iff _ _).mp inside
      · exact part
      · exact before earlier after below

/-- The offers are those to the streams that are reached. -/
theorem Tries.mem_iff (tries : Tries accepts buf last offers found) (offer : Offer) :
    offer ∈ offers ↔ offer.2 = accepts offer.1 ∧ Reached accepts buf last offer.1 := by
  have whole_iff (s : Nat) : SentWhole buf (s, accepts s) ↔ TakesWhole buf (accepts s) :=
    sentWhole_iff buf (s, accepts s)
  have named (s : Nat) : offer = (s, accepts s) ↔ offer.2 = accepts offer.1 ∧ offer.1 = s := by
    constructor
    · rintro rfl
      exact ⟨rfl, rfl⟩
    · rintro ⟨same, rfl⟩
      exact Prod.ext rfl same
  induction tries with
  | exhausted done =>
    rw [reached_iff]
    simp only [List.not_mem_nil, done, false_and, and_false]
  | sent more whole =>
    rw [whole_iff] at whole
    rw [reached_iff, List.mem_singleton, named]
    simp only [more, whole, true_and, not_true_eq_false, false_and, or_false]
  | again more part _ ih =>
    rw [whole_iff] at part
    rw [reached_iff, List.mem_cons]
    refine (or_congr (named _) ih).trans ?_
    simp only [more, part, true_and, not_false_eq_true, and_or_left]

theorem Tries.mem_streams_iff (tries : Tries accepts buf last offers found) (s : Nat) :
    s ∈ offers.map Prod.fst ↔ Reached accepts buf last s := by
  rw [List.mem_map]
  constructor
  · rintro ⟨offer, offered, rfl⟩
    exact ((tries.mem_iff offer).mp offered).2
  · intro reached
    exact ⟨(s, accepts s), (tries.mem_iff _).mpr ⟨rfl, reached⟩, rfl⟩

/-- The loop ends with the first offer that is taken whole. -/
theorem Tries.single (tries : Tries accepts buf last offers found) (ha : a ∈ offers)
    (hb : b ∈ offers) (wholeA : TakesWhole buf a.2) (wholeB : TakesWhole buf b.2) : a.1 = b.1 := by
  obtain ⟨resultA, retriedA, beforeA⟩ := (tries.mem_iff a).mp ha
  obtain ⟨resultB, retriedB, beforeB⟩ := (tries.mem_iff b).mp hb
  rw [resultA] at wholeA
  rw [resultB] at wholeB
  refine Nat.le_antisymm (Nat.le_of_not_lt fun above => ?_) (Nat.le_of_not_lt fun below => ?_)
  · exact beforeA _ retriedB above wholeB
  · exact beforeB _ retriedA below wholeA

theorem Tries.nodup (tries : Tries accepts buf last offers found) :
    (offers.map Prod.fst).Nodup := by
  induction tries with
  | exhausted => exact List.nodup_nil
  | sent => exact List.nodup_singleton _
  | again _ _ rest ih =>
    rw [List.map_cons, List.nodup_cons]
    refine ⟨fun again => ?_, ih⟩
    exact Nat.lt_irrefl _ ((rest.mem_streams_iff _).mp again).1.2.1

/-- The bounded rounds of the computed loop are enough. -/
theorem Tries.tryStreams_eq (tries : Tries accepts buf last offers found)
    (enough : maxSendStreamToTry - last ≤ fuel) :
    tryStreams accepts buf fuel last = (found, written buf offers) := by
  induction tries generalizing fuel with
  | exhausted done =>
    cases fuel with
    | zero => rfl
    | succ fuel => exact if_neg done
  | @sent s more whole =>
    cases fuel with
    | zero => omega
    | succ fuel =>
      have taken : (streamSend (nextStream s) (accepts (nextStream s)) buf).1 = buf.length := whole
      simp only [tryStreams, if_pos more, if_pos taken, written, List.flatMap_cons,
        List.flatMap_nil, List.append_nil]
  | @again s _ _ more part _ ih =>
    cases fuel with
    | zero => omega
    | succ fuel =>
      have failed : ¬ (streamSend (nextStream s) (accepts (nextStream s)) buf).1 = buf.length :=
        part
      have rest : maxSendStreamToTry - nextStream s ≤ fuel := by
        simp only [nextStream]
        omega
      simp only [tryStreams, if_pos more, if_neg failed, ih rest, written_cons]

/-! ### A call -/

variable {call : ServerCall}

theorem sends_exists (call : ServerCall) (last : Nat) (established : Bool) :
    ∃ outcome, Sends call last established outcome := by
  cases established with
  | false => exact ⟨_, .unestablished⟩
  | true =>
    by_cases whole : ∃ s, tried last call = some s ∧ SentWhole call.buffer (s, call.first)
    · obtain ⟨s, first, sent⟩ := whole
      exact ⟨_, .first first sent⟩
    · obtain ⟨offers, found, tries⟩ := tries_exists call.accepts call.buffer last
      exact ⟨_, .second (fun s first sent => whole ⟨s, first, sent⟩) tries⟩

theorem Sends.unique (sends : Sends call last established outcome)
    (other : Sends call last established outcome') :
    outcome = outcome' := by
  cases sends with
  | unestablished =>
    cases other
    rfl
  | first here whole =>
    cases other with
    | first there _ =>
      cases Option.some.inj (here.symm.trans there)
      rfl
    | second part _ => exact absurd whole (part _ here)
  | second part tries =>
    cases other with
    | first there whole => exact absurd whole (part _ there)
    | second _ again =>
      obtain ⟨rfl, rfl⟩ := tries.unique again
      rfl

/-- The relation has the outcome that is computed. -/
theorem Sends.sendmessage_eq (sends : Sends call last true outcome) :
    sendmessage last call = (outcome.lastStream, written call.buffer outcome.offers) := by
  cases sends with
  | @first s here whole =>
    have found : call.writable.find? (· ≠ last) = some s := here
    have taken : (streamSend s call.first call.buffer).1 = call.buffer.length := whole
    simp only [sendmessage, found, if_pos taken, written, List.flatMap_cons, List.flatMap_nil,
      List.append_nil]
  | @second offers found part tries =>
    have computed := tries.tryStreams_eq (Nat.sub_le maxSendStreamToTry last)
    cases first : call.writable.find? (· ≠ last) with
    | none => simp only [sendmessage, tried, first, computed, Option.toList_none, List.map_nil,
      List.nil_append]
    | some s =>
      have failed : ¬ (streamSend s call.first call.buffer).1 = call.buffer.length := part s first
      simp only [sendmessage, tried, first, if_neg failed, computed, Option.toList_some,
        List.map_cons, List.map_nil, List.cons_append, List.nil_append, written_cons]

/-- The second loop comes after a stream that has not taken the message whole. -/
theorem single_of_second
    (part : ∀ s, tried last call = some s → ¬ SentWhole call.buffer (s, call.first))
    (tries : Tries call.accepts call.buffer last offers found) :
    ∀ a ∈ (tried last call).toList.map (·, call.first) ++ offers,
      ∀ b ∈ (tried last call).toList.map (·, call.first) ++ offers,
        TakesWhole call.buffer a.2 → TakesWhole call.buffer b.2 → a.1 = b.1 := by
  have later : ∀ offer ∈ (tried last call).toList.map (·, call.first) ++ offers,
      TakesWhole call.buffer offer.2 → offer ∈ offers := by
    intro offer member whole
    refine (List.mem_append.mp member).resolve_left fun early => ?_
    obtain ⟨s, first, rfl⟩ := List.mem_map.mp early
    exact part s (Option.mem_toList.mp first) ((sentWhole_iff _ _).mpr whole)
  intro a ha b hb wholeA wholeB
  exact tries.single (later a ha wholeA) (later b hb wholeB) wholeA wholeB

theorem nodup_second_iff (tries : Tries call.accepts call.buffer last offers found) :
    (((tried last call).toList.map (·, call.first) ++ offers).map Prod.fst).Nodup ↔
      ∀ s, tried last call = some s → ¬ Reached call.accepts call.buffer last s := by
  cases tried last call with
  | none =>
    refine iff_of_true ?_ fun s absent => by contradiction
    exact tries.nodup
  | some first =>
    rw [Option.toList_some, List.map_cons, List.map_nil, List.cons_append, List.nil_append,
      List.map_cons, List.nodup_cons, tries.mem_streams_iff, and_iff_left tries.nodup]
    simp only [Option.some.injEq, forall_eq']

theorem each_second_iff (tries : Tries call.accepts call.buffer last offers found)
    (P : Option Nat → Prop) :
    (∀ offer ∈ (tried last call).toList.map (·, call.first) ++ offers, P offer.2) ↔
      (∀ s, tried last call = some s → P call.first) ∧
        ∀ s, Reached call.accepts call.buffer last s → P (call.accepts s) := by
  rw [List.forall_mem_append]
  refine and_congr ?_ ⟨fun each s reached => ?_, fun each offer offered => ?_⟩
  · cases tried last call with
    | none => simp
    | some first => simp
  · exact each (s, call.accepts s) ((tries.mem_iff _).mpr ⟨rfl, reached⟩)
  · obtain ⟨result, reached⟩ := (tries.mem_iff offer).mp offered
    exact result ▸ each offer.1 reached

theorem oneStream_second_iff
    (part : ∀ s, tried last call = some s → ¬ SentWhole call.buffer (s, call.first))
    (tries : Tries call.accepts call.buffer last offers found) :
    OneStream call.buffer ((tried last call).toList.map (·, call.first) ++ offers) ↔
      Unparted call last := by
  have never : ¬ ((tried last call).isSome ∧ TakesWhole call.buffer call.first) := by
    rintro ⟨found, whole⟩
    obtain ⟨s, first⟩ := Option.isSome_iff_exists.mp found
    exact part s first ((sentWhole_iff _ _).mpr whole)
  rw [oneStream_iff (single_of_second part tries), nodup_second_iff tries,
    each_second_iff tries (fun accepts => TakesWhole call.buffer accepts ∨
      takes call.buffer accepts = 0), Unparted,
    or_iff_right never, ← and_assoc]
  refine and_congr_left fun _ => ?_
  constructor
  · rintro ⟨apart, first⟩ s here
    exact ⟨(first s here).resolve_left fun whole => never ⟨Option.isSome_of_eq_some here, whole⟩,
      apart s here⟩
  · intro both
    exact ⟨fun s here => (both s here).2, fun s here => .inr (both s here).1⟩

/-- A message of the server goes to one stream exactly when the connection is not
established or no stream that is tried takes a part of it. -/
theorem settles_iff (call : ServerCall) (last : Nat) (established : Bool) :
    Settles call last established ↔ established = false ∨ Unparted call last := by
  obtain ⟨outcome, sends⟩ := sends_exists call last established
  have settles : Settles call last established ↔ OneStream call.buffer outcome.offers := by
    constructor
    · exact fun settled => settled.2 outcome sends
    · exact fun one => ⟨⟨outcome, sends⟩, fun other also => sends.unique also ▸ one⟩
  rw [settles]
  cases sends with
  | unestablished =>
    refine iff_of_true ⟨List.nodup_nil, .inr fun stream => rfl⟩ (.inl rfl)
  | @first s here whole =>
    have taken := (sentWhole_iff _ _).mp whole
    refine iff_of_true ((oneStream_iff ?_).mpr ⟨List.nodup_singleton _, ?_⟩)
      (.inr (.inl ⟨Option.isSome_of_eq_some here, taken⟩))
    · intro a ha b hb _ _
      rw [List.mem_singleton.mp ha, List.mem_singleton.mp hb]
    · intro offer offered
      exact .inl (List.mem_singleton.mp offered ▸ taken)
  | second part tries =>
    rw [oneStream_second_iff part tries]
    simp only [Bool.true_eq_false, false_or]

/-- Stream 4 takes one byte of a message of two, and stream 1 takes the whole. -/
def twoStreams : ServerCall where
  buffer := [97, 98]
  writable := [4]
  first := some 1
  accepts s := if s = 1 then some 2 else none

theorem two_streams :
    (∃ outcome, Sends twoStreams 0 true outcome ∧
      streamBytes 4 (written twoStreams.buffer outcome.offers) = [97] ∧
      streamBytes 1 (written twoStreams.buffer outcome.offers) = [97, 98]) ∧
    ¬ Settles twoStreams 0 true := by
  obtain ⟨outcome, sends⟩ := sends_exists twoStreams 0 true
  have sent : written twoStreams.buffer outcome.offers = [(4, [97]), (1, [97, 98])] := by
    have computed : (sendmessage 0 twoStreams).2 = [(4, [97]), (1, [97, 98])] := by decide +kernel
    rw [sends.sendmessage_eq] at computed
    exact computed
  refine ⟨⟨outcome, sends, by rw [sent]; rfl, by rw [sent]; rfl⟩, fun settled => ?_⟩
  rcases (settled.2 outcome sends).whole_or_nothing with ⟨stream, whole, others⟩ | nothing
  · rw [sent] at whole others
    by_cases four : stream = 4
    · subst four
      exact absurd whole (by decide)
    · exact absurd (others 4 (Ne.symm four)) (by decide)
  · rw [sent] at nothing
    exact absurd (nothing 4) (by decide)

end Sendmessage
end Gearsdk.Qnetwork
