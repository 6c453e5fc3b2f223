/-! The sending end of a stream that may accept less than it is offered. An offer
is refused, or a prefix of it is accepted; the end of the stream goes with an
offer that is accepted whole. -/

/-- What comes of one offer. -/
inductive OutStream.Outcome where
  | refused
  | accepted (count : Nat)
  deriving DecidableEq

namespace OutStream.Outcome
variable {α : Type}

def count : Outcome → Nat
  | refused => 0
  | accepted count => count

/-- No more is accepted than is offered. -/
def fits (outcome : Outcome) (offered : List α) : Bool := outcome.count ≤ offered.length

/-- The whole of the offer is accepted. -/
def completes (outcome : Outcome) (offered : List α) : Bool :=
  match outcome with
  | refused => false
  | accepted count => count = offered.length

variable {outcome : Outcome} {offered : List α}

theorem completes_eq_true_iff :
    outcome.completes offered = true ↔ outcome = .accepted offered.length := by
  cases outcome with
  | refused => simp [completes]
  | accepted count => simp [completes]

theorem count_of_completes (whole : outcome.completes offered = true) :
    outcome.count = offered.length := by
  rw [completes_eq_true_iff.mp whole, count]

/-- An offer of something is accepted whole when nothing of it is left. -/
theorem completes_of_count (something : offered ≠ [])
    (all : outcome.count = offered.length) : outcome.completes offered = true := by
  cases outcome with
  | refused => exact absurd (List.length_eq_zero_iff.mp all.symm) something
  | accepted count => exact decide_eq_true all

end OutStream.Outcome

/-- What a stream has accepted. -/
structure OutStream (α : Type) where
  items : List α := []
  /-- The numbers of items that had been accepted when an end of stream was. -/
  ends : List Nat := []

namespace OutStream
variable {α : Type}

def offer (s : OutStream α) (offered : List α) (fin : Bool) (outcome : Outcome) : OutStream α :=
  { items := s.items ++ offered.take outcome.count
    ends := if fin && outcome.completes offered then s.ends ++ [s.items.length + offered.length]
      else s.ends }

@[simp] theorem offer_refused (s : OutStream α) (offered : List α) (fin : Bool) :
    s.offer offered fin .refused = s := by
  simp [offer, Outcome.count, Outcome.completes]

/-- The stream has accepted the first `total` items of `data`, and its end with
the last of them. -/
structure Carries (s : OutStream α) (data : List α) (total : Nat) : Prop where
  items : s.items = data.take total
  bound : total ≤ data.length
  ends : s.ends = if data ≠ [] ∧ total = data.length then [data.length] else []

/-- A new stream carries the beginning of everything. -/
theorem carries_new (data : List α) : Carries {} data 0 := by
  constructor
  · rfl
  · exact Nat.zero_le _
  · rw [if_neg]
    rintro ⟨something, empty⟩
    exact something (List.length_eq_zero_iff.mp empty.symm)

/-- The next items are offered in their place, with the end of the stream if they
are the last ones. -/
theorem Carries.offer {s : OutStream α} (carries : s.Carries data total) (something : offered ≠ [])
    (next : offered <+: data.drop total)
    (last : fin = decide (total + offered.length = data.length))
    (fits : outcome.fits offered = true) :
    (s.offer offered fin outcome).Carries data (total + outcome.count) := by
  obtain ⟨rest, whole⟩ := next
  have offers : 0 < offered.length := List.length_pos_iff.mpr something
  have room : total + offered.length ≤ data.length := by
    have lengths := congrArg List.length whole
    rw [List.length_append, List.length_drop] at lengths
    have bound := carries.bound
    omega
  have fits : outcome.count ≤ offered.length := of_decide_eq_true fits
  have incomplete : s.ends = [] := by
    rw [carries.ends, if_neg]
    omega
  constructor
  · have split : offered.take outcome.count = (data.drop total).take outcome.count := by
      rw [← whole, List.take_append_of_le_length fits]
    simp only [OutStream.offer]
    rw [carries.items, split, ← List.take_add]
  · omega
  · have sent : s.items.length = total := by
      rw [carries.items, List.length_take]
      exact Nat.min_eq_left carries.bound
    have some_data : data ≠ [] := by
      rintro rfl
      simp only [List.length_nil] at room
      omega
    simp only [OutStream.offer]
    rw [incomplete, sent, last]
    by_cases finished : total + outcome.count = data.length
    · have all : outcome.count = offered.length := by omega
      rw [if_pos, if_pos ⟨some_data, finished⟩, ← all, finished, List.nil_append]
      rw [Outcome.completes_of_count something all, Bool.and_true]
      exact decide_eq_true (by omega)
    · rw [if_neg, if_neg fun both => finished both.2]
      rw [Bool.and_eq_true, decide_eq_true_iff]
      rintro ⟨lastOnes, completes⟩
      exact finished (by rw [Outcome.count_of_completes completes, lastOnes])

end OutStream
