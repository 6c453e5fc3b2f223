import Gearsdk.Paging
import Mathlib.Data.Nat.Find

/-! Loops that ask a server in rounds. What the server answers depends on the round and on the
cursor that it is given. -/
namespace Paging
variable {ρ F α β : Type}

/-- A loop that is over asks nothing. -/
def advance (round : Nat → ρ → Outcome F α) (server : Nat → Nat → ρ) (n : Nat) :
    Outcome F α → Outcome F α
  | .running cursor reported => (round cursor (server n cursor)).after reported
  | outcome => outcome

/-- Where a loop stands after as many rounds. -/
def play (round : Nat → ρ → Outcome F α) (server : Nat → Nat → ρ) : Nat → Outcome F α
  | 0 => .running 0 []
  | n + 1 => advance round server n (play round server n)

/-- A loop that hands back the cursor of each page. -/
def follow (_ : Nat) (page : Nat × List α) : Outcome F α :=
  if page.1 = 0 then .ended page.2 else .running page.1 page.2

/-- A loop that asks from the same cursor again. -/
def again (cursor : Nat) (page : Nat × List α) : Outcome F α :=
  if page.1 = 0 then .ended page.2 else .running cursor page.2

/-- The pages from a round and a cursor on, when each cursor that a page names is handed back,
and the items on them. -/
inductive Iteration (pages : Nat → Nat → Nat × List β) : Nat → Nat → List β → Prop where
  | last (page : pages n cursor = (0, items)) : Iteration pages n cursor items
  | more (page : pages n cursor = (next, items)) (goesOn : next ≠ 0)
      (rest : Iteration pages (n + 1) next later) :
      Iteration pages n cursor (items ++ later)

/-- From every round on, an iteration comes to its end and goes through all that is there; no page
has anything else. -/
structure Complete (pages : Nat → Nat → Nat × List β) (content : β → Prop) : Prop where
  ends : ∀ n, ∃ items, Iteration pages n 0 items ∧ ∀ item, content item → item ∈ items
  sound : ∀ n cursor, ∀ item ∈ (pages n cursor).2, content item

/-- The loop ends, and has reported what is there and nothing else. -/
def Reports (round : Nat → ρ → Outcome F α) (server : Nat → Nat → ρ) (content : α → Prop) : Prop :=
  ∃ n reported, play round server n = .ended reported ∧ ∀ item, item ∈ reported ↔ content item

section
variable {round : Nat → ρ → Outcome F α} {server : Nat → Nat → ρ}

theorem play_congr {ρ' : Type} {round' : Nat → ρ' → Outcome F α} {server' : Nat → Nat → ρ'}
    (same : ∀ n cursor, round cursor (server n cursor) = round' cursor (server' n cursor)) :
    play round server = play round' server' := by
  funext n
  induction n with
  | zero => rfl
  | succ n ih =>
    rw [play, play, ih]
    cases play round' server' n with
    | running cursor reported => exact congrArg (Outcome.after reported) (same n cursor)
    | ended reported => rfl
    | failed fault => rfl

theorem play_over {outcome : Outcome F α} (stays : ∀ m, advance round server m outcome = outcome)
    (reached : play round server n = outcome) (later : n ≤ m) : play round server m = outcome := by
  induction later with
  | refl => exact reached
  | step _ ih => rw [play, ih, stays]

/-- A loop that has failed does not end. -/
theorem not_ended_of_failed (failed : play round server n = .failed fault) (m : Nat)
    (reported : List α) :
    play round server m ≠ .ended reported := by
  intro ended
  have one := play_over (fun _ => rfl) failed (Nat.le_max_left n m)
  have two := play_over (fun _ => rfl) ended (Nat.le_max_right n m)
  cases one.symm.trans two

/-- A loop fails that cannot go on from a page with some item, when an iteration comes to it. -/
theorem Iteration.fails {pages : Nat → Nat → Nat × List β} {bad : β → Prop}
    (iteration : Iteration pages n cursor items)
    (fails : ∀ n cursor, (∃ item ∈ (pages n cursor).2, bad item) →
      ∃ fault, round cursor (server n cursor) = .failed fault)
    (passes : ∀ n cursor, (∀ item ∈ (pages n cursor).2, ¬ bad item) → (pages n cursor).1 ≠ 0 →
      ∃ items, round cursor (server n cursor) = .running (pages n cursor).1 items)
    (there : ∃ item ∈ items, bad item) (standing : play round server n = .running cursor reported) :
    ∃ m fault, play round server m = .failed fault := by
  induction iteration generalizing reported with
  | last page =>
    obtain ⟨fault, failed⟩ := fails _ _ (by rw [page]; exact there)
    exact ⟨_ + 1, fault, by rw [play, standing, advance, failed]; rfl⟩
  | @more n cursor next items later page goesOn rest ih =>
    by_cases here : ∃ item ∈ items, bad item
    · obtain ⟨fault, failed⟩ := fails n cursor (by rw [page]; exact here)
      exact ⟨n + 1, fault, by rw [play, standing, advance, failed]; rfl⟩
    · obtain ⟨item, inside, is_bad⟩ := there
      have none_here : ∀ item ∈ items, ¬ bad item :=
        fun item inside is_bad => here ⟨item, inside, is_bad⟩
      obtain ⟨more, running⟩ :=
        passes n cursor (by rw [page]; exact none_here) (by rw [page]; exact goesOn)
      have behind := (List.mem_append.mp inside).resolve_left fun inside =>
        none_here item inside is_bad
      have next_round : play round server (n + 1) = .running next (reported ++ more) := by
        rw [play, standing, advance, running, page]
        rfl
      exact ih ⟨item, behind, is_bad⟩ next_round

end

section
variable {pages : Nat → Nat → Nat × List β} {content : β → Prop}

/-- The pages with every item in the form that a loop reports it in. -/
def translated (pages : Nat → Nat → Nat × List β) (entries : Nat → β → List α) (n cursor : Nat) :
    Nat × List α :=
  ((pages n cursor).1, (pages n cursor).2.flatMap (entries n))

theorem Iteration.translated {entries : Nat → β → List α} {means : β → α → Prop}
    (each : ∀ n item, content item → ∀ entry, entry ∈ entries n item ↔ means item entry)
    (sound : ∀ n cursor, ∀ item ∈ (pages n cursor).2, content item)
    (iteration : Iteration pages n cursor items) :
    ∃ all, Iteration (translated pages entries) n cursor all ∧ ∀ item ∈ items, ∀ entry,
      means item entry → entry ∈ all := by
  induction iteration with
  | @last n cursor items page =>
    have inside := sound n cursor
    rw [page] at inside
    refine ⟨items.flatMap (entries n), .last (by rw [Paging.translated, page]),
      fun item here entry meant => ?_⟩
    exact List.mem_flatMap.mpr ⟨item, here, (each n item (inside item here) entry).mpr meant⟩
  | @more n cursor next items later page goesOn rest ih =>
    obtain ⟨all, iteration, covers⟩ := ih
    have inside := sound n cursor
    rw [page] at inside
    refine ⟨_, .more (by rw [Paging.translated, page]) goesOn iteration,
      fun item here entry meant => ?_⟩
    rcases List.mem_append.mp here with now | behind
    · exact List.mem_append_left _ (List.mem_flatMap.mpr ⟨item, now,
        (each n item (inside item now) entry).mpr meant⟩)
    · exact List.mem_append_right _ (covers item behind entry meant)

theorem Complete.translated {entries : Nat → β → List α} {means : β → α → Prop}
    (complete : Complete pages content)
    (each : ∀ n item, content item → ∀ entry, entry ∈ entries n item ↔ means item entry) :
    Complete (translated pages entries) (fun entry => ∃ item, content item ∧ means item entry) := by
  refine ⟨fun n => ?_, fun n cursor entry inside => ?_⟩
  · obtain ⟨items, iteration, covers⟩ := complete.ends n
    obtain ⟨all, iteration, holds⟩ := iteration.translated each complete.sound
    exact ⟨all, iteration, fun entry ⟨item, there, meant⟩ => holds item (covers item there) entry meant⟩
  · obtain ⟨item, listed, reported⟩ := List.mem_flatMap.mp inside
    have there := complete.sound n cursor item listed
    exact ⟨item, there, (each n item there entry).mp reported⟩

theorem Iteration.sound (iteration : Iteration pages n cursor items)
    (sound : ∀ n cursor, ∀ item ∈ (pages n cursor).2, content item) :
    ∀ item ∈ items, content item := by
  induction iteration with
  | @last n cursor items page =>
    have inside := sound n cursor
    rwa [page] at inside
  | @more n cursor next items later page _ _ ih =>
    have inside := sound n cursor
    rw [page] at inside
    exact List.forall_mem_append.mpr ⟨inside, ih⟩

/-- A page that names 0 in answer to 0 is a whole iteration. -/
theorem Complete.whole (complete : Complete pages content) (last : (pages n 0).1 = 0)
    (there : content item) :
    item ∈ (pages n 0).2 := by
  obtain ⟨items, iteration, covers⟩ := complete.ends n
  cases iteration with
  | last page =>
    rw [page]
    exact covers item there
  | more page goesOn _ =>
    rw [page] at last
    exact absurd last goesOn

theorem Iteration.follow (iteration : Iteration pages n cursor items)
    (standing : play (F := F) follow pages n = .running cursor reported) :
    ∃ m, play (F := F) Paging.follow pages m = .ended (reported ++ items) := by
  induction iteration generalizing reported with
  | @last n cursor items page =>
    exact ⟨n + 1, by rw [play, standing, advance, page]; rfl⟩
  | @more n cursor next items later page goesOn rest ih =>
    rw [← List.append_assoc]
    refine ih ?_
    rw [play, standing, advance, page, Paging.follow, if_neg goesOn]
    rfl

theorem Complete.follow (complete : Complete pages content) :
    Reports (F := F) follow pages content := by
  obtain ⟨items, iteration, covers⟩ := complete.ends 0
  obtain ⟨n, ended⟩ := iteration.follow (F := F) rfl
  exact ⟨n, items, ended, fun item => ⟨iteration.sound complete.sound item, covers item⟩⟩

/-- The pages that a loop has read that asks from 0 again and again. -/
def repeated (pages : Nat → Nat → Nat × List β) (n : Nat) : List β :=
  (List.range n).flatMap fun i => (pages i 0).2

theorem repeated_succ (pages : Nat → Nat → Nat × List β) (n : Nat) :
    repeated pages (n + 1) = repeated pages n ++ (pages n 0).2 := by
  rw [repeated, List.range_succ, List.flatMap_append, List.flatMap_singleton, repeated]

theorem play_again (more : ∀ i < n, (pages i 0).1 ≠ 0) :
    play (F := F) again pages n = .running 0 (repeated pages n) := by
  induction n with
  | zero => rfl
  | succ n ih =>
    rw [play, ih fun i before => more i (Nat.lt_succ_of_lt before), advance, again,
      if_neg (more n (Nat.lt_succ_self n)), repeated_succ]
    rfl

/-- A loop that asks from 0 again ends just when the server answers 0 with 0. -/
theorem Complete.again_iff (complete : Complete pages content) :
    Reports (F := F) again pages content ↔ ∃ n, (pages n 0).1 = 0 := by
  constructor
  · rintro ⟨n, reported, ended, _⟩
    by_contra never
    rw [play_again fun i _ last => never ⟨i, last⟩] at ended
    cases ended
  · intro some_page
    let n := Nat.find some_page
    have last : (pages n 0).1 = 0 := Nat.find_spec some_page
    have before := play_again (F := F) fun i (earlier : i < n) => Nat.find_min some_page earlier
    refine ⟨n + 1, repeated pages n ++ (pages n 0).2, ?_, fun item => ⟨fun inside => ?_, fun there => ?_⟩⟩
    · rw [play, before, advance, again, if_pos last]
      rfl
    · rcases List.mem_append.mp inside with earlier | now
      · obtain ⟨i, _, here⟩ := List.mem_flatMap.mp earlier
        exact complete.sound i 0 item here
      · exact complete.sound n 0 item now
    · exact List.mem_append_right _ (complete.whole last there)

end
end Paging
