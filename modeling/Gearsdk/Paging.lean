import Mathlib.Data.List.Induction
import Mathlib.Data.List.Nodup
import Mathlib.Data.List.Perm.Basic

/-! Loops that ask for one page after the other. A page names the cursor to go on
from, and the loop is over after the page that names 0. What a loop does with a
reply that is no page is its own. -/
namespace Paging

/-- Where a loop stands, with what it has reported. -/
inductive Outcome (F α : Type) where
  | running (cursor : Nat) (reported : List α)
  | ended (reported : List α)
  | failed (fault : F)
  deriving DecidableEq

structure Loop (ρ F α : Type) where
  /-- The next cursor and the items of a page, if the items can be had. -/
  page : ρ → Option (Nat × Except F (List α))
  otherwise : Nat → ρ → Outcome F α

namespace Loop
variable {ρ F α : Type} (loop : Loop ρ F α)

/-- What one round reports, and whether the loop goes on. -/
def round (cursor : Nat) (reply : ρ) : Outcome F α :=
  match loop.page reply with
  | some (_, .error fault) => .failed fault
  | some (next, .ok items) => if next = 0 then .ended items else .running next items
  | none => loop.otherwise cursor reply

end Loop

/-- The round after what has been reported before. -/
def Outcome.after (reported : List α) : Outcome F α → Outcome F α
  | .running cursor items => .running cursor (reported ++ items)
  | .ended items => .ended (reported ++ items)
  | .failed fault => .failed fault

/-- What has been reported, unless the loop has failed. -/
def Outcome.result : Outcome F α → Except F (List α)
  | .running _ reported | .ended reported => .ok reported
  | .failed fault => .error fault

/-- The items of a round, and those of the rounds that are still to come. -/
def Outcome.followed (later : Nat → Except F (List α)) : Outcome F α → Except F (List α)
  | .running cursor items => (later cursor).map (items ++ ·)
  | .ended items => .ok items
  | .failed fault => .error fault

namespace Loop
variable {ρ F α : Type} (loop : Loop ρ F α)

/-- A loop that is over reads no reply. -/
def feed : Outcome F α → ρ → Outcome F α
  | .running cursor reported, reply => (loop.round cursor reply).after reported
  | outcome, _ => outcome

def run (replies : List ρ) : Outcome F α := replies.foldl loop.feed (.running 0 [])

/-- The replies after which a loop is to end: no page, or a page that names 0. -/
def Last (reply : ρ) : Prop := ∀ page, loop.page reply = some page → page.1 = 0

/-- The loop never fails, and each reply that is to be the last one ends it. -/
structure Terminates (replies : List ρ) : Prop where
  unfailing : ∀ front, front <+: replies → ∀ fault, loop.run front ≠ .failed fault
  stops : ∀ front reply, front ++ [reply] <+: replies → loop.Last reply →
    ∃ reported, loop.run (front ++ [reply]) = .ended reported

/-- The replies are a whole iteration with these items. -/
inductive Completes : List ρ → List α → Prop where
  | final (last : loop.page reply = some (0, .ok items)) : Completes [reply] items
  | page (more : loop.page reply = some (next, .ok items)) (goesOn : next ≠ 0)
      (rest : Completes replies later) :
      Completes (reply :: replies) (items ++ later)

/-- The cursor that a page leaves, from which the next round goes on. -/
def cursorAfter (front : List ρ) : Nat := ((front.getLast?.bind loop.page).map Prod.fst).getD 0

/-- What a loop needs of a reply that it reads after nothing but pages. -/
def Good (front : List ρ) (reply : ρ) : Prop :=
  match loop.page reply with
  | some (_, content) => ∃ items, content = .ok items
  | none => ∃ items, loop.otherwise (loop.cursorAfter front) reply = .ended items

/-- Every reply up to the last is good. -/
def Served (replies : List ρ) : Prop :=
  ∀ front reply, front ++ [reply] <+: replies → (∀ earlier ∈ front, ¬ loop.Last earlier) →
    loop.Good front reply

variable {loop} {replies front : List ρ} {reply : ρ}

theorem run_snoc (front : List ρ) (reply : ρ) :
    loop.run (front ++ [reply]) = loop.feed (loop.run front) reply := by
  rw [run, List.foldl_append]
  rfl

theorem feeds_ended (replies : List ρ) (reported : List α) :
    replies.foldl loop.feed (.ended reported) = .ended reported := by
  induction replies with
  | nil => rfl
  | cons reply replies ih => exact ih

theorem feeds_failed (replies : List ρ) (fault : F) :
    replies.foldl loop.feed (.failed fault) = .failed fault := by
  induction replies with
  | nil => rfl
  | cons reply replies ih => exact ih

theorem map_append (reported items : List α) (later : Except F (List α)) :
    (later.map (items ++ ·)).map (reported ++ ·) = later.map (reported ++ items ++ ·) := by
  cases later with
  | error fault => rfl
  | ok later => exact congrArg Except.ok (List.append_assoc reported items later).symm

theorem feeds_result {f : Nat → List ρ → Except F (List α)} (nil : ∀ cursor, f cursor [] = .ok [])
    (cons : ∀ cursor reply replies, f cursor (reply :: replies) =
      (loop.round cursor reply).followed (f · replies))
    (cursor : Nat) (reported : List α) :
    (replies.foldl loop.feed (.running cursor reported)).result =
      (f cursor replies).map (reported ++ ·) := by
  induction replies generalizing cursor reported with
  | nil =>
    rw [nil]
    exact congrArg Except.ok (List.append_nil reported).symm
  | cons reply replies ih =>
    rw [List.foldl_cons, cons, feed]
    cases loop.round cursor reply with
    | running next items =>
      exact (ih next (reported ++ items)).trans (map_append reported items _).symm
    | ended items => exact congrArg Outcome.result (feeds_ended replies (reported ++ items))
    | failed fault => exact congrArg Outcome.result (feeds_failed replies fault)

/-- A function that takes the replies apart as the loop does gives what the loop reports. -/
theorem run_result {f : Nat → List ρ → Except F (List α)} (nil : ∀ cursor, f cursor [] = .ok [])
    (cons : ∀ cursor reply replies,
    f cursor (reply :: replies) = (loop.round cursor reply).followed (f · replies)) :
    (loop.run replies).result = f 0 replies := by
  rw [run, feeds_result nil cons]
  cases f 0 replies <;> rfl

theorem cursorAfter_snoc (paged : loop.page reply = some (next, content)) (front : List ρ) :
    loop.cursorAfter (front ++ [reply]) = next := by
  simp [cursorAfter, paged]

/-- Only the first round has the cursor 0. -/
theorem cursorAfter_eq_zero_iff (pages : ∀ earlier ∈ front, ¬ loop.Last earlier) :
    loop.cursorAfter front = 0 ↔ front = [] := by
  cases front using List.reverseRecOn with
  | nil => exact iff_of_true rfl rfl
  | append_singleton front reply =>
    have more := pages reply (List.mem_append_right _ List.mem_cons_self)
    refine iff_of_false (fun zero => more fun page paged => ?_) (by simp)
    have next : loop.cursorAfter (front ++ [reply]) = page.1 := cursorAfter_snoc paged front
    exact next.symm.trans zero

theorem last_of_page (paged : loop.page reply = some (next, content)) :
    loop.Last reply ↔ next = 0 := by
  constructor
  · exact fun last => last _ paged
  · rintro rfl page same
    cases Option.some.inj (paged.symm.trans same)
    rfl

theorem last_of_none (unpaged : loop.page reply = none) : loop.Last reply := by
  intro page same
  rw [unpaged] at same
  contradiction

theorem exists_page (more : ¬ loop.Last reply) :
    ∃ next content, loop.page reply = some (next, content) ∧ next ≠ 0 := by
  cases paged : loop.page reply with
  | none => exact absurd (last_of_none paged) more
  | some page => exact ⟨page.1, page.2, rfl, fun zero => more ((last_of_page paged).mpr zero)⟩

/-- After nothing but pages a loop still runs, and a good reply keeps it running
just when it is not to be the last. -/
theorem feed_good (good : loop.Good front reply) (reported : List α) :
    (loop.Last reply ∧ ∃ all, loop.feed (.running (loop.cursorAfter front) reported) reply = .ended all) ∨
      (¬ loop.Last reply ∧ ∃ all,
        loop.feed (.running (loop.cursorAfter front) reported) reply =
          .running (loop.cursorAfter (front ++ [reply])) all) := by
  rw [Good] at good
  rw [feed, round]
  split at good
  · rename_i next content paged
    obtain ⟨items, rfl⟩ := good
    rw [paged, last_of_page paged, cursorAfter_snoc paged]
    by_cases zero : next = 0
    · exact .inl ⟨zero, reported ++ items, by simp only [zero, if_true, Outcome.after]⟩
    · exact .inr ⟨zero, reported ++ items, by simp only [zero, if_false, Outcome.after]⟩
  · rename_i unpaged
    obtain ⟨items, ended⟩ := good
    rw [unpaged]
    refine .inl ⟨last_of_none unpaged, reported ++ items, ?_⟩
    simp only [ended, Outcome.after]

/-- Where every reply is good, a loop runs until the last. -/
theorem Served.run (served : loop.Served replies) (inside : front <+: replies) :
    ((∀ earlier ∈ front, ¬ loop.Last earlier) ∧ ∃ reported,
      loop.run front = .running (loop.cursorAfter front) reported) ∨
      ((∃ earlier ∈ front, loop.Last earlier) ∧ ∃ reported, loop.run front = .ended reported) := by
  induction front using List.reverseRecOn with
  | nil => exact .inl ⟨fun earlier member => absurd member List.not_mem_nil, [], rfl⟩
  | append_singleton front reply ih =>
    rw [run_snoc]
    rcases ih ((List.prefix_append front [reply]).trans inside) with
      ⟨pages, reported, runs⟩ | ⟨⟨earlier, member, last⟩, reported, ended⟩
    · rw [runs]
      rcases feed_good (served front reply inside pages) reported with
        ⟨last, stopped⟩ | ⟨more, goesOn⟩
      · exact .inr ⟨⟨reply, List.mem_append_right _ List.mem_cons_self, last⟩, stopped⟩
      · refine .inl ⟨?_, goesOn⟩
        intro earlier member
        rcases List.mem_append.mp member with before | now
        · exact pages earlier before
        · cases List.mem_singleton.mp now
          exact more
    · rw [ended]
      exact .inr ⟨⟨earlier, List.mem_append_left _ member, last⟩, reported, rfl⟩

theorem Terminates.run (terminates : loop.Terminates replies) (inside : front <+: replies)
    (pages : ∀ earlier ∈ front, ¬ loop.Last earlier) :
    ∃ reported, loop.run front = .running (loop.cursorAfter front) reported := by
  induction front using List.reverseRecOn with
  | nil => exact ⟨[], rfl⟩
  | append_singleton front reply ih =>
    obtain ⟨reported, runs⟩ := ih ((List.prefix_append front [reply]).trans inside)
      fun earlier member => pages earlier (List.mem_append_left _ member)
    obtain ⟨next, content, paged, goesOn⟩ :=
      exists_page (pages reply (List.mem_append_right _ List.mem_cons_self))
    have unfailing := terminates.unfailing _ inside
    rw [run_snoc, runs, feed, round, paged] at unfailing ⊢
    cases content with
    | error fault => exact absurd rfl (unfailing fault)
    | ok items =>
      rw [cursorAfter_snoc paged]
      exact ⟨reported ++ items, by simp only [if_neg goesOn, Outcome.after]⟩

theorem ended_of_after {outcome : Outcome F α} (ended : outcome.after reported = .ended all) :
    ∃ items, outcome = .ended items := by
  cases outcome with
  | running cursor items => contradiction
  | ended items => exact ⟨items, rfl⟩
  | failed fault => contradiction

/-- A loop terminates just when every reply up to the last is good. -/
theorem terminates_iff (replies : List ρ) : loop.Terminates replies ↔ loop.Served replies := by
  constructor
  · intro terminates front reply inside pages
    obtain ⟨reported, runs⟩ :=
      terminates.run ((List.prefix_append front [reply]).trans inside) pages
    have unfailing := terminates.unfailing _ inside
    have stops := terminates.stops front reply inside
    rw [run_snoc, runs, feed, round] at unfailing stops
    rw [Good]
    cases paged : loop.page reply with
    | none =>
      rw [paged] at stops
      obtain ⟨all, ended⟩ := stops (last_of_none paged)
      exact ended_of_after ended
    | some page =>
      obtain ⟨next, content⟩ := page
      cases content with
      | error fault =>
        rw [paged] at unfailing
        exact absurd rfl (unfailing fault)
      | ok items => exact ⟨items, rfl⟩
  · intro served
    refine ⟨?_, ?_⟩
    · intro front inside fault failed
      rcases served.run inside with ⟨-, reported, runs⟩ | ⟨-, reported, ended⟩
      · rw [runs] at failed
        contradiction
      · rw [ended] at failed
        contradiction
    · intro front reply inside last
      rcases served.run inside with ⟨pages, -⟩ | ⟨-, ended⟩
      · exact absurd last (pages reply (List.mem_append_right _ List.mem_cons_self))
      · exact ended

theorem Completes.feeds (completes : loop.Completes replies items) (cursor : Nat)
    (reported : List α) :
    replies.foldl loop.feed (.running cursor reported) = .ended (reported ++ items) := by
  induction completes generalizing cursor reported with
  | final last =>
    rw [List.foldl_cons, List.foldl_nil, feed, round, last]
    rfl
  | page more goesOn rest ih =>
    rw [List.foldl_cons, feed, round, more]
    simp only [if_neg goesOn, Outcome.after]
    rw [ih, List.append_assoc]

theorem Completes.run (completes : loop.Completes replies items) :
    loop.run replies = .ended items :=
  completes.feeds 0 []

/-- A reply that leaves the cursor keeps a loop running for good. -/
theorem run_replicate (stuck : loop.round cursor reply = .running cursor [])
    (runs : loop.run front = .running cursor reported) (n : Nat) :
    loop.run (front ++ List.replicate n reply) = .running cursor reported := by
  induction n with
  | zero => rw [List.replicate_zero, List.append_nil, runs]
  | succ n ih =>
    rw [List.replicate_succ', ← List.append_assoc, run_snoc, ih, feed, stuck, Outcome.after,
      List.append_nil]

end Loop

/-- Pages that hold the items of a list without repetitions are that list in some
order just when they repeat nothing either. -/
theorem perm_iff_nodup {items target : List α} (distinct : target.Nodup)
    (same : ∀ item, item ∈ items ↔ item ∈ target) :
    items.Perm target ↔ items.Nodup :=
  ⟨fun perm => perm.nodup_iff.mpr distinct, fun nodup =>
    (List.perm_ext_iff_of_nodup nodup distinct).mpr same⟩

end Paging
