import Gearsdk.Buffer
import Gearsdk.Qstring

/-! The storage of `utstring.h`: a growing array with a text and its terminator. The
bytes behind them are whatever the memory held. What is formatted has less than
2^31 - 1 bytes, so that the `int` of `vsnprintf` holds its length. -/
namespace Gearsdk

/-- `n` is the length of `d`. -/
structure UtString where
  d : List UInt8
  i : Nat

namespace UtString

inductive Fault where
  | outOfBounds
  | endless
  deriving DecidableEq

/-- The bytes that `realloc` leaves behind those that it keeps. -/
abbrev Memory := Nat → UInt8

def n (s : UtString) : Nat := s.d.length

def inBounds (access : Option α) : Except Fault α := access.elim (.error .outOfBounds) .ok

def reserve (s : UtString) (amt : Nat) (memory : Memory) : UtString :=
  if s.n - s.i < amt then { s with d := s.d ++ (List.range amt).map memory } else s

/-- `utstring_new` with `utstring_init`. -/
def new (memory : Memory) : Except Fault UtString := do
  let s := reserve { d := [], i := 0 } 100 memory
  let d ← inBounds (Buffer.write s.d 0 [0])
  .ok { s with d }

def clear (s : UtString) : Except Fault UtString := do
  let d ← inBounds (Buffer.write s.d 0 [0])
  .ok { d, i := 0 }

/-- `if (l) memcpy(..)` -/
def copy (s : UtString) (b : List UInt8) : Except Fault (List UInt8) :=
  if b = [] then .ok s.d else inBounds (Buffer.write s.d s.i b)

/-- The part after `utstring_reserve` of both macros that append. -/
def append (s : UtString) (b : List UInt8) : Except Fault UtString := do
  let d ← s.copy b
  let i := s.i + b.length
  let d ← inBounds (Buffer.write d i [0])
  .ok { d, i }

def bincpy (s : UtString) (b : List UInt8) (memory : Memory) : Except Fault UtString :=
  (s.reserve (b.length + 1) memory).append b

def concat (dst src : UtString) (memory : Memory) : Except Fault UtString :=
  (dst.reserve (src.i + 1) memory).append (src.d.take src.i)

/-- `utstring_concat` of a string with itself: the array has moved when it is read. -/
def concatSelf (s : UtString) (memory : Memory) : Except Fault UtString :=
  let s := s.reserve (s.i + 1) memory
  s.append (s.d.take s.i)

/-- What `vsnprintf` writes into the rest of the array. -/
def vsnprintf (s : UtString) (text : List UInt8) : Except Fault UtString := do
  let room := s.n - s.i
  if room = 0 then .ok s
  else
    let d ← inBounds (Buffer.write s.d s.i (text.take (room - 1) ++ [0]))
    .ok { s with d }

/-- `utstring_printf_va`. `none` is a format that fails every time. -/
def printfVa (formatted : Option (List UInt8)) (memory : Memory) :
    (rounds : Nat) → UtString → Except Fault UtString
  | 0, _ => .error .endless
  | rounds + 1, s =>
      match formatted with
      | none => printfVa formatted memory rounds (s.reserve (s.n * 2) memory)
      | some text => do
          let s ← s.vsnprintf text
          if text.length < s.n - s.i then .ok { s with i := s.i + text.length }
          else printfVa formatted memory rounds (s.reserve (text.length + 1) memory)

/-- `utstring_body`, read as a C string. -/
def body (s : UtString) : Qstring := Qstring.cString s.d

inductive Op where
  | bincpy (b : List UInt8)
  | concat (src : List UInt8)
  | concatSelf
  | printf (formatted : Option (List UInt8))
  | reserve (amt : Nat)
  | clear

/-- The source of `concat` is another string that holds the text and nothing else. -/
def apply (memory : Memory) (rounds : Nat) (s : UtString) : Op → Except Fault UtString
  | .bincpy b => s.bincpy b memory
  | .concat src => s.concat { d := src ++ [0], i := src.length } memory
  | .concatSelf => s.concatSelf memory
  | .printf formatted => s.printfVa formatted memory rounds
  | .reserve amt => .ok (s.reserve amt memory)
  | .clear => s.clear

/-- The same on texts. -/
def denote (text : List UInt8) : Op → List UInt8
  | .bincpy b | .concat b => text ++ b
  | .concatSelf => text ++ text
  | .printf formatted => text ++ formatted.getD []
  | .reserve _ => text
  | .clear => []

/-- Formats that fail are tried again for ever. -/
def Op.Ends : Op → Prop
  | .printf formatted => formatted ≠ none
  | _ => True

instance : DecidablePred Op.Ends
  | .printf formatted => inferInstanceAs (Decidable (formatted ≠ none))
  | .bincpy _ | .concat _ | .concatSelf | .reserve _ | .clear => .isTrue trivial

/-! ### The text and its terminator -/

/-- The array begins with the text and a terminator. -/
structure Stores (s : UtString) (text : List UInt8) : Prop where
  index : s.i = text.length
  start : s.d.take (s.i + 1) = text ++ [0]

variable {s : UtString} {text b : List UInt8} {memory : Memory}

theorem Stores.fits (stores : s.Stores text) : s.i < s.d.length := by
  have length := congrArg List.length stores.start
  have index := stores.index
  rw [List.length_take, List.length_append, List.length_singleton] at length
  omega

theorem Stores.take (stores : s.Stores text) : s.d.take s.i = text := by
  have front := congrArg (List.take s.i) stores.start
  rwa [List.take_take, Nat.min_eq_left (Nat.le_succ _), stores.index, List.take_left,
    ← stores.index] at front

theorem Stores.body (stores : s.Stores text) : s.body = Qstring.cString text := by
  obtain ⟨rest, whole⟩ := List.take_prefix (s.i + 1) s.d
  rw [UtString.body, ← whole, stores.start, Qstring.cString, Qstring.cString, List.append_assoc,
    List.takeWhile_append]
  split
  · rename_i all
    rw [(List.takeWhile_prefix _).eq_of_length all]
    exact List.append_nil text
  · rfl

/-- There is as much room behind the text as was asked for. -/
theorem Stores.reserve (stores : s.Stores text) (amt : Nat) (memory : Memory) :
    (s.reserve amt memory).Stores text ∧ (s.reserve amt memory).i = s.i ∧
      s.i + amt ≤ (s.reserve amt memory).d.length := by
  have fits := stores.fits
  rw [UtString.reserve, n]
  split
  · refine ⟨⟨stores.index, ?_⟩, rfl, ?_⟩
    · change (s.d ++ (List.range amt).map memory).take (s.i + 1) = text ++ [0]
      rw [List.take_append_of_le_length fits]
      exact stores.start
    · rw [List.length_append, List.length_map, List.length_range]
      exact Nat.add_le_add_right (Nat.le_of_lt fits) amt
  · exact ⟨stores, rfl, by omega⟩

/-- A text and its terminator behind the text that is there. -/
theorem Stores.append (stores : s.Stores text) (room : s.i + (b.length + 1) ≤ s.d.length) :
    ∃ t, s.append b = .ok t ∧ t.Stores (text ++ b) := by
  have copied : ∃ d, s.copy b = .ok d ∧ d.length = s.d.length ∧
      d.take (s.i + b.length) = text ++ b := by
    rw [UtString.copy]
    by_cases empty : b = []
    · subst empty
      exact ⟨s.d, if_pos rfl, rfl, by rw [List.length_nil, Nat.add_zero, List.append_nil, stores.take]⟩
    · obtain ⟨d, wrote⟩ : ∃ d, Buffer.write s.d s.i b = some d :=
        ⟨_, Buffer.write_of_fits (by omega)⟩
      refine ⟨d, ?_, Buffer.length_write wrote, ?_⟩
      · rw [if_neg empty, wrote]
        rfl
      · rw [Buffer.take_write wrote, stores.take]
  obtain ⟨d, copy, length, front⟩ := copied
  obtain ⟨d', ended⟩ : ∃ d', Buffer.write d (s.i + b.length) [0] = some d' :=
    ⟨_, Buffer.write_of_fits (by rw [List.length_singleton]; omega)⟩
  have terminated := Buffer.take_write ended
  rw [front, List.length_singleton] at terminated
  refine ⟨{ d := d', i := s.i + b.length }, ?_, ?_, terminated⟩
  · rw [UtString.append, copy]
    simp only [bind, Except.bind, ended]
    rfl
  · rw [stores.index, List.length_append]

/-! ### Each operation -/

theorem stores_new (memory : Memory) : ∃ s, UtString.new memory = .ok s ∧ s.Stores [] := by
  obtain ⟨d, wrote⟩ : ∃ d, Buffer.write ((List.range 100).map memory) 0 [0] = some d :=
    ⟨_, Buffer.write_of_fits (by rw [List.length_map, List.length_range]; decide)⟩
  refine ⟨{ d, i := 0 }, ?_, rfl, Buffer.take_write wrote⟩
  rw [UtString.new]
  simp only [UtString.reserve, n, List.length_nil, Nat.sub_self, Nat.zero_lt_succ, if_true,
    List.nil_append, wrote]
  rfl

theorem Stores.clear (stores : s.Stores text) : ∃ t, s.clear = .ok t ∧ t.Stores [] := by
  have fits := stores.fits
  obtain ⟨d, wrote⟩ : ∃ d, Buffer.write s.d 0 [0] = some d :=
    ⟨_, Buffer.write_of_fits (by rw [List.length_singleton]; omega)⟩
  refine ⟨{ d, i := 0 }, ?_, rfl, Buffer.take_write wrote⟩
  rw [UtString.clear, wrote]
  rfl

theorem Stores.bincpy (stores : s.Stores text) (b : List UInt8) (memory : Memory) :
    ∃ t, s.bincpy b memory = .ok t ∧ t.Stores (text ++ b) := by
  obtain ⟨reserved, index, room⟩ := stores.reserve (b.length + 1) memory
  exact reserved.append (index.symm ▸ room)

theorem Stores.concat (stores : s.Stores text) {src : UtString} (other : src.Stores b)
    (memory : Memory) :
    ∃ t, s.concat src memory = .ok t ∧ t.Stores (text ++ b) := by
  obtain ⟨reserved, index, room⟩ := stores.reserve (src.i + 1) memory
  rw [other.index] at room
  rw [UtString.concat, other.take, other.index]
  rw [other.index] at reserved index
  exact reserved.append (index.symm ▸ room)

theorem Stores.concatSelf (stores : s.Stores text) (memory : Memory) :
    ∃ t, s.concatSelf memory = .ok t ∧ t.Stores (text ++ text) := by
  obtain ⟨reserved, index, room⟩ := stores.reserve (s.i + 1) memory
  rw [UtString.concatSelf, reserved.take]
  refine reserved.append ?_
  rw [index, ← stores.index]
  exact room

/-- The text without its terminator, as an attempt that does not fit leaves it. -/
structure Begins (s : UtString) (text : List UInt8) : Prop where
  index : s.i = text.length
  fits : s.i < s.d.length
  front : s.d.take s.i = text

theorem Stores.begins (stores : s.Stores text) : s.Begins text :=
  ⟨stores.index, stores.fits, stores.take⟩

theorem Begins.reserve (begins : s.Begins text) (amt : Nat) (memory : Memory) :
    (s.reserve amt memory).Begins text ∧ s.i + amt ≤ (s.reserve amt memory).d.length := by
  have fits := begins.fits
  rw [UtString.reserve, n]
  split
  · have length : (s.d ++ (List.range amt).map memory).length = s.d.length + amt := by
      rw [List.length_append, List.length_map, List.length_range]
    refine ⟨⟨begins.index, by dsimp only; omega, ?_⟩, by dsimp only; omega⟩
    change (s.d ++ (List.range amt).map memory).take s.i = text
    rw [List.take_append_of_le_length (Nat.le_of_lt fits), begins.front]
  · exact ⟨begins, by omega⟩

/-- A text that does not fit leaves the text before it alone. -/
theorem Begins.vsnprintf (begins : s.Begins text) (more : List UInt8) :
    ∃ t, s.vsnprintf more = .ok t ∧ t.Begins text ∧ t.d.length = s.d.length ∧
      (more.length < s.d.length - s.i →
        ({ t with i := t.i + more.length } : UtString).Stores (text ++ more)) := by
  have fits := begins.fits
  have some_room : ¬ s.n - s.i = 0 := by
    rw [n]
    omega
  have length : (more.take (s.n - s.i - 1) ++ [0]).length ≤ s.n - s.i := by
    rw [List.length_append, List.length_take, List.length_singleton]
    omega
  obtain ⟨d, wrote⟩ : ∃ d, Buffer.write s.d s.i (more.take (s.n - s.i - 1) ++ [0]) = some d :=
    ⟨_, Buffer.write_of_fits (by rw [n] at length ⊢; omega)⟩
  have start := Buffer.take_write wrote
  have same := Buffer.length_write wrote
  have front : d.take s.i = text := by
    have kept := congrArg (List.take s.i) start
    rw [List.take_take, Nat.min_eq_left (by omega), begins.front, begins.index,
      List.take_left] at kept
    rw [begins.index]
    exact kept
  refine ⟨{ s with d }, ?_, ⟨begins.index, same.symm ▸ fits, front⟩, same, fun fitting => ?_⟩
  · rw [UtString.vsnprintf]
    simp only [if_neg some_room, wrote]
    rfl
  · have whole : more.take (s.n - s.i - 1) = more := List.take_of_length_le (by rw [n]; omega)
    rw [whole, begins.front, List.length_append, List.length_singleton,
      ← List.append_assoc] at start
    refine ⟨?_, start⟩
    rw [List.length_append, begins.index]

/-- The second attempt has the room that the first one asked for. -/
theorem Stores.printfVa (stores : s.Stores text) (more : List UInt8) (memory : Memory)
    (rounds : Nat) :
    ∃ t, s.printfVa (some more) memory (rounds + 2) = .ok t ∧ t.Stores (text ++ more) := by
  obtain ⟨t, printed, begins, length, stored⟩ := stores.begins.vsnprintf more
  have index : t.i = s.i := begins.index.trans stores.index.symm
  have first : s.printfVa (some more) memory (rounds + 2) =
      if more.length < t.n - t.i then .ok { t with i := t.i + more.length }
      else (t.reserve (more.length + 1) memory).printfVa (some more) memory (rounds + 1) := by
    rw [UtString.printfVa, printed]
    rfl
  rw [first]
  by_cases fitting : more.length < t.n - t.i
  · rw [if_pos fitting]
    exact ⟨_, rfl, stored (by rw [n, length, index] at fitting; exact fitting)⟩
  · rw [if_neg fitting]
    obtain ⟨reserved, room⟩ := begins.reserve (more.length + 1) memory
    have index' : (t.reserve (more.length + 1) memory).i = t.i :=
      reserved.index.trans begins.index.symm
    obtain ⟨t', printed', begins', length', stored'⟩ := reserved.vsnprintf more
    have index'' : t'.i = t.i := begins'.index.trans begins.index.symm
    have second : (t.reserve (more.length + 1) memory).printfVa (some more) memory (rounds + 1) =
        if more.length < t'.n - t'.i then .ok { t' with i := t'.i + more.length }
        else (t'.reserve (more.length + 1) memory).printfVa (some more) memory rounds := by
      rw [UtString.printfVa, printed']
      rfl
    have enough : more.length < t'.n - t'.i := by
      rw [n, length', index'']
      omega
    rw [second, if_pos enough]
    exact ⟨_, rfl, stored' (by omega)⟩

theorem printfVa_none (s : UtString) (memory : Memory) (rounds : Nat) :
    s.printfVa none memory rounds = .error .endless := by
  induction rounds generalizing s with
  | zero => rfl
  | succ rounds ih => exact ih _

theorem Stores.apply (stores : s.Stores text) (memory : Memory) (rounds : Nat) (op : Op)
    (ends : op.Ends) :
    ∃ t, s.apply memory (rounds + 2) op = .ok t ∧ t.Stores (denote text op) := by
  cases op with
  | bincpy b => exact stores.bincpy b memory
  | concat src =>
    have other : ({ d := src ++ [0], i := src.length } : UtString).Stores src := by
      refine ⟨rfl, List.take_of_length_le ?_⟩
      rw [List.length_append, List.length_singleton]
    exact stores.concat other memory
  | concatSelf => exact stores.concatSelf memory
  | printf formatted =>
    obtain ⟨more, rfl⟩ := Option.ne_none_iff_exists'.mp ends
    exact stores.printfVa more memory rounds
  | reserve amt => exact ⟨_, rfl, (stores.reserve amt memory).1⟩
  | clear => exact stores.clear

theorem apply_error (s : UtString) (memory : Memory) (rounds : Nat) (op : Op) (fails : ¬ op.Ends) :
    s.apply memory rounds op = .error .endless := by
  cases op with
  | printf formatted =>
    obtain rfl : formatted = none := not_not.mp fails
    exact printfVa_none s memory rounds
  | bincpy | concat | concatSelf | reserve | clear => exact absurd trivial fails

theorem Stores.foldlM (stores : s.Stores text) (memory : Memory) (rounds : Nat) (ops : List Op) :
    (if ∀ op ∈ ops, op.Ends then
      ∃ t, ops.foldlM (UtString.apply memory (rounds + 2)) s = .ok t ∧
        t.Stores (ops.foldl denote text)
    else ops.foldlM (UtString.apply memory (rounds + 2)) s = .error .endless) := by
  induction ops generalizing s text with
  | nil =>
    rw [if_pos (List.forall_mem_nil _)]
    exact ⟨s, rfl, stores⟩
  | cons op rest ih =>
    rw [List.foldlM_cons, List.foldl_cons]
    by_cases ends : op.Ends
    · obtain ⟨t, applied, stores'⟩ := stores.apply memory rounds op ends
      have later := ih stores'
      simp only [List.forall_mem_cons, ends, true_and]
      rw [applied]
      exact later
    · rw [if_neg fun all => ends (all op List.mem_cons_self),
        apply_error s memory (rounds + 2) op ends]
      rfl

/-- Whatever is done to a new string, nothing is written outside its array, and the
array holds the text that the same operations make of a list, with a terminator behind
it. Only a format that fails every time does not come to an end. -/
theorem storage_refines_text (memory : Memory) (rounds : Nat) (ops : List Op) :
    ∃ s, UtString.new memory = .ok s ∧
      (if ∀ op ∈ ops, op.Ends then
        ∃ t, ops.foldlM (apply memory (rounds + 2)) s = .ok t ∧
          t.d.take (t.i + 1) = ops.foldl denote [] ++ [0] ∧
          t.i = (ops.foldl denote []).length ∧ t.body = Qstring.cString (ops.foldl denote [])
      else ops.foldlM (apply memory (rounds + 2)) s = .error .endless) := by
  obtain ⟨s, made, stores⟩ := stores_new memory
  have whole := stores.foldlM memory rounds ops
  refine ⟨s, made, ?_⟩
  by_cases all : ∀ op ∈ ops, op.Ends
  · rw [if_pos all] at whole ⊢
    obtain ⟨t, ran, stored⟩ := whole
    exact ⟨t, ran, stored.start, stored.index, stored.body⟩
  · rw [if_neg all] at whole ⊢
    exact whole

end UtString
end Gearsdk
