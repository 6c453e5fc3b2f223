import Mathlib.Algebra.Group.Nat.Defs

/-! Arrays of a fixed length that are written in place. A write outside the
array does not happen. Integers are written with their lowest byte first. -/
namespace Buffer
variable {α : Type} {buf buf' : List α} {start : Nat} {values : List α}

def write (buf : List α) (start : Nat) (values : List α) : Option (List α) :=
  if start + values.length ≤ buf.length then
    some (buf.take start ++ values ++ buf.drop (start + values.length))
  else none

def read (buf : List α) (start length : Nat) : List α := (buf.drop start).take length

theorem write_fits (wrote : write buf start values = some buf') :
    start + values.length ≤ buf.length := by
  simp only [write] at wrote
  split at wrote
  · assumption
  · cases wrote

theorem write_of_fits (fits : start + values.length ≤ buf.length) :
    write buf start values = some (buf.take start ++ values ++ buf.drop (start + values.length)) :=
  if_pos fits

theorem length_write (wrote : write buf start values = some buf') : buf'.length = buf.length := by
  have fits := write_fits wrote
  rw [write_of_fits fits] at wrote
  cases wrote
  simp only [List.length_append, List.length_take, List.length_drop]
  omega

theorem read_append (buf : List α) (start first second : Nat) :
    read buf start (first + second) = read buf start first ++ read buf (start + first) second := by
  simp only [read, List.take_add, List.drop_drop]

/-- What has been written is read back. -/
theorem read_write (wrote : write buf start values = some buf') :
    read buf' start values.length = values := by
  have fits := write_fits wrote
  rw [write_of_fits fits] at wrote
  cases wrote
  have before : (buf.take start).length = start := by
    rw [List.length_take]
    omega
  rw [read, List.append_assoc, List.drop_left' before]
  exact List.take_left' rfl

theorem take_write (wrote : write buf start values = some buf') :
    buf'.take (start + values.length) = buf.take start ++ values := by
  have fits := write_fits wrote
  rw [write_of_fits fits] at wrote
  cases wrote
  refine List.take_left' ?_
  rw [List.length_append, List.length_take_of_le (Nat.le_of_add_right_le fits)]

/-- What lies before a write stays as it was. -/
theorem read_write_before (wrote : write buf start values = some buf')
    (below : offset + length ≤ start) :
    read buf' offset length = read buf offset length := by
  have fits := write_fits wrote
  rw [write_of_fits fits] at wrote
  cases wrote
  have before : offset ≤ (buf.take start).length := by
    rw [List.length_take]
    omega
  have inside : length ≤ ((buf.take start).drop offset).length := by
    rw [List.length_drop, List.length_take]
    omega
  rw [read, read, List.append_assoc, List.drop_append_of_le_length before,
    List.take_append_of_le_length inside, List.drop_take, List.take_take,
    Nat.min_eq_left (by omega)]

/-- A write at the start spares a reading there exactly when it repeats what stood there. -/
theorem read_write_start_iff (wrote : write buf 0 values = some buf') (n : Nat) :
    read buf' 0 n = read buf 0 n ↔ values.take n <+: buf := by
  have fits := write_fits wrote
  rw [write_of_fits fits] at wrote
  cases wrote
  rw [Nat.zero_add] at fits
  have length : (buf.take values.length).length = values.length := List.length_take_of_le fits
  have before := calc
    read buf 0 n = (buf.take values.length ++ buf.drop values.length).take n := by
      rw [List.take_append_drop]
      rfl
    _ = (buf.take values.length).take n ++ (buf.drop values.length).take (n - values.length) := by
      rw [List.take_append, length]
  have after := calc
    read (buf.take 0 ++ values ++ buf.drop (0 + values.length)) 0 n =
      (values ++ buf.drop values.length).take n := by
      rw [Nat.zero_add]
      rfl
    _ = values.take n ++ (buf.drop values.length).take (n - values.length) := List.take_append
  rw [before, after, List.append_cancel_right_eq, List.prefix_iff_eq_take, List.length_take,
    List.take_take]

/-- A part of what was read is read on its own. -/
theorem read_of_read (content : read buf start length = values) (offset : Nat)
    (inside : offset + count ≤ length) :
    read buf (start + offset) count = read values offset count := by
  subst content
  rw [read, read, read, List.drop_take, List.take_take, Nat.min_eq_left (by omega), List.drop_drop]

theorem getD_of_read (content : read buf start length = values) (offset : Nat)
    (inside : offset < length) (default : α) :
    buf.getD (start + offset) default = values.getD offset default := by
  subst content
  simp only [List.getD_eq_getElem?_getD, read, List.getElem?_take, if_pos inside,
    List.getElem?_drop]

def littleEndian : (width : Nat) → Nat → List UInt8
  | 0, _ => []
  | width + 1, value => UInt8.ofNat value :: littleEndian width (value / 256)

def ofLittleEndian : List UInt8 → Nat
  | [] => 0
  | byte :: rest => byte.toNat + 256 * ofLittleEndian rest

@[simp] theorem length_littleEndian (width value : Nat) :
    (littleEndian width value).length = width := by
  induction width generalizing value with
  | zero => rfl
  | succ width ih => rw [littleEndian, List.length_cons, ih]

theorem ofLittleEndian_littleEndian (width value : Nat) :
    ofLittleEndian (littleEndian width value) = value % 256 ^ width := by
  induction width generalizing value with
  | zero => exact (Nat.mod_one value).symm
  | succ width ih =>
    have split : value % 256 ^ (width + 1) = value % 256 + 256 * (value / 256 % 256 ^ width) := by
      rw [Nat.pow_succ', Nat.mod_mul]
    rw [littleEndian, ofLittleEndian, ih, UInt8.toNat_ofNat', split]

/-- An integer that fits its bytes is read back. -/
theorem ofLittleEndian_of_lt (fits : value < 256 ^ width) :
    ofLittleEndian (littleEndian width value) = value := by
  rw [ofLittleEndian_littleEndian, Nat.mod_eq_of_lt fits]

end Buffer
