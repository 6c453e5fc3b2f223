import Gearsdk.Buffer
import Gearsdk.Qstring

/-! The growing buffer of the file logger. A value is written without a length
or a type, so that the reader has to ask for what was written. -/
namespace Gearsdk

/-- The array has `size` bytes; there is none before the first allocation. -/
structure Qbuffer where
  data : List UInt8
  index : Nat
  within : index ≤ data.length

namespace Qbuffer

def size (buffer : Qbuffer) : Nat := buffer.data.length

/-- The bytes of a new array are whatever the memory held. -/
def allocate (memory : List UInt8) : Qbuffer := ⟨memory, 0, Nat.zero_le _⟩

def seekToBegin (buffer : Qbuffer) : Qbuffer := { buffer with index := 0, within := Nat.zero_le _ }

def resizeTo (size : Nat) : Nat := if size = 0 then 4 * 8 else size * 2

theorem le_resizeTo (size : Nat) : size ≤ resizeTo size := by
  rw [resizeTo]
  split <;> omega

/-- The bytes of the array after `memcpy` of those before the index. -/
def grown (buffer : Qbuffer) : List UInt8 :=
  buffer.data.take buffer.index ++ List.replicate (resizeTo buffer.size - buffer.index) 0

theorem length_grown (buffer : Qbuffer) : buffer.grown.length = resizeTo buffer.size := by
  have within := Nat.le_trans buffer.within (le_resizeTo buffer.data.length)
  rw [grown, List.length_append, List.length_take_of_le buffer.within, List.length_replicate]
  exact Nat.add_sub_cancel' within

def doResizeIfRequired (buffer : Qbuffer) (bytesNeeded : Nat) : Qbuffer :=
  if buffer.index + bytesNeeded ≥ buffer.size then
    { data := buffer.grown
      index := buffer.index
      within := by
        rw [length_grown]
        exact Nat.le_trans buffer.within (le_resizeTo _) }
  else buffer

/-- What the overloads of `write` take. -/
inductive Value where
  | int32 (value : Int32)
  | uint32 (value : UInt32)
  | uint16 (value : UInt16)
  | uint8 (value : UInt8)
  | unsignedLong (value : UInt64)
  | block (data : List UInt8)
  | qstring (data : Qstring)
deriving DecidableEq

def Value.bytes : Value → List UInt8
  | .int32 value => Buffer.littleEndian 4 value.toUInt32.toNat
  | .uint32 value => Buffer.littleEndian 4 value.toNat
  | .uint16 value => Buffer.littleEndian 2 value.toNat
  | .uint8 value => Buffer.littleEndian 1 value.toNat
  | .unsignedLong value => Buffer.littleEndian 8 value.toNat
  | .block data | .qstring data => data

/-- What the overloads of `read` ask for. -/
inductive Kind where
  | uint32
  | uint16
  | uint8
  | unsignedLong
  | block (length : Nat)

def Kind.sizeOfType : Kind → Nat
  | .uint32 => 4
  | .uint16 => 2
  | .uint8 => 1
  | .unsignedLong => 8
  | .block length => length

def Kind.value : Kind → List UInt8 → Value
  | .uint32, bytes => .uint32 (UInt32.ofNat (Buffer.ofLittleEndian bytes))
  | .uint16, bytes => .uint16 (UInt16.ofNat (Buffer.ofLittleEndian bytes))
  | .uint8, bytes => .uint8 (UInt8.ofNat (Buffer.ofLittleEndian bytes))
  | .unsignedLong, bytes => .unsignedLong (UInt64.ofNat (Buffer.ofLittleEndian bytes))
  | .block _, bytes => .block bytes

/-- The read for a written value. Signed integers are read as unsigned ones, and
strings as blocks. -/
def Value.kind : Value → Kind
  | .int32 _ | .uint32 _ => .uint32
  | .uint16 _ => .uint16
  | .uint8 _ => .uint8
  | .unsignedLong _ => .unsignedLong
  | .block data | .qstring data => .block data.length

/-- A written value in the type of its reader. -/
def Value.asRead : Value → Value
  | .int32 value => .uint32 value.toUInt32
  | .qstring data => .block data
  | value => value

/-- Nothing is written when the bytes do not fit the array. -/
def write (buffer : Qbuffer) (value : Value) : Option Qbuffer :=
  let buffer := buffer.doResizeIfRequired value.bytes.length
  match wrote : Buffer.write buffer.data buffer.index value.bytes with
  | none => none
  | some data =>
      some
        { data := data
          index := buffer.index + value.bytes.length
          within := Buffer.length_write wrote ▸ Buffer.write_fits wrote }

def read (buffer : Qbuffer) (kind : Kind) : Option (Value × Qbuffer) :=
  if inside : buffer.index + kind.sizeOfType ≤ buffer.size then
    some (kind.value (Buffer.read buffer.data buffer.index kind.sizeOfType),
      { buffer with index := buffer.index + kind.sizeOfType, within := inside })
  else none

def writeAll (buffer : Qbuffer) : List Value → Option Qbuffer
  | [] => some buffer
  | value :: rest => (buffer.write value).bind fun buffer => buffer.writeAll rest

def readAll (buffer : Qbuffer) : List Kind → Option (List Value)
  | [] => some []
  | kind :: rest =>
    (buffer.read kind).bind fun (value, buffer) => (buffer.readAll rest).map (value :: ·)

/-- Every access is inside the array, and the values come back. -/
def RoundTrip (buffer : Qbuffer) (values : List Value) : Prop :=
  ∃ written, buffer.writeAll values = some written ∧
    written.seekToBegin.readAll (values.map Value.kind) = some (values.map Value.asRead)

/-- One doubling makes room for the bytes. -/
def Room (buffer : Qbuffer) (value : Value) : Prop :=
  if buffer.size = 0 then value.bytes.length ≤ 32
    else buffer.index + value.bytes.length ≤ 2 * buffer.size

/-- Every write finds room in the state before it. -/
def Rooms (buffer : Qbuffer) (values : List Value) : Prop :=
  ∀ before value after reached, values = before ++ value :: after →
    buffer.writeAll before = some reached → reached.Room value

/-! ### One write -/

@[simp] theorem doResizeIfRequired_index (buffer : Qbuffer) (bytesNeeded : Nat) :
    (buffer.doResizeIfRequired bytesNeeded).index = buffer.index := by
  rw [doResizeIfRequired]
  split <;> rfl

theorem doResizeIfRequired_take (buffer : Qbuffer) (bytesNeeded : Nat) :
    (buffer.doResizeIfRequired bytesNeeded).data.take buffer.index =
      buffer.data.take buffer.index := by
  rw [doResizeIfRequired]
  split
  · exact List.take_left' (List.length_take_of_le buffer.within)
  · rfl

/-- The array is large enough after the resize exactly when one doubling is enough. -/
theorem resized_iff (buffer : Qbuffer) (value : Value) :
    buffer.index + value.bytes.length ≤ (buffer.doResizeIfRequired value.bytes.length).size ↔
      buffer.Room value := by
  have within : buffer.index ≤ buffer.size := buffer.within
  rw [doResizeIfRequired, Room]
  by_cases full : buffer.index + value.bytes.length ≥ buffer.size
  · rw [if_pos full, size, length_grown, resizeTo]
    by_cases empty : buffer.size = 0
    · rw [if_pos empty, if_pos empty]
      omega
    · rw [if_neg empty, if_neg empty, Nat.mul_comm]
  · rw [if_neg full]
    by_cases empty : buffer.size = 0
    · omega
    · rw [if_neg empty]
      omega

theorem write_spec {buffer written : Qbuffer} (wrote : buffer.write value = some written) :
    written.data.take written.index = buffer.data.take buffer.index ++ value.bytes := by
  simp only [write] at wrote
  split at wrote
  · contradiction
  · rename_i data stored
    cases Option.some.inj wrote
    refine (Buffer.take_write stored).trans ?_
    rw [doResizeIfRequired_index, doResizeIfRequired_take]

/-- A write stays inside the array exactly when there is room. -/
theorem write_iff (buffer : Qbuffer) (value : Value) :
    (∃ written, buffer.write value = some written) ↔ buffer.Room value := by
  have fits := resized_iff buffer value
  simp only [write]
  split
  · rename_i outside
    refine iff_of_false ?_ fun room => ?_
    · rintro ⟨written, impossible⟩
      contradiction
    · have inside := fits.mpr room
      rw [Buffer.write_of_fits ((doResizeIfRequired_index buffer _).symm ▸ inside)] at outside
      contradiction
  · rename_i stored
    refine iff_of_true ⟨_, rfl⟩ (fits.mp ?_)
    have inside := Buffer.write_fits stored
    rwa [doResizeIfRequired_index] at inside

/-! ### One read -/

theorem length_bytes (value : Value) : value.bytes.length = value.kind.sizeOfType := by
  cases value with
  | int32 | uint32 | uint16 | uint8 | unsignedLong => exact Buffer.length_littleEndian _ _
  | block | qstring => rfl

theorem value_bytes (value : Value) : value.kind.value value.bytes = value.asRead := by
  cases value with
  | int32 value =>
    refine congrArg Value.uint32 ?_
    rw [Value.bytes, Buffer.ofLittleEndian_of_lt value.toUInt32.toNat_lt, UInt32.ofNat_toNat]
  | uint32 value =>
    refine congrArg Value.uint32 ?_
    rw [Value.bytes, Buffer.ofLittleEndian_of_lt value.toNat_lt, UInt32.ofNat_toNat]
  | uint16 value =>
    refine congrArg Value.uint16 ?_
    rw [Value.bytes, Buffer.ofLittleEndian_of_lt value.toNat_lt, UInt16.ofNat_toNat]
  | uint8 value =>
    refine congrArg Value.uint8 ?_
    rw [Value.bytes, Buffer.ofLittleEndian_of_lt value.toNat_lt, UInt8.ofNat_toNat]
  | unsignedLong value =>
    refine congrArg Value.unsignedLong ?_
    rw [Value.bytes, Buffer.ofLittleEndian_of_lt value.toNat_lt, UInt64.ofNat_toNat]
  | block | qstring => rfl

/-- The bytes of a value are read at the index. -/
theorem read_spec {buffer : Qbuffer} {value : Value}
    (next : value.bytes <+: buffer.data.drop buffer.index) :
    ∃ rest, buffer.read value.kind = some (value.asRead, rest) ∧
      rest.data.drop rest.index = (buffer.data.drop buffer.index).drop value.bytes.length := by
  have inside : buffer.index + value.kind.sizeOfType ≤ buffer.size := by
    have within : buffer.index ≤ buffer.size := buffer.within
    have length := next.length_le
    rw [List.length_drop, length_bytes] at length
    have room : value.kind.sizeOfType ≤ buffer.size - buffer.index := length
    omega
  have bytes : Buffer.read buffer.data buffer.index value.kind.sizeOfType = value.bytes := by
    rw [← length_bytes]
    exact (List.prefix_iff_eq_take.mp next).symm
  refine ⟨{ buffer with index := buffer.index + value.kind.sizeOfType, within := inside }, ?_, ?_⟩
  · rw [read, dif_pos inside, bytes, value_bytes]
  · rw [List.drop_drop, length_bytes]

/-! ### Sequences -/

theorem writeAll_take {buffer written : Qbuffer} {values : List Value}
    (wrote : buffer.writeAll values = some written) :
    written.data.take written.index = buffer.data.take buffer.index ++
      values.flatMap Value.bytes := by
  induction values generalizing buffer with
  | nil =>
    cases Option.some.inj wrote
    exact (List.append_nil _).symm
  | cons value rest ih =>
    obtain ⟨middle, first, later⟩ := Option.bind_eq_some_iff.mp wrote
    rw [ih later, write_spec first, List.flatMap_cons, List.append_assoc]

theorem readAll_spec {buffer : Qbuffer} {values : List Value}
    (next : values.flatMap Value.bytes <+: buffer.data.drop buffer.index) :
    buffer.readAll (values.map Value.kind) = some (values.map Value.asRead) := by
  induction values generalizing buffer with
  | nil => rfl
  | cons value rest ih =>
    rw [List.flatMap_cons] at next
    obtain ⟨after, first, place⟩ := read_spec ((List.prefix_append _ _).trans next)
    have later : rest.flatMap Value.bytes <+: after.data.drop after.index := by
      obtain ⟨tail, whole⟩ := next
      rw [place, ← whole, List.append_assoc, List.drop_left]
      exact List.prefix_append _ tail
    rw [List.map_cons, List.map_cons, readAll, first, Option.bind_some]
    exact congrArg (Option.map (value.asRead :: ·)) (ih later)

/-- What has been written is read back from the beginning. -/
theorem roundTrip_of_writeAll {buffer written : Qbuffer} (start : buffer.index = 0)
    (wrote : buffer.writeAll values = some written) : buffer.RoundTrip values := by
  refine ⟨written, wrote, readAll_spec ?_⟩
  have bytes := writeAll_take wrote
  rw [start, List.take_zero, List.nil_append] at bytes
  exact ⟨_, (congrArg (· ++ _) bytes.symm).trans (List.take_append_drop _ _)⟩

/-- All writes stay inside the array exactly when each of them finds room. -/
theorem writeAll_iff (buffer : Qbuffer) (values : List Value) :
    (∃ written, buffer.writeAll values = some written) ↔ buffer.Rooms values := by
  induction values generalizing buffer with
  | nil => exact iff_of_true ⟨buffer, rfl⟩ fun before value after _ parts => by simp at parts
  | cons value rest ih =>
    constructor
    · rintro ⟨written, wrote⟩
      obtain ⟨middle, first, later⟩ := Option.bind_eq_some_iff.mp wrote
      intro before next after reached parts ran
      cases before with
      | nil =>
        obtain ⟨rfl, _⟩ := List.cons.inj parts
        cases Option.some.inj ran
        exact (write_iff buffer value).mp ⟨middle, first⟩
      | cons earlier before =>
        obtain ⟨rfl, later_parts⟩ := List.cons.inj parts
        rw [writeAll, first, Option.bind_some] at ran
        exact (ih middle).mp ⟨written, later⟩ before next after reached later_parts ran
    · intro rooms
      obtain ⟨middle, first⟩ := (write_iff buffer value).mpr (rooms [] value rest buffer rfl rfl)
      obtain ⟨written, later⟩ := (ih middle).mpr fun before next after reached parts ran =>
        rooms (value :: before) next after reached (congrArg (value :: ·) parts)
          (by rwa [writeAll, first, Option.bind_some])
      exact ⟨written, by rwa [writeAll, first, Option.bind_some]⟩

/-- From every initial array, the accesses of a sequence of writes and reads stay
inside the array and the values come back exactly when every write finds room
after one doubling. -/
theorem values_return_iff (memory : List UInt8) (values : List Value) :
    (allocate memory).RoundTrip values ↔ (allocate memory).Rooms values := by
  rw [← writeAll_iff]
  constructor
  · rintro ⟨written, wrote, _⟩
    exact ⟨written, wrote⟩
  · rintro ⟨written, wrote⟩
    exact roundTrip_of_writeAll rfl wrote

/-- Nine bytes do not fit an array of four that is doubled once. -/
theorem one_doubling_is_short :
    ¬ (allocate [0, 0, 0, 0]).RoundTrip [.block [1, 2, 3, 4, 5, 6, 7, 8, 9]] := by
  rintro ⟨written, wrote, _⟩
  have refused : ((allocate [0, 0, 0, 0]).writeAll [.block [1, 2, 3, 4, 5, 6, 7, 8, 9]]).isSome =
    false := by decide
  rw [wrote] at refused
  contradiction

end Qbuffer
end Gearsdk
