import Gearsdk.Sha256.Standard

/-! A message that comes in pieces: the context holds the blocks that have been
compressed, and the start of the next one. -/
namespace Gearsdk.Sha256
open Blocks

variable {sc sc' : Context} {message data : List UInt8} {rounds : Nat}

/-- What a context knows of the message that it has been given. -/
structure Context.Holds (sc : Context) (message : List UInt8) : Prop where
  size : sc.buffer.length = 64
  room : sc.bufferLength < 64
  absorbed : (sc.hash, sc.buffer.take sc.bufferLength) =
    absorb 64 Standard.compress (hash0, []) message
  total : sc.totalLength = UInt64.ofNat (8 * message.length)

theorem holds_init {buffer : List UInt8} (size : buffer.length = 64) :
    (sha256Init buffer).Holds [] where
  size := size
  room := Nat.zero_lt_succ 63
  absorbed := rfl
  total := rfl

theorem Context.Holds.length_take (holds : sc.Holds message) :
    (sc.buffer.take sc.bufferLength).length = sc.bufferLength := by
  have size := holds.size
  have room := holds.room
  exact List.length_take_of_le (by omega)

/-- One round of the loop copies as much as there is room for. -/
theorem updateLoop_round (holds : sc.Holds message) (filled : data ≠ []) :
    ∃ sc' : Context, updateLoop (rounds + 1) sc data =
      updateLoop rounds sc' (data.drop (min (64 - sc.bufferLength) data.length)) ∧
      sc'.Holds (message ++ data.take (min (64 - sc.bufferLength) data.length)) := by
  obtain ⟨byte, bytes, rfl⟩ := List.exists_cons_of_ne_nil filled
  generalize copies : min (64 - sc.bufferLength) (byte :: bytes).length = bytesToCopy
  have size := holds.size
  have room := holds.room
  have kept := holds.length_take
  have positive : 0 < bytesToCopy := by
    rw [List.length_cons] at copies
    omega
  have length : ((byte :: bytes).take bytesToCopy).length = bytesToCopy :=
    List.length_take_of_le (by omega)
  have some_byte : (byte :: bytes).take bytesToCopy ≠ [] := by
    intro empty
    rw [empty, List.length_nil] at length
    omega
  obtain ⟨buffer, wrote⟩ : ∃ buffer,
    Buffer.write sc.buffer sc.bufferLength ((byte :: bytes).take bytesToCopy) = some buffer :=
    ⟨_, Buffer.write_of_fits (by omega)⟩
  have copied := Buffer.take_write wrote
  have same := Buffer.length_write wrote
  rw [length] at copied
  have total : sc.totalLength + UInt64.ofNat (bytesToCopy * 8) =
      UInt64.ofNat (8 * (message ++ (byte :: bytes).take bytesToCopy).length) := by
    rw [holds.total, ← UInt64.ofNat_add, List.length_append, length]
    congr 1
    omega
  have absorbed : absorb 64 Standard.compress (hash0, []) (message ++ (byte :: bytes).take bytesToCopy) =
      absorb 64 Standard.compress (sc.hash,
        sc.buffer.take sc.bufferLength) ((byte :: bytes).take bytesToCopy) := by
    rw [absorb_append, ← holds.absorbed]
  simp only [updateLoop, copies, wrote, Option.bind_eq_bind, Option.bind_some]
  by_cases full : sc.bufferLength + bytesToCopy = 64
  · refine ⟨_, rfl, ?_⟩
    rw [if_pos full]
    have whole : buffer = sc.buffer.take sc.bufferLength ++ (byte :: bytes).take bytesToCopy := by
      rw [← copied, List.take_of_length_le (by omega)]
    refine ⟨same.trans size, Nat.zero_lt_succ 63, ?_, total⟩
    rw [absorbed, absorb_full (by omega) some_byte, sha256Guts_eq, ← whole]
    rfl
  · refine ⟨_, rfl, ?_⟩
    rw [if_neg full]
    refine ⟨same.trans size, by dsimp only; omega, ?_, total⟩
    rw [absorbed, absorb_short (by omega), ← copied]

theorem updateLoop_holds (holds : sc.Holds message) (enough : data.length ≤ rounds) :
    ∃ sc' : Context, updateLoop rounds sc data = some sc' ∧ sc'.Holds (message ++ data) := by
  induction rounds generalizing sc message data with
  | zero =>
    obtain rfl := List.eq_nil_of_length_eq_zero (Nat.le_zero.mp enough)
    exact ⟨sc, rfl, by rwa [List.append_nil]⟩
  | succ rounds ih =>
    by_cases empty : data = []
    · subst empty
      exact ⟨sc, by rw [updateLoop], by rwa [List.append_nil]⟩
    · have room := holds.room
      have bytes := List.length_pos_iff.mpr empty
      obtain ⟨next, step, holds'⟩ := updateLoop_round holds empty
      have fewer : (data.drop (min (64 - sc.bufferLength) data.length)).length ≤ rounds := by
        rw [List.length_drop]
        omega
      obtain ⟨sc', rest, final⟩ := ih holds' fewer
      rw [List.append_assoc, List.take_append_drop] at final
      exact ⟨sc', step.trans rest, final⟩

/-- `sha256_update` stays inside the buffer. -/
theorem sha256Update_holds (holds : sc.Holds message) (data : List UInt8) :
    ∃ sc' : Context, sha256Update sc data = some sc' ∧ sc'.Holds (message ++ data) :=
  updateLoop_holds holds (Nat.le_refl _)

/-- Any number of pieces. -/
theorem foldlM_holds (holds : sc.Holds message) (pieces : List (List UInt8)) :
    ∃ sc' : Context, pieces.foldlM sha256Update sc = some sc' ∧
      sc'.Holds (message ++ pieces.flatten) := by
  induction pieces generalizing sc message with
  | nil => exact ⟨sc, rfl, by rwa [List.flatten_nil, List.append_nil]⟩
  | cons data pieces ih =>
    obtain ⟨next, updated, holds'⟩ := sha256Update_holds holds data
    obtain ⟨sc', rest, final⟩ := ih holds'
    rw [List.append_assoc, ← List.flatten_cons] at final
    exact ⟨sc', by rw [List.foldlM_cons, updated]; exact rest, final⟩

/-! ### The end -/

theorem length_lengthBytes (length : Nat) : (Standard.lengthBytes length).length = 8 := by
  rw [Standard.lengthBytes, List.length_map, List.length_range]

/-- The message with its padding consists of whole blocks. -/
theorem length_pad (message : List UInt8) :
    (Standard.pad message).length = 64 * ((Standard.pad message).length / 64) := by
  simp only [Standard.pad, List.length_append, List.length_cons, List.length_replicate,
    length_lengthBytes, Standard.zeros]
  omega

theorem absorb_length (hash : Words) (rest xs : List UInt8) (room : rest.length < 64) :
    (absorb 64 Standard.compress (hash, rest) xs).2.length = (rest.length + xs.length) % 64 := by
  induction xs generalizing hash rest with
  | nil => exact (Nat.mod_eq_of_lt room).symm
  | cons x xs ih =>
    rw [absorb, List.foldl_cons, ← absorb, feed, List.length_cons]
    split
    · rename_i full
      have empty := ih (Standard.compress hash (rest ++ [x])) [] (Nat.zero_lt_succ 63)
      rw [List.length_nil] at empty
      dsimp only at full
      rw [empty]
      omega
    · rename_i partial'
      have longer : (rest ++ [x]).length = rest.length + 1 := by
        rw [List.length_append, List.length_singleton]
      dsimp only at partial'
      rw [ih hash (rest ++ [x]) (by omega), longer]
      congr 1
      omega

/-- The place in the buffer is that of the next byte of the message in its block. -/
theorem Context.Holds.bufferLength_eq (holds : sc.Holds message) :
    sc.bufferLength = message.length % 64 := by
  have length := absorb_length hash0 [] message (Nat.zero_lt_succ 63)
  rw [← holds.absorbed, holds.length_take, List.length_nil, Nat.zero_add] at length
  exact length

/-- The padding that `sha256_final` copies is the one of the definition. -/
theorem padding_take {place length : Nat} (room : place = length % 64) :
    padding.take (if 64 < 120 - place then 120 - place - 64 else 120 - place) =
      0x80 :: List.replicate (Standard.zeros length) 0 := by
  have count : (if 64 < 120 - place then 120 - place - 64 else 120 - place) =
      Standard.zeros length + 1 := by
    rw [Standard.zeros]
    split <;> omega
  have few : Standard.zeros length ≤ 63 := by
    rw [Standard.zeros]
    omega
  rw [count, padding, List.take_succ_cons, List.take_replicate, Nat.min_eq_left few]

/-- `sha256_final` ends with the digest of all that has come. -/
theorem sha256Final_eq (holds : sc.Holds message) :
    sha256Final sc = some (Standard.digest message) := by
  obtain ⟨padded, copied, holds'⟩ :=
    sha256Update_holds holds (0x80 :: List.replicate (Standard.zeros message.length) 0)
  obtain ⟨sc', ended, holds''⟩ := sha256Update_holds holds' (Standard.lengthBytes message.length)
  have whole : message ++ 0x80 :: List.replicate (Standard.zeros message.length) 0 ++
      Standard.lengthBytes message.length = Standard.pad message := rfl
  have blocks : absorb 64 Standard.compress (hash0, []) (Standard.pad message) = _ :=
    absorb_blocks (Nat.zero_lt_succ 63) (length_pad message)
  have absorbed := holds''.absorbed
  rw [whole, blocks] at absorbed
  have hash : sc'.hash = _ := congrArg Prod.fst absorbed
  rw [sha256Final]
  simp only [padding_take holds.bufferLength_eq, copied, Option.bind_eq_bind, Option.bind_some,
    holds.total, bytesOf64_byteswap64, ended, hash]
  rfl

/-- However a message is cut into pieces, no piece is written outside the buffer and
the result is the SHA-256 digest of the whole. -/
theorem pieces_digest (buffer : List UInt8) (size : buffer.length = 64)
    (pieces : List (List UInt8)) :
    (pieces.foldlM sha256Update (sha256Init buffer)).bind sha256Final =
      some (Standard.digest pieces.flatten) := by
  obtain ⟨sc, updated, holds⟩ := foldlM_holds (holds_init size) pieces
  rw [updated, Option.bind_some]
  exact sha256Final_eq holds

/-- The first sample message in two pieces. -/
theorem pieces_digest_abc :
    (([[97],
    [98,
    99]] : List (List UInt8)).foldlM sha256Update (sha256Init (List.replicate 64 0))).bind sha256Final =
      some (Standard.digest [97, 98, 99]) :=
  pieces_digest (List.replicate 64 0) (by decide) [[97], [98, 99]]

end Gearsdk.Sha256
