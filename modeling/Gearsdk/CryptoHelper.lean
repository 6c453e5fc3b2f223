import Gearsdk.Sha256.Pieces

/-! `crypto_helper`: digests as text, of data alone and of data with a salt. Each
byte is printed with a terminator that the next one overwrites; the last one stays,
behind the digits. -/
namespace Gearsdk.CryptoHelper
open Sha256

def hexDigit (n : UInt8) : UInt8 := if n < 10 then 48 + n else 87 + n

/-- What `snprintf` writes for `"%02x"`. -/
def format02x (byte : UInt8) : List UInt8 := [hexDigit (byte / 16), hexDigit (byte % 16), 0]

/-- The loop that prints a digest. `out` is the array with what lies behind it;
`none` writes further. -/
def printHash : (i : Nat) → (hash out : List UInt8) → Option (List UInt8)
  | _, [], out => some out
  | i, byte :: hash, out => do
      let out ← Buffer.write out (i * 2) (format02x byte)
      printHash (i + 1) hash out

/-- `sha256` of `data.in`, in the field `out`; `buffer` is what the context has in it. -/
def sha256 (buffer data out : List UInt8) : Option (List UInt8) := do
  let foo ← sha256Update (sha256Init buffer) data
  let hash ← sha256Final foo
  printHash 0 hash out

/-- `sha256` with a salt. The same context serves twice. -/
def sha256Salted (buffer data salt dataOut out : List UInt8) : Option (List UInt8) := do
  let foo ← sha256Update (sha256Init buffer) data
  let dataHash ← sha256Final foo
  let dataOut ← printHash 0 dataHash dataOut
  let dataOutPlusSalt := dataOut.take 64 ++ salt
  let foo ← sha256Update (sha256Init foo.buffer) dataOutPlusSalt
  let hash ← sha256Final foo
  printHash 0 hash out

/-- The text of a digest. -/
def hexText (hash : List UInt8) : List UInt8 :=
  hash.flatMap fun byte => [hexDigit (byte / 16), hexDigit (byte % 16)]

variable {i : Nat} {hash out : List UInt8}

theorem length_hexText (hash : List UInt8) : (hexText hash).length = 2 * hash.length := by
  induction hash with
  | nil => rfl
  | cons byte hash ih =>
    rw [hexText, List.flatMap_cons, List.length_append, ← hexText, ih, List.length_cons]
    simp only [List.length_cons, List.length_nil]
    omega

/-- The digits of the bytes so far stay, and the terminator is the last byte written. -/
theorem printHash_eq (filled : hash ≠ []) (room : i * 2 + 2 * hash.length < out.length) :
    printHash i hash out =
      some (out.take (i * 2) ++ hexText hash ++ 0 :: out.drop (i * 2 + 2 * hash.length + 1)) := by
  induction hash generalizing i out with
  | nil => contradiction
  | cons byte hash ih =>
    rw [List.length_cons] at room
    have fits : i * 2 + (format02x byte).length ≤ out.length := by
      simp only [format02x, List.length_cons, List.length_nil]
      omega
    obtain ⟨out', wrote⟩ : ∃ out', Buffer.write out (i * 2) (format02x byte) = some out' :=
      ⟨_, Buffer.write_of_fits fits⟩
    have length := Buffer.length_write wrote
    rw [Buffer.write_of_fits fits, Option.some_inj] at wrote
    rw [printHash, Buffer.write_of_fits fits, wrote, Option.bind_eq_bind, Option.bind_some]
    have three : (format02x byte).length = 3 := rfl
    rw [three] at wrote
    by_cases last : hash = []
    · subst last
      rw [printHash, ← wrote, hexText]
      simp only [format02x, List.flatMap_cons, List.flatMap_nil, List.length_cons, List.length_nil,
        List.append_assoc, List.cons_append, List.nil_append]
    · rw [ih last (by omega)]
      have start : (out.take (i * 2)).length = i * 2 := List.length_take_of_le (by omega)
      have kept : out'.take ((i + 1) * 2) =
          out.take (i * 2) ++ [hexDigit (byte / 16), hexDigit (byte % 16)] := by
        rw [← wrote, format02x, List.append_assoc, List.take_append, start,
          List.take_of_length_le (by omega)]
        have two : (i + 1) * 2 - i * 2 = 2 := by omega
        rw [two]
        rfl
      have behind : out'.drop ((i + 1) * 2 + 2 * hash.length + 1) =
          out.drop (i * 2 + 2 * (hash.length + 1) + 1) := by
        have more := List.length_pos_iff.mpr last
        have size : (out.take (i * 2) ++ format02x byte).length = i * 2 + 3 := by
          rw [List.length_append, start, three]
        rw [← wrote, List.drop_append, size, List.drop_eq_nil_of_le (by omega), List.nil_append,
          List.drop_drop]
        congr 1
        omega
      rw [kept, behind, hexText, hexText, List.flatMap_cons, List.length_cons]
      simp only [List.append_assoc]

/-- A digest of 32 bytes does not fit into 64 places. -/
theorem printHash_none (filled : hash ≠ []) (small : out.length ≤ i * 2 + 2 * hash.length) :
    printHash i hash out = none := by
  induction hash generalizing i out with
  | nil => contradiction
  | cons byte hash ih =>
    rw [List.length_cons] at small
    rw [printHash]
    cases wrote : Buffer.write out (i * 2) (format02x byte) with
    | none => rfl
    | some out' =>
      have fits := Buffer.write_fits wrote
      have length := Buffer.length_write wrote
      have three : (format02x byte).length = 3 := rfl
      have more : hash ≠ [] := by
        rintro rfl
        rw [List.length_nil] at small
        omega
      exact ih more (by omega)

theorem length_digest (message : List UInt8) : (Standard.digest message).length = 32 := by
  simp only [Standard.digest, Words.toList, List.flatMap_cons, List.flatMap_nil, bytesOf,
    List.length_append, List.length_cons, List.length_nil]

/-- The context after one message serves for another. -/
theorem update_final (size : buffer.length = 64) (data : List UInt8) :
    ∃ foo, sha256Update (sha256Init buffer) data = some foo ∧ foo.buffer.length = 64 ∧
      sha256Final foo = some (Standard.digest data) := by
  obtain ⟨foo, updated, holds⟩ := sha256Update_holds (holds_init size) data
  exact ⟨foo, updated, holds.size, sha256Final_eq holds⟩

theorem digest_ne_nil (message : List UInt8) : Standard.digest message ≠ [] := by
  intro empty
  have length := length_digest message
  rw [empty, List.length_nil] at length
  omega

/-- Printed at the start of 65 bytes, a digest fills 64 and its terminator the last. -/
theorem printHash_digest (message : List UInt8) (size : out.length = 65) :
    printHash 0 (Standard.digest message) out = some (hexText (Standard.digest message) ++ [0]) := by
  have length := length_digest message
  rw [printHash_eq (digest_ne_nil message) (by omega), length, List.drop_eq_nil_of_le (by omega)]
  rfl

/-- With the byte behind each array of 64, the two functions print the digest of the
data and the digest of that text with the salt; without it, each of them writes
outside. -/
theorem printed_digests (buffer data salt dataOut out : List UInt8) (size : buffer.length = 64)
    (dataSize : dataOut.length = 65) (outSize : out.length = 65) :
    sha256 buffer data out = some (hexText (Standard.digest data) ++ [0]) ∧
      sha256Salted buffer data salt dataOut out =
        some (hexText (Standard.digest (hexText (Standard.digest data) ++ salt)) ++ [0]) ∧
      sha256 buffer data (out.take 64) = none ∧
      sha256Salted buffer data salt (dataOut.take 64) out = none := by
  obtain ⟨foo, updated, size', ended⟩ := update_final size data
  have text : (hexText (Standard.digest data)).length = 64 := by rw [length_hexText, length_digest]
  obtain ⟨foo', updated', -, ended'⟩ := update_final size' (hexText (Standard.digest data) ++ salt)
  have outside : ∀ array : List UInt8, (array.take 64).length ≤ 0 * 2 +
      2 * (Standard.digest data).length := by
    intro array
    rw [length_digest, List.length_take]
    omega
  refine ⟨?_, ?_, ?_, ?_⟩
  · simp only [sha256, updated, ended, Option.bind_eq_bind, Option.bind_some,
      printHash_digest data outSize]
  · have front : (hexText (Standard.digest data) ++ [0]).take 64 =
        hexText (Standard.digest data) := by
      rw [← text, List.take_left]
    simp only [sha256Salted, updated, ended, Option.bind_eq_bind, Option.bind_some,
      printHash_digest data dataSize, front, updated', ended', printHash_digest _ outSize]
  · simp only [sha256, updated, ended, Option.bind_eq_bind, Option.bind_some,
      printHash_none (digest_ne_nil data) (outside out)]
  · simp only [sha256Salted, updated, ended, Option.bind_eq_bind, Option.bind_some,
      Option.bind_none, printHash_none (digest_ne_nil data) (outside dataOut)]

/-- Three bytes with a salt of one. -/
theorem printed_digests_abc :
    sha256 (List.replicate 64 0) [97, 98, 99] (List.replicate 65 1) =
      some (hexText (Standard.digest [97, 98, 99]) ++ [0]) :=
  (printed_digests (List.replicate 64 0) [97, 98,
    99] [115] (List.replicate 65 2) (List.replicate 65 1) rfl rfl rfl).1

end Gearsdk.CryptoHelper
