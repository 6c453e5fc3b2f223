import Mathlib.Data.List.GetD
import Mathlib.Tactic.IntervalCases
import Gearsdk.Blocks
import Gearsdk.Sha256

/-! SHA-256 as it is defined: of a whole message with its padding, in words that are
written with their highest byte first. The functions of the source are those of the
definition, in another spelling. -/
namespace Gearsdk.Sha256

/-! ### The definition -/
namespace Standard

def rotr (n : Nat) (x : UInt32) : UInt32 := ⟨x.toBitVec.rotateRight n⟩

def ch (x y z : UInt32) : UInt32 := (x &&& y) ^^^ (~~~x &&& z)

def maj (x y z : UInt32) : UInt32 := (x &&& y) ^^^ (x &&& z) ^^^ (y &&& z)

def bigSigma0 (x : UInt32) : UInt32 := rotr 2 x ^^^ rotr 13 x ^^^ rotr 22 x

def bigSigma1 (x : UInt32) : UInt32 := rotr 6 x ^^^ rotr 11 x ^^^ rotr 25 x

def sigma0 (x : UInt32) : UInt32 := rotr 7 x ^^^ rotr 18 x ^^^ (x >>> 3)

def sigma1 (x : UInt32) : UInt32 := rotr 17 x ^^^ rotr 19 x ^^^ (x >>> 10)

/-- The word at the start of the bytes. -/
def word (bytes : List UInt8) : UInt32 :=
  ((bytes.getD 0 0).toUInt32 <<< 24) ||| ((bytes.getD 1 0).toUInt32 <<< 16) |||
    ((bytes.getD 2 0).toUInt32 <<< 8) ||| (bytes.getD 3 0).toUInt32

/-- The message schedule of a block. -/
def schedule (block : List UInt8) (t : Nat) : UInt32 :=
  if t < 16 then word (block.drop (4 * t))
  else sigma1 (schedule block (t - 2)) + schedule block (t - 7) + sigma0 (schedule block (t - 15)) +
    schedule block (t - 16)
termination_by t

def round (block : List UInt8) (w : Words) (t : Nat) : Words :=
  let t1 := w.h + bigSigma1 w.e + ch w.e w.f w.g + k.getD t 0 + schedule block t
  let t2 := bigSigma0 w.a + maj w.a w.b w.c
  { a := t1 + t2, b := w.a, c := w.b, d := w.c, e := w.d + t1, f := w.e, g := w.f, h := w.g }

def compress (hash : Words) (block : List UInt8) : Words :=
  let w := (List.range 64).foldl (round block) hash
  { a := w.a + hash.a, b := w.b + hash.b, c := w.c + hash.c, d := w.d + hash.d,
    e := w.e + hash.e, f := w.f + hash.f, g := w.g + hash.g, h := w.h + hash.h }

/-- The number of zero bytes in the padding. -/
def zeros (length : Nat) : Nat := (119 - length % 64) % 64

/-- The length of the message in bits, in eight bytes. -/
def lengthBytes (length : Nat) : List UInt8 :=
  (List.range 8).map fun i => UInt8.ofNat (8 * length / 256 ^ (7 - i))

def pad (message : List UInt8) : List UInt8 :=
  message ++ 0x80 :: List.replicate (zeros message.length) 0 ++ lengthBytes message.length

def digest (message : List UInt8) : List UInt8 :=
  let padded := pad message
  ((Blocks.blocks 64 (padded.length / 64) padded).foldl compress hash0).toList.flatMap bytesOf

end Standard

/-! ### Bits -/

variable {x y z : UInt32}

theorem rotr_eq {n : UInt32} (positive : 0 < n.toNat) (small : n.toNat < 32) :
    rotr x n = Standard.rotr n.toNat x := by
  apply UInt32.toBitVec_inj.mp
  rw [rotr, Standard.rotr, BitVec.rotateRight_def, UInt32.toBitVec_or, UInt32.toBitVec_shiftRight,
    UInt32.toBitVec_shiftLeft, BitVec.ushiftRight_eq', BitVec.shiftLeft_eq']
  have amount : n.toBitVec.toNat = n.toNat := rfl
  have word : (UInt32.toBitVec 32).toNat = 32 := rfl
  have width : (32 : BitVec 32).toNat = 32 := rfl
  congr 2
  rw [BitVec.toNat_umod, UInt32.toBitVec_sub, BitVec.toNat_sub, amount, word, width]
  omega

theorem ch_eq : ch x y z = Standard.ch x y z := by
  apply UInt32.toBitVec_inj.mp
  ext i inside
  simp only [ch, Standard.ch, UInt32.toBitVec_xor, UInt32.toBitVec_and, UInt32.toBitVec_not,
    BitVec.getElem_xor, BitVec.getElem_and, BitVec.getElem_not]
  cases x.toBitVec[i] <;> cases y.toBitVec[i] <;> cases z.toBitVec[i] <;> rfl

theorem maj_eq : maj x y z = Standard.maj x y z := by
  apply UInt32.toBitVec_inj.mp
  ext i inside
  simp only [maj, Standard.maj, UInt32.toBitVec_xor, UInt32.toBitVec_and, UInt32.toBitVec_or,
    BitVec.getElem_xor, BitVec.getElem_and, BitVec.getElem_or]
  cases x.toBitVec[i] <;> cases y.toBitVec[i] <;> cases z.toBitVec[i] <;> rfl

theorem bigSigma0_eq : bigSigma0 x = Standard.bigSigma0 x := by
  rw [bigSigma0, rotr_eq (by decide) (by decide), rotr_eq (by decide) (by decide),
    rotr_eq (by decide) (by decide)]
  rfl

theorem bigSigma1_eq : bigSigma1 x = Standard.bigSigma1 x := by
  rw [bigSigma1, rotr_eq (by decide) (by decide), rotr_eq (by decide) (by decide),
    rotr_eq (by decide) (by decide)]
  rfl

theorem sigma0_eq : sigma0 x = Standard.sigma0 x := by
  rw [sigma0, rotr_eq (by decide) (by decide), rotr_eq (by decide) (by decide)]
  rfl

theorem sigma1_eq : sigma1 x = Standard.sigma1 x := by
  rw [sigma1, rotr_eq (by decide) (by decide), rotr_eq (by decide) (by decide)]
  rfl

/-! ### Bytes -/

/-- The bytes of a word of the machine. -/
def bytesLow (x : UInt32) : List UInt8 :=
  [x.toUInt8, (x >>> 8).toUInt8, (x >>> 16).toUInt8, (x >>> 24).toUInt8]

/-- A word of the machine that has been turned round. -/
theorem byteswap_wordOf (bytes : List UInt8) : byteswap (wordOf bytes) = Standard.word bytes := by
  rw [wordOf, Standard.word]
  generalize bytes.getD 0 0 = b0
  generalize bytes.getD 1 0 = b1
  generalize bytes.getD 2 0 = b2
  generalize bytes.getD 3 0 = b3
  apply UInt32.toBitVec_inj.mp
  ext i inside
  simp [byteswap, rotr, rotl]
  interval_cases i <;> simp

theorem bytesLow_byteswap (x : UInt32) : bytesLow (byteswap x) = bytesOf x := by
  simp only [bytesOf, bytesLow, List.cons.injEq, and_true]
  refine ⟨?_, ?_, ?_, ?_⟩ <;>
    · apply UInt8.toBitVec_inj.mp
      ext i inside
      simp [byteswap, rotr, rotl]
      interval_cases i <;> simp

theorem bytesOf64_halves (low high : UInt32) :
    bytesOf64 ((low.toUInt64 <<< 32) ||| high.toUInt64) = bytesLow high ++ bytesLow low := by
  simp only [bytesOf64, bytesLow, List.cons_append, List.nil_append, List.cons.injEq, and_true]
  refine ⟨?_, ?_, ?_, ?_, ?_, ?_, ?_, ?_⟩ <;>
    · apply UInt8.toBitVec_inj.mp
      ext i inside
      interval_cases i <;> simp

/-- The length goes into the buffer with its highest byte first. -/
theorem bytesOf64_byteswap64 (n : Nat) :
    bytesOf64 (byteswap64 (UInt64.ofNat (8 * n))) = Standard.lengthBytes n := by
  rw [byteswap64, bytesOf64_halves, bytesLow_byteswap, bytesLow_byteswap, Standard.lengthBytes]
  simp only [bytesOf, List.range_succ, List.range_zero, List.nil_append, List.cons_append,
    List.map_cons, List.map_nil, List.cons.injEq, and_true]
  refine ⟨?_, ?_, ?_, ?_, ?_, ?_, ?_, ?_⟩ <;> apply UInt8.toNat_inj.mp
  case refine_8 => simp
  all_goals
    simp [Nat.shiftRight_eq_div_pow]
    omega

/-! ### One block -/

/-- The words that have been computed are those of the schedule. -/
theorem getD_extend (block : List UInt8) {buf : List UInt32} {w16 : Nat} (rounds : Nat)
    (size : buf.length = w16 + 16)
    (right : ∀ t < buf.length, buf.getD t 0 = Standard.schedule block t) :
    (extend rounds w16 buf).length = w16 + 16 + rounds ∧
      ∀ t < w16 + 16 + rounds, (extend rounds w16 buf).getD t 0 = Standard.schedule block t := by
  induction rounds generalizing buf w16 with
  | zero => exact ⟨size, size ▸ right⟩
  | succ rounds ih =>
    rw [extend, right _ (by omega), right _ (by omega), right _ (by omega), right _ (by omega),
      sigma0_eq, sigma1_eq]
    have next : Standard.schedule block (w16 + 16) =
      Standard.sigma1 (Standard.schedule block (w16 + 14)) +
        Standard.schedule block (w16 + 9) + Standard.sigma0 (Standard.schedule block (w16 + 1)) +
        Standard.schedule block w16 := by
      rw [Standard.schedule, if_neg (by omega)]
      rfl
    rw [← next]
    have longer : (buf ++ [Standard.schedule block (w16 + 16)]).length = w16 + 1 + 16 := by
      rw [List.length_append, List.length_singleton, size]
    obtain ⟨length, words⟩ := ih longer fun t below => by
      by_cases old : t < buf.length
      · rw [List.getD_append _ _ _ _ old]
        exact right t old
      · obtain rfl : t = w16 + 16 := by omega
        rw [List.getD_append_right _ _ _ _ (by omega), size, Nat.sub_self]
        rfl
    exact ⟨by omega, fun t below => words t (by omega)⟩

theorem getD_loadWords (block : List UInt8) (below : t < 16) :
    (loadWords block).getD t 0 = Standard.schedule block t := by
  rw [loadWords, List.getD_eq_getElem _ _ (by rwa [List.length_map, List.length_range]),
    List.getElem_map, List.getElem_range, byteswap_wordOf, Standard.schedule, if_pos below]

/-- All the 64 words with their constants. -/
theorem zip_extend (block : List UInt8) :
    k.zip (extend 48 0 (loadWords block)) = (List.range 64).map fun t =>
      (k.getD t 0, Standard.schedule block t) := by
  have size : (loadWords block).length = 0 + 16 := rfl
  obtain ⟨length, words⟩ := getD_extend block 48 size fun t below => getD_loadWords block below
  have constants : k.length = 64 := rfl
  apply List.ext_getElem
  · rw [List.length_zip, length, constants, List.length_map, List.length_range]
    rfl
  · intro t inside inside'
    rw [List.length_map, List.length_range] at inside'
    have word := words t (by omega)
    rw [List.getD_eq_getElem _ _ (by omega)] at word
    rw [List.getElem_zip, List.getElem_map, List.getElem_range, List.getD_eq_getElem _ _ (by omega),
      word]

theorem doRound_eq (w : Words) (t : Nat) :
    doRound w (k.getD t 0, Standard.schedule block t) = Standard.round block w t := by
  simp only [doRound, Standard.round, bigSigma0_eq, bigSigma1_eq, ch_eq, maj_eq]

/-- `SHA256Guts` is the compression of the definition. -/
theorem sha256Guts_eq (hash : Words) (block : List UInt8) :
    sha256Guts hash block = Standard.compress hash block := by
  simp only [sha256Guts, Standard.compress, zip_extend, List.foldl_map, doRound_eq, UInt32.add_comm]

end Gearsdk.Sha256
