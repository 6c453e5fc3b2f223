import Gearsdk.Crc32.Table
import Gearsdk.Qstring
import Mathlib.Algebra.Group.Int.Defs

/-! The checksum of `gxcrc32`: a table instead of the bits, a buffer with an offset and a
length, and texts that end at their first NUL. -/
namespace Gearsdk
namespace Gxcrc32
open Qstring

def crcSeed : Nat := 0xFFFFFFFF

def crcTable : List Nat :=
  [
    0x00000000, 0x77073096, 0xEE0E612C, 0x990951BA, 0x076DC419, 0x706AF48F, 0xE963A535, 0x9E6495A3,
    0x0EDB8832, 0x79DCB8A4, 0xE0D5E91E, 0x97D2D988, 0x09B64C2B, 0x7EB17CBD, 0xE7B82D07, 0x90BF1D91,
    0x1DB71064, 0x6AB020F2, 0xF3B97148, 0x84BE41DE, 0x1ADAD47D, 0x6DDDE4EB, 0xF4D4B551, 0x83D385C7,
    0x136C9856, 0x646BA8C0, 0xFD62F97A, 0x8A65C9EC, 0x14015C4F, 0x63066CD9, 0xFA0F3D63, 0x8D080DF5,
    0x3B6E20C8, 0x4C69105E, 0xD56041E4, 0xA2677172, 0x3C03E4D1, 0x4B04D447, 0xD20D85FD, 0xA50AB56B,
    0x35B5A8FA, 0x42B2986C, 0xDBBBC9D6, 0xACBCF940, 0x32D86CE3, 0x45DF5C75, 0xDCD60DCF, 0xABD13D59,
    0x26D930AC, 0x51DE003A, 0xC8D75180, 0xBFD06116, 0x21B4F4B5, 0x56B3C423, 0xCFBA9599, 0xB8BDA50F,
    0x2802B89E, 0x5F058808, 0xC60CD9B2, 0xB10BE924, 0x2F6F7C87, 0x58684C11, 0xC1611DAB, 0xB6662D3D,
    0x76DC4190, 0x01DB7106, 0x98D220BC, 0xEFD5102A, 0x71B18589, 0x06B6B51F, 0x9FBFE4A5, 0xE8B8D433,
    0x7807C9A2, 0x0F00F934, 0x9609A88E, 0xE10E9818, 0x7F6A0DBB, 0x086D3D2D, 0x91646C97, 0xE6635C01,
    0x6B6B51F4, 0x1C6C6162, 0x856530D8, 0xF262004E, 0x6C0695ED, 0x1B01A57B, 0x8208F4C1, 0xF50FC457,
    0x65B0D9C6, 0x12B7E950, 0x8BBEB8EA, 0xFCB9887C, 0x62DD1DDF, 0x15DA2D49, 0x8CD37CF3, 0xFBD44C65,
    0x4DB26158, 0x3AB551CE, 0xA3BC0074, 0xD4BB30E2, 0x4ADFA541, 0x3DD895D7, 0xA4D1C46D, 0xD3D6F4FB,
    0x4369E96A, 0x346ED9FC, 0xAD678846, 0xDA60B8D0, 0x44042D73, 0x33031DE5, 0xAA0A4C5F, 0xDD0D7CC9,
    0x5005713C, 0x270241AA, 0xBE0B1010, 0xC90C2086, 0x5768B525, 0x206F85B3, 0xB966D409, 0xCE61E49F,
    0x5EDEF90E, 0x29D9C998, 0xB0D09822, 0xC7D7A8B4, 0x59B33D17, 0x2EB40D81, 0xB7BD5C3B, 0xC0BA6CAD,
    0xEDB88320, 0x9ABFB3B6, 0x03B6E20C, 0x74B1D29A, 0xEAD54739, 0x9DD277AF, 0x04DB2615, 0x73DC1683,
    0xE3630B12, 0x94643B84, 0x0D6D6A3E, 0x7A6A5AA8, 0xE40ECF0B, 0x9309FF9D, 0x0A00AE27, 0x7D079EB1,
    0xF00F9344, 0x8708A3D2, 0x1E01F268, 0x6906C2FE, 0xF762575D, 0x806567CB, 0x196C3671, 0x6E6B06E7,
    0xFED41B76, 0x89D32BE0, 0x10DA7A5A, 0x67DD4ACC, 0xF9B9DF6F, 0x8EBEEFF9, 0x17B7BE43, 0x60B08ED5,
    0xD6D6A3E8, 0xA1D1937E, 0x38D8C2C4, 0x4FDFF252, 0xD1BB67F1, 0xA6BC5767, 0x3FB506DD, 0x48B2364B,
    0xD80D2BDA, 0xAF0A1B4C, 0x36034AF6, 0x41047A60, 0xDF60EFC3, 0xA867DF55, 0x316E8EEF, 0x4669BE79,
    0xCB61B38C, 0xBC66831A, 0x256FD2A0, 0x5268E236, 0xCC0C7795, 0xBB0B4703, 0x220216B9, 0x5505262F,
    0xC5BA3BBE, 0xB2BD0B28, 0x2BB45A92, 0x5CB36A04, 0xC2D7FFA7, 0xB5D0CF31, 0x2CD99E8B, 0x5BDEAE1D,
    0x9B64C2B0, 0xEC63F226, 0x756AA39C, 0x026D930A, 0x9C0906A9, 0xEB0E363F, 0x72076785, 0x05005713,
    0x95BF4A82, 0xE2B87A14, 0x7BB12BAE, 0x0CB61B38, 0x92D28E9B, 0xE5D5BE0D, 0x7CDCEFB7, 0x0BDBDF21,
    0x86D3D2D4, 0xF1D4E242, 0x68DDB3F8, 0x1FDA836E, 0x81BE16CD, 0xF6B9265B, 0x6FB077E1, 0x18B74777,
    0x88085AE6, 0xFF0F6A70, 0x66063BCA, 0x11010B5C, 0x8F659EFF, 0xF862AE69, 0x616BFFD3, 0x166CCF45,
    0xA00AE278, 0xD70DD2EE, 0x4E048354, 0x3903B3C2, 0xA7672661, 0xD06016F7, 0x4969474D, 0x3E6E77DB,
    0xAED16A4A, 0xD9D65ADC, 0x40DF0B66, 0x37D83BF0, 0xA9BCAE53, 0xDEBB9EC5, 0x47B2CF7F, 0x30B5FFE9,
    0xBDBDF21C, 0xCABAC28A, 0x53B39330, 0x24B4A3A6, 0xBAD03605, 0xCDD70693, 0x54DE5729, 0x23D967BF,
    0xB3667A2E, 0xC4614AB8, 0x5D681B02, 0x2A6F2B94, 0xB40BBE37, 0xC30C8EA1, 0x5A05DF1B, 0x2D02EF8D]

/-- The loop of `update`, with the bytes that are left to count down. A read outside the
buffer has no result. -/
def updateLoop (buf : Qstring) : (len off crcData : Nat) → Option Nat
  | 0, _, crcData => some crcData
  | len + 1, off, crcData =>
      match buf[off]? with
      | none => none
      | some byte => updateLoop buf len (off + 1) (Crc32.lookUp crcTable crcData byte)

def updateBytes (crcData : Nat) (buf : Qstring) (off len : Nat) : Option Nat :=
  (updateLoop buf len off (crcData ^^^ crcSeed)).map (· ^^^ crcSeed)

/-- `strlen` needs a NUL in the buffer. -/
def strlen (buf : Qstring) : Option Nat := if 0 ∈ buf then some (cString buf).length else none

/-- The value of `crc_data` behind the call. Nothing stands for a null pointer, and no result
for a read outside the buffer and for a sum that is no `int`. -/
def update (crcData : Nat) (buf : Option Qstring) (off len : Int32) (isBinary : Bool) :
    Option Nat :=
  match buf with
  | none => some crcData
  | some buf =>
      if off.toInt < 0 ∨ len.toInt < 0 then some crcData
      else if off.toInt + len.toInt ≥ 2 ^ 31 then none
      else if isBinary then updateBytes crcData buf off.toInt.toNat len.toInt.toNat
      else do
        let length ← strlen buf
        if off.toInt + len.toInt > (Int32.ofNat length).toInt then some crcData
        else updateBytes crcData buf off.toInt.toNat len.toInt.toNat

/-- `update` of a text. -/
def updateText (crcData : Nat) (buffer : Qstring) : Option Nat := do
  update crcData (some buffer) 0 (Int32.ofNat (← strlen buffer)) false

/-- `calc` of a text. -/
def calcText (data : Qstring) : Option Int32 := do
  if Int32.ofNat (← strlen data) = 0 then some 0 else (updateText 0 data).map Int32.ofNat

/-- A byte string handed over as a part of a buffer, by an offset and a length that are `int`s. -/
structure Part where
  before : Qstring
  bytes : Qstring
  after : Qstring
  fits : before.length + bytes.length < 2 ^ 31

namespace Part

def update (part : Part) (isBinary : Bool) (crcData : Nat) : Option Nat :=
  Gxcrc32.update crcData (some (part.before ++ part.bytes ++ part.after)) (Int32.ofNat part.before.length)
    (Int32.ofNat part.bytes.length) isBinary

/-- The text of a buffer ends with the part. Parts before the end of a text are none. -/
def IsText (part : Part) : Prop := Clean (part.before ++ part.bytes) ∧ part.after.head? = some 0

end Part

/-! ### The table -/

theorem crcTable_eq : crcTable = Crc32.byteTable := by decide +kernel

theorem updateLoop_eq (before bytes after : Qstring) (crcData : Nat) :
    updateLoop (before ++ bytes ++ after) bytes.length before.length crcData =
      some (bytes.foldl Crc32.feed crcData) := by
  induction bytes generalizing before crcData with
  | nil => rfl
  | cons byte rest ih =>
    have here : (before ++ byte :: rest ++ after)[before.length]? = some byte := by
      rw [List.append_assoc, List.getElem?_append_right (Nat.le_refl _), Nat.sub_self]
      rfl
    have moved : before ++ byte :: rest ++ after = (before ++ [byte]) ++ rest ++ after := by
      rw [List.append_assoc before [byte], List.singleton_append]
    have next := ih (before ++ [byte]) (Crc32.feed crcData byte)
    rw [← moved, List.length_append, List.length_singleton] at next
    rw [List.length_cons, updateLoop, here, crcTable_eq]
    dsimp only
    rw [Crc32.lookUp_eq]
    exact next

theorem updateBytes_eq (before bytes after : Qstring) (crcData : Nat) :
    updateBytes crcData (before ++ bytes ++ after) before.length bytes.length =
      some (Crc32.continued crcData bytes) := by
  rw [updateBytes, updateLoop_eq]
  rfl

/-! ### The calls -/

variable {part : Part}

theorem Part.toInt_off (part : Part) :
    (Int32.ofNat part.before.length).toInt = part.before.length :=
  Int32.toInt_ofNat_of_lt (by have := part.fits; omega)

theorem Part.toInt_len (part : Part) : (Int32.ofNat part.bytes.length).toInt = part.bytes.length :=
  Int32.toInt_ofNat_of_lt (by have := part.fits; omega)

theorem Part.strlen (isText : part.IsText) :
    Gxcrc32.strlen (part.before ++ part.bytes ++ part.after) =
      some (part.before.length + part.bytes.length) := by
  obtain ⟨clean, ending⟩ := isText
  obtain ⟨beyond, after⟩ := List.head?_eq_some_iff.mp ending
  have terminated : 0 ∈ part.before ++ part.bytes ++ part.after := by
    rw [after]
    exact List.mem_append_right _ List.mem_cons_self
  have text : cString (part.before ++ part.bytes ++ part.after) = part.before ++ part.bytes := by
    rw [after, cString, List.takeWhile_append_of_pos fun byte member => by simpa using clean byte member]
    simp
  rw [Gxcrc32.strlen, if_pos terminated, text, List.length_append]

/-- Binary, or as a text that ends with it, a part goes through the checksum bit by bit. -/
theorem Part.update_eq (part : Part) (isBinary : Bool) (crcData : Nat)
    (text : isBinary = false → part.IsText) :
    part.update isBinary crcData = some (Crc32.continued crcData part.bytes) := by
  have fits := part.fits
  have inside : ¬ ((part.before.length : Int) < 0 ∨ (part.bytes.length : Int) < 0) := by omega
  have sum : ¬ (part.before.length : Int) + part.bytes.length ≥ 2 ^ 31 := by omega
  rw [Part.update, Gxcrc32.update]
  simp only [part.toInt_off, part.toInt_len, if_neg inside, if_neg sum, Int.toNat_natCast,
    updateBytes_eq]
  cases isBinary with
  | true => rfl
  | false =>
    have length : (Int32.ofNat (part.before.length + part.bytes.length)).toInt =
        part.before.length + part.bytes.length := by
      rw [Int32.toInt_ofNat_of_lt fits, Int.natCast_add]
    simp only [Part.strlen (text rfl), Option.bind_eq_bind, Option.bind_some, length, Int.lt_irrefl,
      gt_iff_lt, Bool.false_eq_true, if_false]

/-- The checksum of a text is an `int`, and zero for the empty text as for every other way. -/
theorem calcText_eq (clean : Clean text) (fits : text.length < 2 ^ 31) (beyond : Qstring) :
    calcText (text ++ 0 :: beyond) = some (Int32.ofNat (Crc32.checksum text)) := by
  let part : Part := ⟨[], text, 0 :: beyond, by simpa using fits⟩
  have isText : part.IsText := ⟨clean, rfl⟩
  have length : strlen (text ++ 0 :: beyond) = some text.length := by
    rw [← Nat.zero_add text.length]
    exact part.strlen isText
  have updated : update 0 (some (text ++ 0 :: beyond)) 0 (Int32.ofNat text.length) false =
      some (Crc32.continued 0 text) := part.update_eq false 0 fun _ => isText
  rw [calcText, length, Option.bind_eq_bind, Option.bind_some, updateText, length,
    Option.bind_eq_bind, Option.bind_some, updated, Crc32.continued_zero]
  split
  · rename_i zero
    have none : text.length = 0 := by
      have same := congrArg Int32.toInt zero
      rw [Int32.toInt_ofNat_of_lt fits] at same
      exact Int.natCast_eq_zero.mp same
    rw [List.length_eq_zero_iff.mp none]
    rfl
  · rfl

/-- The table gives the reflected CRC-32 of every byte string, bit by bit, and part by part
that of the parts run together. In text mode so it is for texts. -/
theorem update_refines_bitwise (x y xy : Part) (crcData : Nat)
    (whole : xy.bytes = x.bytes ++ y.bytes) :
    (x.update true crcData = some (Crc32.continued crcData x.bytes) ∧
      (x.update true crcData).bind (y.update true) = xy.update true crcData) ∧
    (x.IsText → x.update false crcData = some (Crc32.continued crcData x.bytes) ∧
      (y.IsText → xy.IsText → (x.update false crcData).bind (y.update false) =
        xy.update false crcData)) := by
  have joined (isBinary : Bool) (first : isBinary = false →
    x.IsText) (second : isBinary = false → y.IsText)
      (both : isBinary = false → xy.IsText) :
      (x.update isBinary crcData).bind (y.update isBinary) = xy.update isBinary crcData := by
    rw [x.update_eq isBinary crcData first, Option.bind_some, y.update_eq isBinary _ second,
      xy.update_eq isBinary crcData both, whole, Crc32.continued_append]
  refine ⟨⟨x.update_eq true crcData fun other => ?_, joined true ?_ ?_ ?_⟩, fun first =>
    ⟨?_, fun second both => ?_⟩⟩
  · cases other
  · rintro ⟨⟩
  · rintro ⟨⟩
  · rintro ⟨⟩
  · exact x.update_eq false crcData fun _ => first
  · exact joined false (fun _ => first) (fun _ => second) fun _ => both

/-- The digits from 1 to 9 in two parts of one buffer. -/
theorem update_refines_digits :
    ((⟨[], literal "1234", literal "56789", by decide +kernel⟩ : Part).update true 0).bind
        ((⟨literal "1234", literal "56789", [], by decide +kernel⟩ : Part).update true) =
      (⟨[], literal "123456789", [], by decide +kernel⟩ : Part).update true 0 :=
  (update_refines_bitwise _ _ _ 0 (by decide +kernel)).1.2

end Gxcrc32
end Gearsdk
