import Gearsdk.Buffer

/-! `sha256.c` on a machine that has the lowest byte of a word first: words are
turned round before they are used, and the bytes of a message are collected in a
buffer of 64. -/
namespace Gearsdk.Sha256

def rotl (x n : UInt32) : UInt32 := (x <<< n) ||| (x >>> (32 - n))

def rotr (x n : UInt32) : UInt32 := (x >>> n) ||| (x <<< (32 - n))

def ch (x y z : UInt32) : UInt32 := z ^^^ (x &&& (y ^^^ z))

def maj (x y z : UInt32) : UInt32 := (x &&& (y ||| z)) ||| (y &&& z)

/-- `SIGMA0` -/
def bigSigma0 (x : UInt32) : UInt32 := rotr x 2 ^^^ rotr x 13 ^^^ rotr x 22

/-- `SIGMA1` -/
def bigSigma1 (x : UInt32) : UInt32 := rotr x 6 ^^^ rotr x 11 ^^^ rotr x 25

def sigma0 (x : UInt32) : UInt32 := rotr x 7 ^^^ rotr x 18 ^^^ (x >>> 3)

def sigma1 (x : UInt32) : UInt32 := rotr x 17 ^^^ rotr x 19 ^^^ (x >>> 10)

def byteswap (x : UInt32) : UInt32 := (rotr x 8 &&& 0xff00ff00) ||| (rotl x 8 &&& 0x00ff00ff)

def byteswap64 (x : UInt64) : UInt64 :=
  let a := (x >>> 32).toUInt32
  let b := x.toUInt32
  ((byteswap b).toUInt64 <<< 32) ||| (byteswap a).toUInt64

/-- A word of the machine from its bytes in memory. -/
def wordOf (bytes : List UInt8) : UInt32 :=
  (bytes.getD 0 0).toUInt32 ||| ((bytes.getD 1 0).toUInt32 <<< 8) |||
    ((bytes.getD 2 0).toUInt32 <<< 16) ||| ((bytes.getD 3 0).toUInt32 <<< 24)

/-- The bytes of a long word in memory. -/
def bytesOf64 (x : UInt64) : List UInt8 :=
  [x.toUInt8, (x >>> 8).toUInt8, (x >>> 16).toUInt8, (x >>> 24).toUInt8, (x >>> 32).toUInt8,
    (x >>> 40).toUInt8, (x >>> 48).toUInt8, (x >>> 56).toUInt8]

def k : List UInt32 := [
  0x428a2f98, 0x71374491, 0xb5c0fbcf, 0xe9b5dba5,
  0x3956c25b, 0x59f111f1, 0x923f82a4, 0xab1c5ed5,
  0xd807aa98, 0x12835b01, 0x243185be, 0x550c7dc3,
  0x72be5d74, 0x80deb1fe, 0x9bdc06a7, 0xc19bf174,
  0xe49b69c1, 0xefbe4786, 0x0fc19dc6, 0x240ca1cc,
  0x2de92c6f, 0x4a7484aa, 0x5cb0a9dc, 0x76f988da,
  0x983e5152, 0xa831c66d, 0xb00327c8, 0xbf597fc7,
  0xc6e00bf3, 0xd5a79147, 0x06ca6351, 0x14292967,
  0x27b70a85, 0x2e1b2138, 0x4d2c6dfc, 0x53380d13,
  0x650a7354, 0x766a0abb, 0x81c2c92e, 0x92722c85,
  0xa2bfe8a1, 0xa81a664b, 0xc24b8b70, 0xc76c51a3,
  0xd192e819, 0xd6990624, 0xf40e3585, 0x106aa070,
  0x19a4c116, 0x1e376c08, 0x2748774c, 0x34b0bcb5,
  0x391c0cb3, 0x4ed8aa4a, 0x5b9cca4f, 0x682e6ff3,
  0x748f82ee, 0x78a5636f, 0x84c87814, 0x8cc70208,
  0x90befffa, 0xa4506ceb, 0xbef9a3f7, 0xc67178f2]

/-- The eight words of `hash`, or the eight variables of a block. -/
structure Words where
  a : UInt32
  b : UInt32
  c : UInt32
  d : UInt32
  e : UInt32
  f : UInt32
  g : UInt32
  h : UInt32
  deriving DecidableEq

def Words.toList (w : Words) : List UInt32 := [w.a, w.b, w.c, w.d, w.e, w.f, w.g, w.h]

/-- `DO_ROUND` with the next constant and the next word. -/
def doRound (w : Words) (next : UInt32 × UInt32) : Words :=
  let t1 := w.h + bigSigma1 w.e + ch w.e w.f w.g + next.1 + next.2
  let t2 := bigSigma0 w.a + maj w.a w.b w.c
  { a := t1 + t2, b := w.a, c := w.b, d := w.c, e := w.d + t1, f := w.e, g := w.f, h := w.g }

/-- The loop that turns the words of the block round. -/
def loadWords (bytes : List UInt8) : List UInt32 :=
  (List.range 16).map fun i => byteswap (wordOf (bytes.drop (4 * i)))

/-- The loop that extends the first 16 words; `W16`, `W15`, `W7` and `W2` stand at
fixed distances before the next one. -/
def extend : (rounds : Nat) → (w16 : Nat) → List UInt32 → List UInt32
  | 0, _, buf => buf
  | rounds + 1, w16, buf =>
      let next := sigma1 (buf.getD (w16 + 14) 0) + buf.getD (w16 + 9) 0 +
        sigma0 (buf.getD (w16 + 1) 0) + buf.getD w16 0
      extend rounds (w16 + 1) (buf ++ [next])

/-- `SHA256Guts` -/
def sha256Guts (hash : Words) (bytes : List UInt8) : Words :=
  let buf := extend 48 0 (loadWords bytes)
  let w := (k.zip buf).foldl doRound hash
  { a := hash.a + w.a, b := hash.b + w.b, c := hash.c + w.c, d := hash.d + w.d,
    e := hash.e + w.e, f := hash.f + w.f, g := hash.g + w.g, h := hash.h + w.h }

structure Context where
  totalLength : UInt64
  hash : Words
  bufferLength : Nat
  /-- All the 64 bytes. -/
  buffer : List UInt8

def hash0 : Words :=
  { a := 0x6a09e667, b := 0xbb67ae85, c := 0x3c6ef372, d := 0xa54ff53a,
    e := 0x510e527f, f := 0x9b05688c, g := 0x1f83d9ab, h := 0x5be0cd19 }

/-- The buffer is left as it was. -/
def sha256Init (buffer : List UInt8) : Context :=
  { totalLength := 0, hash := hash0, bufferLength := 0, buffer }

/-- The loop of `sha256_update`. `none` writes outside the buffer. -/
def updateLoop : (rounds : Nat) → Context → List UInt8 → Option Context
  | _, sc, [] => some sc
  | 0, _, _ :: _ => none
  | rounds + 1, sc, byte :: bytes => do
      let data := byte :: bytes
      let bytesToCopy := min (64 - sc.bufferLength) data.length
      let buffer ← Buffer.write sc.buffer sc.bufferLength (data.take bytesToCopy)
      let totalLength := sc.totalLength + UInt64.ofNat (bytesToCopy * 8)
      let bufferLength := sc.bufferLength + bytesToCopy
      let sc :=
        if bufferLength = 64 then
          { totalLength, hash := sha256Guts sc.hash buffer, bufferLength := 0, buffer : Context }
        else { totalLength, hash := sc.hash, bufferLength, buffer }
      updateLoop rounds sc (data.drop bytesToCopy)

def sha256Update (sc : Context) (data : List UInt8) : Option Context :=
  updateLoop data.length sc data

def padding : List UInt8 := 0x80 :: List.replicate 63 0

/-- The bytes of a word of `hash`, the highest one first. -/
def bytesOf (x : UInt32) : List UInt8 :=
  [(x >>> 24).toUInt8, (x >>> 16).toUInt8, (x >>> 8).toUInt8, x.toUInt8]

def sha256Final (sc : Context) : Option (List UInt8) := do
  let bytesToPad := 120 - sc.bufferLength
  let bytesToPad := if 64 < bytesToPad then bytesToPad - 64 else bytesToPad
  let lengthPad := byteswap64 sc.totalLength
  let sc ← sha256Update sc (padding.take bytesToPad)
  let sc ← sha256Update sc (bytesOf64 lengthPad)
  return sc.hash.toList.flatMap bytesOf

/-- The first sample message of the source. -/
example : ((sha256Update (sha256Init (List.replicate 64 0)) [97, 98, 99]).bind sha256Final) = some [
    0xba, 0x78, 0x16, 0xbf, 0x8f, 0x01, 0xcf, 0xea, 0x41, 0x41, 0x40, 0xde, 0x5d, 0xae, 0x22, 0x23,
    0xb0, 0x03, 0x61, 0xa3, 0x96, 0x17, 0x7a, 0x9c, 0xb4, 0x10, 0xff, 0x61, 0xf2, 0x00, 0x15,
      0xad] := by
  decide +kernel

end Gearsdk.Sha256
