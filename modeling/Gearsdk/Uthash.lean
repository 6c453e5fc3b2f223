import Gearsdk.DoublyLinked
import Gearsdk.Transition
import Mathlib.Data.Nat.Bitwise

/-! The hash tables of `uthash.h`, as the servers keep their connections in. The
handles are fields of the elements themselves: each element is in the list of all
elements in the order of their insertion, and in the chain of its bucket. -/
namespace Uthash

/-- The three words that `HASH_JEN` mixes. -/
structure Words where
  hjI : UInt32 := 0x9e3779b9
  hjJ : UInt32 := 0x9e3779b9
  hashv : UInt32 := 0xfeedbeef

def jenMix (w : Words) : Words :=
  let (a, b, c) := (w.hjI, w.hjJ, w.hashv)
  let a := (a - b - c) ^^^ (c >>> 13)
  let b := (b - c - a) ^^^ (a <<< 8)
  let c := (c - a - b) ^^^ (b >>> 13)
  let a := (a - b - c) ^^^ (c >>> 12)
  let b := (b - c - a) ^^^ (a <<< 16)
  let c := (c - a - b) ^^^ (b >>> 5)
  let a := (a - b - c) ^^^ (c >>> 3)
  let b := (b - c - a) ^^^ (a <<< 10)
  let c := (c - a - b) ^^^ (b >>> 15)
  ⟨a, b, c⟩

/-- Up to four bytes, the first one lowest. -/
def word (bytes : List UInt8) : UInt32 :=
  bytes.foldr (fun byte rest => byte.toUInt32 + (rest <<< 8)) 0

/-- What is left after the blocks of twelve bytes. The lowest byte of the last word
is left for the length. -/
def jenTail (w : Words) (key : List UInt8) : Words :=
  ⟨w.hjI + word (key.take 4), w.hjJ + word ((key.drop 4).take 4),
    w.hashv + (word ((key.drop 8).take 3) <<< 8)⟩

/-- The loop over the blocks of twelve bytes, and the bytes behind them. -/
def jenBlocks : Nat → Words → List UInt8 → Words × List UInt8
  | 0, w, key => (w, key)
  | blocks + 1, w, key =>
      jenBlocks blocks (jenMix ⟨w.hjI + word (key.take 4), w.hjJ + word ((key.drop 4).take 4),
        w.hashv + word ((key.drop 8).take 4)⟩) (key.drop 12)

/-- `HASH_VALUE`. -/
def jen (key : List UInt8) : UInt32 :=
  let (w, rest) := jenBlocks (key.length / 12) {} key
  (jenMix (jenTail { w with hashv := w.hashv + UInt32.ofNat key.length } rest)).hashv

structure Bucket (α : Type) where
  hhHead : Option α := none
  count : Nat := 0
  expandMult : Nat := 0

structure Table (α : Type) where
  buckets : Nat → Bucket α := fun _ => {}
  numBuckets : Nat := 32
  log2NumBuckets : Nat := 5
  numItems : Nat := 0
  tail : Option α := none
  idealChainMaxlen : Nat := 0
  nonidealItems : Nat := 0
  ineffExpands : Nat := 0
  noexpand : Bool := false

/-- The table is there while `head` is not null. -/
structure Hash (α : Type) where
  head : Option α := none
  tbl : Table α := {}
  /-- `prev` and `next` of the handles. -/
  app : DoublyLinked α := {}
  /-- `hh_prev` and `hh_next` of the handles. -/
  hh : DoublyLinked α := {}
  key : α → List UInt8 := fun _ => []
  hashv : α → UInt32 := fun _ => 0

def bktCapacityThresh : Nat := 10

/-- `HASH_TO_BKT`. -/
def toBkt (hashv : UInt32) (numBkts : Nat) : Nat := hashv.toNat &&& (numBkts - 1)

/-- What `HASH_EXPAND_BUCKETS` has done so far: its new buckets, and the links of
the elements that it has moved. -/
structure Expansion (α : Type) where
  newBuckets : Nat → Bucket α := fun _ => {}
  nonidealItems : Nat := 0
  hh : DoublyLinked α

namespace Hash
variable {α : Type}

/-- `HASH_FIND_IN_BKT`, from one element of the chain on. Equal keys have equal
lengths. -/
def findInBkt (h : Hash α) (key : List UInt8) (hashval : UInt32) : Nat → Option α → Option α
  | _, none | 0, some _ => none
  | fuel + 1, some out =>
      if h.hashv out = hashval ∧ h.key out = key then some out
      else h.findInBkt key hashval fuel (h.hh.next out)

/-- `HASH_FIND`. -/
def find (h : Hash α) (key : List UInt8) : Option α :=
  match h.head with
  | none => none
  | some _ =>
      let bucket := h.tbl.buckets (toBkt (jen key) h.tbl.numBuckets)
      h.findInBkt key (jen key) bucket.count bucket.hhHead

/-- `HASH_CNT`. -/
def cnt (h : Hash α) : Nat := if h.head.isSome then h.tbl.numItems else 0

/-- The elements in the order of `HASH_ITER`. -/
def items (h : Hash α) : List α := h.app.follow h.cnt h.head

section
variable [DecidableEq α]

/-- One element is put at the head of its new bucket. -/
def moveItem (h : Hash α) (idealChainMaxlen : Nat) (e : Expansion α) (thh : α) : Expansion α :=
  let bkt := toBkt (h.hashv thh) (h.tbl.numBuckets * 2)
  let newbkt := e.newBuckets bkt
  let count := newbkt.count + 1
  let nonideal := idealChainMaxlen < count
  let expandMult := if nonideal ∧ newbkt.expandMult * idealChainMaxlen < count then
    newbkt.expandMult + 1
    else newbkt.expandMult
  { newBuckets := Function.update e.newBuckets bkt { hhHead := some thh, count, expandMult }
    nonidealItems := if nonideal then e.nonidealItems + 1 else e.nonidealItems
    hh := e.hh.pushFront newbkt.hhHead thh }

/-- The walk over one old bucket. -/
def moveBucket (h : Hash α) (idealChainMaxlen : Nat) (e : Expansion α) (bktI : Nat) :
    Except Unit (Expansion α) :=
  DoublyLinked.forEach () (fun e thh => e.hh.next thh) (fun e thh =>
    .ok (h.moveItem idealChainMaxlen e thh))
    (h.tbl.buckets bktI).count e (h.tbl.buckets bktI).hhHead

/-- `HASH_EXPAND_BUCKETS`. -/
def expandBuckets (h : Hash α) : Except Unit (Hash α) :=
  let tbl := h.tbl
  let idealChainMaxlen := (tbl.numItems >>> (tbl.log2NumBuckets + 1)) +
    if tbl.numItems &&& (tbl.numBuckets * 2 - 1) ≠ 0 then 1 else 0
  ((List.range tbl.numBuckets).foldlM (h.moveBucket idealChainMaxlen) { hh := h.hh }).map fun e =>
    let ineffExpands := if tbl.numItems >>> 1 < e.nonidealItems then tbl.ineffExpands + 1 else 0
    { h with
      hh := e.hh
      tbl := { tbl with
        buckets := e.newBuckets
        numBuckets := tbl.numBuckets * 2
        log2NumBuckets := tbl.log2NumBuckets + 1
        idealChainMaxlen
        nonidealItems := e.nonidealItems
        ineffExpands
        noexpand := tbl.noexpand || decide (1 < ineffExpands) } }

/-- `HASH_ADD_TO_BKT`. -/
def addToBkt (h : Hash α) (bkt : Nat) (add : α) : Except Unit (Hash α) :=
  let bucket := h.tbl.buckets bkt
  let count := bucket.count + 1
  let h := { h with
    hh := h.hh.pushFront bucket.hhHead add
    tbl := { h.tbl with
      buckets := Function.update h.tbl.buckets bkt { bucket with hhHead := some add, count } } }
  if (bucket.expandMult + 1) * bktCapacityThresh ≤ count ∧ h.tbl.noexpand = false then
    h.expandBuckets
  else .ok h

/-- The element as it is entered behind all others; the first one makes the table. -/
def enlist (h : Hash α) (key : List UInt8) (add : α) : Hash α :=
  let h := { h with
    key := Function.update h.key add key
    hashv := Function.update h.hashv add (jen key) }
  match h.head with
  | none =>
      { h with
        head := some add
        tbl := { tail := some add }
        app := (h.app.setNext (some add) none).setPrev (some add) none }
  | some _ => { h with app := h.app.append h.tbl.tail add, tbl := { h.tbl with tail := some add } }

/-- `HASH_ADD`. The error stands for a chain that does not end. -/
def add (h : Hash α) (key : List UInt8) (add : α) : Except Unit (Hash α) :=
  let h := h.enlist key add
  let h := { h with tbl := { h.tbl with numItems := h.tbl.numItems + 1 } }
  h.addToBkt (toBkt (jen key) h.tbl.numBuckets) add

/-- `HASH_DEL_IN_BKT`. -/
def delInBkt (h : Hash α) (bkt : Nat) (del : α) : Hash α :=
  let bucket := h.tbl.buckets bkt
  let hhHead := if bucket.hhHead = some del then h.hh.next del else bucket.hhHead
  { h with
    hh := h.hh.unlink del
    tbl := { h.tbl with
      buckets := Function.update h.tbl.buckets bkt { bucket with
        hhHead, count := bucket.count - 1 } } }

/-- `HASH_DELETE`. -/
def delete (h : Hash α) (del : α) : Hash α :=
  if h.app.prev del = none ∧ h.app.next del = none then { h with head := none }
  else
    let tail := if h.tbl.tail = some del then h.app.prev del else h.tbl.tail
    let head := if h.app.prev del = none then h.app.next del else h.head
    let h := { h with head, app := h.app.unlink del, tbl := { h.tbl with tail } }
    let h := h.delInBkt (toBkt (h.hashv del) h.tbl.numBuckets) del
    { h with tbl := { h.tbl with numItems := h.tbl.numItems - 1 } }

/-- The part of `HASH_FSCK` that looks at one bucket. -/
def fsckBucket (h : Hash α) (bktI : Nat) : Option Nat :=
  let bucket := h.tbl.buckets bktI
  match h.hh.count h.tbl.numItems none bucket.hhHead with
  | none => none
  | some bktCount => if bucket.count ≠ bktCount then none else some bktCount

/-- `HASH_FSCK`: whether it ends without a complaint. -/
def fsck (h : Hash α) : Bool :=
  match h.head with
  | none => true
  | some _ =>
      match (List.range h.tbl.numBuckets).mapM h.fsckBucket,
        h.app.count h.tbl.numItems none h.head with
      | some counts, some count => counts.sum = h.tbl.numItems && count = h.tbl.numItems
      | _, _ => false

end
end Hash
end Uthash
